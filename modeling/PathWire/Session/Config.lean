/-
The settings of a session.

Every setting has a default, taken from the protocol revision in use.  Settings make sense
if nothing that is counted is zero and the bandwidth floor does not exceed the cap.
-/
import PathWire.Revision
import PathWire.Session.Error

namespace PathWire

/-- How a session batches and ticks. -/
structure SessionSection where
  tickIntervalMs : Nat := Revision.current.tickIntervalMs
  maxFrameBytes : Nat := Revision.current.maxFrameBytes
  /-- How many commands may wait for a session's task. -/
  commandCapacity : Nat := 256
  deriving DecidableEq, Repr

/-- A session's send budget, in bytes per second. -/
structure BandwidthSection where
  localCap : UInt32 := Revision.current.bandwidthDefaultCap
  floor : UInt32 := Revision.current.bandwidthFloor
  deriving DecidableEq, Repr

/-- The settings of a session. -/
structure SessionConfig where
  session : SessionSection := {}
  bandwidth : BandwidthSection := {}
  deriving DecidableEq, Repr

namespace SessionConfig

/-- Settings are refused for the first of them that makes no sense. -/
def validate (config : SessionConfig) : Except SessionError Unit := do
  if config.session.tickIntervalMs = 0 then
    throw (.config "session.tick_interval_ms must be > 0")
  if config.session.maxFrameBytes = 0 then
    throw (.config "session.max_frame_bytes must be > 0")
  if config.session.commandCapacity = 0 then
    throw (.config "session.command_capacity must be > 0")
  if config.bandwidth.localCap < config.bandwidth.floor then
    throw (.config (s!"bandwidth.floor ({config.bandwidth.floor}) exceeds " ++
      s!"bandwidth.local_cap ({config.bandwidth.localCap})"))

end SessionConfig

end PathWire

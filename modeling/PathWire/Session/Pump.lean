/-
Moving frames between a byte stream and a session's loop.

The pump reads frames off the stream and hands them to the loop, and writes the frames of
the session's transport onto the stream.  It does one thing at a time: while it waits for
the stream to take a frame's bytes it reads nothing.  Like the loop it is a state and a
choice of step.  It ends when the stream ends or fails; on a shutdown it first writes
everything up to the session's last frame.
-/
import PathWire.Frame.Delimited
import PathWire.Session.Loop

namespace PathWire

/-- One direction of a byte stream between two parties. -/
structure Duct where
  /-- The most bytes it holds. -/
  capacity : Nat
  /-- The bytes written and not yet read. -/
  held : Bytes
  /-- Whether the writing side is done. -/
  isClosed : Bool
  /-- Whether the reading side is gone. -/
  isBroken : Bool
  deriving DecidableEq, Repr

namespace Duct

/-- A duct through which nothing went. -/
def new (capacity : Nat) : Duct := ⟨capacity, [], false, false⟩

/-- How many more bytes it holds. -/
def room (duct : Duct) : Nat := duct.capacity - duct.held.length

/-- The duct after the writing side is done. -/
def close (duct : Duct) : Duct := { duct with isClosed := true }

/-- The duct after the reading side is gone: what it held is lost. -/
def breakOff (duct : Duct) : Duct := { duct with isBroken := true, held := [] }

/-- The duct with more bytes. -/
def accept (duct : Duct) (bytes : Bytes) : Duct := { duct with held := duct.held ++ bytes }

/-- The duct after `count` bytes were read. -/
def skip (duct : Duct) (count : Nat) : Duct := { duct with held := duct.held.drop count }

end Duct

/-- What a pump is doing. -/
inductive PumpPhase where
  /-- Waiting for whatever comes first. -/
  | selecting
  /-- Waiting for the loop to take a frame. -/
  | delivering (frame : Bytes)
  /-- Waiting for the stream to take the bytes of a frame. -/
  | sending
  /-- Writing what is left, also what the session has yet to write if `wait` is set. -/
  | draining (wait : Bool)
  | ended (result : Except TransportError Unit)

/-- The state of a pump. -/
structure Pump where
  phase : PumpPhase
  /-- Bytes read that make no complete frame yet. -/
  arrived : Bytes
  /-- Bytes the stream has not taken yet. -/
  unsent : Bytes

/-- What a pump is connected to. -/
structure PumpWiring where
  incoming : Duct
  outgoing : Duct
  /-- The frames the session has written and the pump has not taken. -/
  queue : List Bytes
  /-- Whether the session's loop has ended. -/
  sessionGone : Bool
  /-- Whether the loop takes another frame. -/
  inboxFree : Bool
  /-- Whether a shutdown signal is waiting. -/
  signalled : Bool
  /-- The frames handed to the loop, oldest first. -/
  delivered : List Bytes

/-- The step a pump takes next. -/
inductive PumpStep where
  /-- Read up to so many bytes. -/
  | read (count : Nat)
  /-- Take a frame off the bytes that have arrived. -/
  | decode
  /-- Notice that the stream has ended. -/
  | streamEnd
  /-- Hand a frame to the loop. -/
  | deliver
  /-- Take a frame that the session has written. -/
  | take
  /-- Write up to so many bytes. -/
  | write (count : Nat)
  /-- Notice that the session is gone. -/
  | sessionEnd
  /-- Notice the shutdown signal. -/
  | shutdown
  /-- End, with everything written. -/
  | finish
  deriving DecidableEq, Repr

namespace Pump

/-- A pump that has not taken a step. -/
def new : Pump := ⟨.selecting, [], []⟩

/-- Whether the pump has ended. -/
def hasEnded (pump : Pump) : Bool :=
  match pump.phase with
  | .ended _ => true
  | _ => false

/-- The pump at its end. -/
def finish (pump : Pump) (result : Except TransportError Unit) : Pump :=
  { pump with phase := .ended result }

/-- A pump that reads. -/
def read (pump : Pump) (wiring : PumpWiring) (count : Nat) : Option (Pump × PumpWiring) :=
  match pump.phase with
  | .selecting =>
    let bytes := wiring.incoming.held.take count
    if bytes.isEmpty then none
    else some ({ pump with arrived := pump.arrived ++ bytes },
      { wiring with incoming := wiring.incoming.skip count })
  | _ => none

/-- A pump that takes a frame off what has arrived.  A length that is too large ends it. -/
def decode (pump : Pump) (wiring : PumpWiring) : Option (Pump × PumpWiring) :=
  match pump.phase with
  | .selecting =>
    match FrameCodec.standard.decode pump.arrived with
    | (.ok (some frame), arrived) =>
      some ({ pump with phase := .delivering frame, arrived }, wiring)
    | (.ok none, _) => none
    | (.error cause, _) => some (pump.finish (.error cause), wiring)
  | _ => none

/-- A pump whose stream has ended; that is a failure inside a frame. -/
def streamEnd (pump : Pump) (wiring : PumpWiring) : Option (Pump × PumpWiring) :=
  match pump.phase, FrameCodec.standard.decode pump.arrived with
  | .selecting, (.ok none, _) =>
    if wiring.incoming.isClosed && wiring.incoming.held.isEmpty then
      if pump.arrived.isEmpty then some ({ pump with phase := .draining false }, wiring)
      else some (pump.finish (.error .io), wiring)
    else none
  | _, _ => none

/-- A pump that hands a frame to the loop, and stops if there is none. -/
def deliver (pump : Pump) (wiring : PumpWiring) : Option (Pump × PumpWiring) :=
  match pump.phase with
  | .delivering frame =>
    if wiring.sessionGone then some ({ pump with phase := .draining false }, wiring)
    else if wiring.inboxFree then
      some ({ pump with phase := .selecting },
        { wiring with delivered := wiring.delivered ++ [frame], inboxFree := false })
    else none
  | _ => none

/-- A pump that starts to write a frame, in the given phase afterwards. -/
def takeFrame (pump : Pump) (wiring : PumpWiring) (phase : PumpPhase) :
    Option (Pump × PumpWiring) :=
  match wiring.queue with
  | [] => none
  | frame :: queue =>
    match FrameCodec.standard.encode frame pump.unsent with
    | .ok unsent => some ({ pump with phase, unsent }, { wiring with queue })
    | .error cause => some (pump.finish (.error cause), { wiring with queue })

/-- A pump that takes a frame the session has written. -/
def take (pump : Pump) (wiring : PumpWiring) : Option (Pump × PumpWiring) :=
  match pump.phase with
  | .selecting => pump.takeFrame wiring .sending
  | .draining wait => pump.takeFrame wiring (.draining wait)
  | _ => none

/-- The phase after some bytes were written. -/
def phaseAfterWrite (phase : PumpPhase) (unsent : Bytes) : PumpPhase :=
  match phase with
  | .sending => if unsent.isEmpty then .selecting else .sending
  | phase => phase

/-- A pump that writes as much as the stream has room for.  A stream nobody reads ends it. -/
def writeBytes (pump : Pump) (wiring : PumpWiring) (count : Nat) : Option (Pump × PumpWiring) :=
  let count := min count wiring.outgoing.room
  if pump.unsent.isEmpty then none
  else if wiring.outgoing.isBroken then some (pump.finish (.error .io), wiring)
  else if count = 0 then none
  else
    let unsent := pump.unsent.drop count
    some ({ pump with phase := phaseAfterWrite pump.phase unsent, unsent },
      { wiring with outgoing := wiring.outgoing.accept (pump.unsent.take count) })

/-- A pump that writes. -/
def write (pump : Pump) (wiring : PumpWiring) (count : Nat) : Option (Pump × PumpWiring) :=
  match pump.phase with
  | .sending | .draining _ => pump.writeBytes wiring count
  | _ => none

/-- A pump whose session has dropped its transport. -/
def sessionEnd (pump : Pump) (wiring : PumpWiring) : Option (Pump × PumpWiring) :=
  match pump.phase with
  | .selecting =>
    if wiring.sessionGone && wiring.queue.isEmpty then
      some ({ pump with phase := .draining false }, wiring)
    else none
  | _ => none

/-- A pump that was told to shut down. -/
def shutdown (pump : Pump) (wiring : PumpWiring) : Option (Pump × PumpWiring) :=
  match pump.phase with
  | .selecting =>
    if wiring.signalled then some ({ pump with phase := .draining true }, wiring) else none
  | _ => none

/-- A pump that has written everything. -/
def finishDraining (pump : Pump) (wiring : PumpWiring) : Option (Pump × PumpWiring) :=
  match pump.phase with
  | .draining wait =>
    if wiring.queue.isEmpty && pump.unsent.isEmpty && (!wait || wiring.sessionGone) then
      some (pump.finish (.ok ()), wiring)
    else none
  | _ => none

/-- The pump after the given step; none if the step cannot be taken. -/
def step? (pump : Pump) (wiring : PumpWiring) : PumpStep → Option (Pump × PumpWiring)
  | .read count => pump.read wiring count
  | .decode => pump.decode wiring
  | .streamEnd => pump.streamEnd wiring
  | .deliver => pump.deliver wiring
  | .take => pump.take wiring
  | .write count => pump.write wiring count
  | .sessionEnd => pump.sessionEnd wiring
  | .shutdown => pump.shutdown wiring
  | .finish => pump.finishDraining wiring

end Pump

end PathWire

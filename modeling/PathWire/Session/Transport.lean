/-
Transports: where a session's frames go.

A transport takes whole frames in order and never waits.  It may refuse a frame, and may
accept later ones all the same.
-/
import PathWire.Bytes
import PathWire.Session.Error

namespace PathWire

/-- Something that takes frames. -/
class Transport (T : Type) where
  /-- Hands over a frame. -/
  sendRaw : T → Bytes → Except TransportError Unit × T

/-- A transport that keeps every frame. -/
structure FrameList where
  /-- Oldest first. -/
  frames : List Bytes
  deriving DecidableEq, Repr

instance : Transport FrameList where
  sendRaw list frame := (.ok (), ⟨list.frames ++ [frame]⟩)

/-- A channel to someone who takes the frames off its other end. -/
structure FrameChannel where
  /-- The frames not yet taken, oldest first. -/
  frames : List Bytes
  /-- Whether the other end is still there. -/
  isOpen : Bool
  deriving DecidableEq, Repr

namespace FrameChannel

/-- A channel nothing was sent on. -/
def new : FrameChannel := ⟨[], true⟩

/-- The channel after its other end is gone; frames not yet taken are lost. -/
def close (_ : FrameChannel) : FrameChannel := ⟨[], false⟩

end FrameChannel

instance : Transport FrameChannel where
  sendRaw channel frame :=
    if channel.isOpen then (.ok (), { channel with frames := channel.frames ++ [frame] })
    else (.error .closed, channel)

end PathWire

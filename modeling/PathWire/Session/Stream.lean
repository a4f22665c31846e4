/-
A session on a byte stream: a loop and a pump side by side.

The pump holds a handle of the loop and the far end of the session's channel.  When it
ends both are dropped, and so is the stream.
-/
import PathWire.Session.Pump

namespace PathWire

variable {A : Application} {R : Type}

/-- A session's loop, its pump and the stream between the pump and the peer. -/
structure StreamSession (A : Application) (R : Type) where
  loop : SessionLoop A FrameChannel R
  pump : Pump
  /-- What the peer writes. -/
  incoming : Duct
  /-- What the peer reads. -/
  outgoing : Duct
  /-- Whether the pump has a shutdown signal waiting. -/
  signalled : Bool

/-- A step of one of the two. -/
inductive StreamStep where
  | loop (step : LoopStep)
  | pump (step : PumpStep)
  deriving DecidableEq, Repr

namespace StreamSession

/-- What the pump is connected to. -/
def wiring (stream : StreamSession A R) : PumpWiring where
  incoming := stream.incoming
  outgoing := stream.outgoing
  queue := stream.loop.session.transport.frames
  sessionGone := stream.loop.hasEnded
  inboxFree := stream.loop.hasRoom
  signalled := stream.signalled
  delivered := []

/-- The loop with other frames in its session's channel. -/
def withChannel (loop : SessionLoop A FrameChannel R) (channel : FrameChannel) :
    SessionLoop A FrameChannel R :=
  { loop with session := { loop.session with transport := channel } }

/-- The stream session after its pump changed.  A pump that has ended lets go of the loop, the
channel and the stream. -/
def withPump (stream : StreamSession A R) (pump : Pump) (wiring : PumpWiring) :
    StreamSession A R :=
  let inbox := stream.loop.inbox ++ wiring.delivered.map .inbound
  let loop := { stream.loop with inbox }
  let channel := loop.session.transport
  if pump.hasEnded then
    { stream with
      loop := (withChannel loop channel.close).dropHandle
      pump
      incoming := wiring.incoming.breakOff
      outgoing := wiring.outgoing.close }
  else
    { stream with
      loop := withChannel loop { channel with frames := wiring.queue }
      pump
      incoming := wiring.incoming
      outgoing := wiring.outgoing }

/-- The stream session after the given step; none if the step cannot be taken. -/
def step? (env : A.Env) (stream : StreamSession A R) : StreamStep → Option (StreamSession A R)
  | .loop step => (stream.loop.step? env step).map fun loop => { stream with loop }
  | .pump step => (stream.pump.step? stream.wiring step).map fun (pump, wiring) =>
    stream.withPump pump wiring

end StreamSession

end PathWire

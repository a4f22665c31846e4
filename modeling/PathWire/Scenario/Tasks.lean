/-
Scripted tasks on a clock of their own.

A task is a loop, alone or with a pump and a stream of which the script holds the far end.
After each step of the script everything runs until nothing more can happen at that time.
The clock moves in jumps: a task whose timer has fired by then ticks once.
-/
import PathWire.Scenario.Peers

namespace PathWire.Scenario

/-- A loop whose jobs are steps of a script. -/
abbrev ScriptLoop := SessionLoop app FrameChannel Reply

/-- What runs in a task. -/
inductive TaskBody where
  | channel (loop : ScriptLoop)
  | stream (stream : StreamSession app Reply)

/-- A task and the script's side of it. -/
structure Task where
  body : TaskBody
  ticker : Ticker
  /-- Whether the script still has its handle. -/
  hasHandle : Bool

/-- The capacity of a script's streams: a quarter of a mebibyte. -/
def streamCapacity : Nat := Bits.bound 18

/-! ### Running until nothing more can happen -/

/-- The steps a loop takes by itself, in order of preference. -/
def loopOrder : List LoopStep := [.start, .command, .shutdown]

/-- Lets a loop run, for at most `fuel` steps. -/
def settleLoop (names : Names) : (fuel : Nat) → ScriptLoop → ScriptLoop
  | 0, loop => loop
  | fuel + 1, loop =>
    match loopOrder.findSome? (SessionLoop.step? (A := app) names loop) with
    | some loop => settleLoop names fuel loop
    | none => loop

/-- As many steps as a loop can take by itself. -/
def loopFuel (loop : ScriptLoop) : Nat := loop.inbox.length + loopOrder.length

/-- The steps a loop and its pump take by themselves, in order of preference. -/
def streamOrder (stream : StreamSession app Reply) : List StreamStep :=
  [.loop .start, .loop .command,
    .pump .decode, .pump .deliver, .pump (.read stream.incoming.held.length),
    .pump .take, .pump (.write stream.pump.unsent.length),
    .loop .shutdown, .pump .shutdown, .pump .streamEnd, .pump .sessionEnd, .pump .finish]

/-- Lets a loop and its pump run, for at most `fuel` steps. -/
def settleStream (names : Names) :
    (fuel : Nat) → StreamSession app Reply → StreamSession app Reply
  | 0, stream => stream
  | fuel + 1, stream =>
    match (streamOrder stream).findSome? (StreamSession.step? (A := app) names stream) with
    | some stream => settleStream names fuel stream
    | none => stream

/-- As many steps as a loop and its pump can take by themselves once the jobs have run: a few
for each byte that can be part of a frame and for each frame to be written. -/
def streamFuel (stream : StreamSession app Reply) : Nat :=
  4 * (stream.incoming.held.length + stream.pump.arrived.length +
    stream.loop.session.transport.frames.length + stream.loop.inbox.length) + 32

/-- Lets a task run. -/
def TaskBody.settle (names : Names) : TaskBody → TaskBody
  | channel loop => channel (settleLoop names (loopFuel loop) loop)
  | stream s =>
    let s := { s with loop := settleLoop names (loopFuel s.loop) s.loop }
    stream (settleStream names (streamFuel s) s)

/-! ### Steps of a script -/

namespace TaskBody

/-- The task's loop. -/
def loop : TaskBody → ScriptLoop
  | channel loop => loop
  | stream s => s.loop

/-- Changes the task's loop. -/
def mapLoop (change : ScriptLoop → ScriptLoop) : TaskBody → TaskBody
  | channel loop => channel (change loop)
  | stream s => stream { s with loop := change s.loop }

/-- Changes the frames that the task's session has written. -/
def mapChannel (change : FrameChannel → FrameChannel) (body : TaskBody) : TaskBody :=
  body.mapLoop fun loop => StreamSession.withChannel loop (change loop.session.transport)

/-- The number of those who still wait for a shutdown signal. -/
def receivers : TaskBody → Nat
  | channel loop => if loop.hasEnded then 0 else 1
  | stream s => (if s.loop.hasEnded then 0 else 1) + (if s.pump.hasEnded then 0 else 1)

/-- Gives the shutdown signal. -/
def signal : TaskBody → TaskBody
  | channel loop => channel loop.signal
  | stream s => stream { s with loop := s.loop.signal, signalled := true }

end TaskBody

/-- A result with the task it left behind. -/
abbrev OnTask := Reply × Task

namespace Task

/-- Sets up a task on a session at time `now` and lets it start. -/
def spawn (names : Names) (session : Session app FrameChannel) (config : SessionConfig)
    (isStream : Bool) (now : Nat) : Task :=
  let capacity := config.session.commandCapacity
  let body : TaskBody := if isStream then
      .stream ⟨.new session capacity 2, .new, .new streamCapacity, .new streamCapacity, false⟩
    else .channel (.new session capacity 1)
  ⟨body.settle names, .new config.session.tickIntervalMs now, true⟩

/-- The task after something happened to it, with the events that followed. -/
def settled (task : Task) (names : Names) (reply : Reply) : OnTask :=
  let body := task.body.settle names
  let events : List Event := body.loop.events
  ({ reply with events := reply.events ++ events },
    { task with body := body.mapLoop fun loop => { loop with events := [] } })

/-- The task with another body. -/
def withBody (task : Task) (body : TaskBody) : Task := { task with body }

/-- The reply to those who submit to a task that has ended. -/
def stopped : Reply := ⟨.error (.session .stopped), [], .nothing⟩

/-- Submits a command; none if the task has ended or the script has no handle. -/
def submit? (task : Task) (command : Command app FrameChannel Reply) : Option Task :=
  if task.hasHandle then
    (task.body.loop.submit? command).map fun loop => task.withBody (task.body.mapLoop fun _ => loop)
  else none

/-- Takes the answer of the last job. -/
def takeAnswer (task : Task) : Option Reply × Task :=
  (task.body.loop.answers.getLast?,
    task.withBody (task.body.mapLoop fun loop => { loop with answers := [] }))

/-- Runs a step on the task's session. -/
def execute (task : Task) (registry : Registry) (step : SessionStep) : OnTask :=
  match task.submit? (.execute (step.run registry)) with
  | none => (stopped, task)
  | some task =>
    let (followed, task) := task.settled registry.names (.ok .nothing)
    let (answer, task) := task.takeAnswer
    let reply := answer.getD stopped
    ({ reply with events := reply.events ++ followed.events }, task)

/-- Hands a frame to the task's session. -/
def deliver (task : Task) (names : Names) (frame : Bytes) : OnTask :=
  match task.submit? (.inbound frame) with
  | none => (stopped, task)
  | some task => task.settled names (.ok .nothing)

/-- Drops the script's handle. -/
def drop (task : Task) (names : Names) : OnTask :=
  if task.hasHandle then
    settled { task with hasHandle := false, body := task.body.mapLoop (·.dropHandle) } names
      (.ok .nothing)
  else (.ok .nothing, task)

/-- Shuts the task down. -/
def shutdown (task : Task) (names : Names) : OnTask :=
  settled (task.withBody task.body.signal) names (.ok (.count task.body.receivers))

/-- The counters of a task that has ended. -/
def finalStats (task : Task) : Answer :=
  if task.body.loop.hasEnded then .stats task.body.loop.session.stats else .text "running"

/-- Moves a task to time `now`. -/
def advance (task : Task) (names : Names) (now : Nat) : OnTask :=
  if task.body.loop.hasEnded || !task.ticker.isDue now then (.ok .nothing, task)
  else
    let body := task.body.mapLoop fun loop =>
      (SessionLoop.step? (A := app) names loop .tick).getD loop
    settled { task with body, ticker := task.ticker.rearm now } names (.ok .nothing)

/-! ### The far end of a stream -/

/-- Writes to the stream. -/
def write (task : Task) (names : Names) (s : StreamSession app Reply) (bytes : Bytes) : OnTask :=
  if bytes.isEmpty then (.ok (.flag true), task)
  else if s.incoming.isBroken || s.incoming.isClosed then (.ok (.flag false), task)
  else settled (task.withBody (.stream { s with incoming := s.incoming.accept bytes })) names
    (.ok (.flag true))

/-- Reads all that is there. -/
def read (task : Task) (names : Names) (s : StreamSession app Reply) : OnTask :=
  let bytes := s.outgoing.held
  settled (task.withBody (.stream { s with outgoing := s.outgoing.skip bytes.length })) names
    (.ok (.streamed bytes s.outgoing.isClosed))

/-- How the pump ended. -/
def streamResult (s : StreamSession app Reply) : Reply :=
  match s.pump.phase with
  | .ended (.ok ()) => .ok (.text "finished")
  | .ended (.error cause) => ⟨.error (.transport cause), [], .nothing⟩
  | _ => .ok (.text "running")

/-- Runs a step at the far end of a stream. -/
def onStream (task : Task) (names : Names) (s : StreamSession app Reply) : TaskStep → OnTask
  | .write bytes => task.write names s bytes
  | .read => task.read names s
  | .closeStream =>
    settled (task.withBody (.stream { s with incoming := s.incoming.close })) names
      (.ok (.flag true))
  | .dropStream =>
    settled (task.withBody (.stream { s with
      incoming := s.incoming.close, outgoing := s.outgoing.breakOff })) names (.ok .nothing)
  | .streamResult => (streamResult s, task)
  | _ => (.badRequest, task)

end Task

/-- Runs a step on a task. -/
def TaskStep.run (registry : Registry) (task : Task) (step : TaskStep) : OnTask :=
  match step with
  | session step => task.execute registry step
  | deliver bytes => task.deliver registry.names bytes
  | frames =>
    (.ok (.frames task.body.loop.session.transport.frames),
      task.withBody (task.body.mapChannel fun channel => { channel with frames := [] }))
  | close =>
    task.withBody (task.body.mapChannel FrameChannel.close) |>.settled registry.names
      (.ok .nothing)
  | drop => task.drop registry.names
  | isClosed =>
    (.ok (.maybeFlag (if task.hasHandle then some task.body.loop.hasEnded else none)), task)
  | shutdown => task.shutdown registry.names
  | stats => (.ok task.finalStats, task)
  | step =>
    match task.body with
    | .stream s => task.onStream registry.names s step
    | .channel _ => (.badRequest, task)

end PathWire.Scenario

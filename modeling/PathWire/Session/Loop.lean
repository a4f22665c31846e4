/-
The loop that owns a session.

Nothing but the loop touches its session.  It has three inputs, and which of them it takes
next is not determined: its timer, the commands that handles have submitted, and a
shutdown signal.  A loop is therefore a state and a choice of step; every order of steps is
a schedule.  Commands are taken in the order of submission.  Whether it is shut down or all
its handles are gone, a loop that was running flushes the session before it ends.
-/
import PathWire.Session.Basic

namespace PathWire

variable {A : Application} {T R : Type}

/-- What a handle asks of the loop. -/
inductive Command (A : Application) (T R : Type) where
  /-- Run a job on the session and answer. -/
  | execute (job : Session A T → R × Session A T)
  /-- Handle a received frame. -/
  | inbound (frame : Bytes)

/-- How far a loop is. -/
inductive LoopPhase where
  | starting
  | running
  | ended
  deriving DecidableEq, Repr

/-- A session and the loop that owns it. -/
structure SessionLoop (A : Application) (T R : Type) where
  session : Session A T
  phase : LoopPhase
  /-- How many commands may wait. -/
  capacity : Nat
  /-- The commands that wait, oldest first. -/
  inbox : List (Command A T R)
  /-- The number of handles that can still submit commands. -/
  handles : Nat
  /-- Whether a shutdown signal is waiting. -/
  signalled : Bool
  /-- What the jobs run so far answered, oldest first. -/
  answers : List R
  /-- What the application's callbacks reported so far, oldest first. -/
  events : List A.Event

/-- The step a loop takes next. -/
inductive LoopStep where
  | start
  | tick
  | command
  | shutdown
  deriving DecidableEq, Repr

namespace SessionLoop

/-- A loop that has not taken a step. -/
def new (session : Session A T) (capacity handles : Nat) : SessionLoop A T R :=
  ⟨session, .starting, capacity, [], handles, false, [], []⟩

/-- Whether the loop has ended. -/
def hasEnded (loop : SessionLoop A T R) : Bool := loop.phase == .ended

/-- Whether another command may be submitted at once. -/
def hasRoom (loop : SessionLoop A T R) : Bool := loop.inbox.length < loop.capacity

/-- The loop with one more command; none if it has ended. -/
def submit? (loop : SessionLoop A T R) (command : Command A T R) : Option (SessionLoop A T R) :=
  if loop.hasEnded then none else some { loop with inbox := loop.inbox ++ [command] }

/-- The loop with a shutdown signal waiting. -/
def signal (loop : SessionLoop A T R) : SessionLoop A T R := { loop with signalled := true }

/-- The loop with one handle less. -/
def dropHandle (loop : SessionLoop A T R) : SessionLoop A T R :=
  { loop with handles := loop.handles - 1 }

/-- The loop at its end: commands that still wait are never run. -/
def finish (loop : SessionLoop A T R) (session : Session A T) : SessionLoop A T R :=
  { loop with session, phase := .ended, inbox := [] }

section

variable [Transport T]

/-- The loop after an action of its session; one that fails ends the loop without another
flush. -/
def act (loop : SessionLoop A T R) (action : SessionAction A T Unit) : SessionLoop A T R :=
  match action loop.session with
  | .ok () session => { loop with session, phase := .running }
  | .error _ session => loop.finish session

/-- The loop after its last flush, which may fail. -/
def flushAndFinish (loop : SessionLoop A T R) : SessionLoop A T R :=
  match SessionAction.flush loop.session with
  | .ok () session => loop.finish session
  | .error _ session => loop.finish session

/-- The loop after a command. -/
def apply (loop : SessionLoop A T R) (env : A.Env) : Command A T R → SessionLoop A T R
  | .execute job =>
    let (answer, session) := job loop.session
    { loop with session, answers := loop.answers ++ [answer] }
  | .inbound frame =>
    let received := loop.session.receive env frame
    { loop with session := received.session, events := loop.events ++ received.events }

/-- The loop after the given step; none if the step cannot be taken. -/
def step? (env : A.Env) (loop : SessionLoop A T R) : LoopStep → Option (SessionLoop A T R)
  | .start => if loop.phase = .starting then some (loop.act SessionAction.start) else none
  | .tick => if loop.phase = .running then some (loop.act SessionAction.tick) else none
  | .shutdown =>
    if loop.phase = .running ∧ loop.signalled then some loop.flushAndFinish else none
  | .command =>
    if loop.phase = .running then
      match loop.inbox with
      | command :: rest => some ({ loop with inbox := rest }.apply env command)
      | [] => if loop.handles = 0 then some loop.flushAndFinish else none
    else none

end

end SessionLoop

/-! ### The timer -/

/-- A timer that fires at the multiples of its period. -/
structure Ticker where
  period : Nat
  /-- When it fires next. -/
  next : Nat
  deriving DecidableEq, Repr

namespace Ticker

/-- A timer set up at time `now`, which fires first one period later. -/
def new (period now : Nat) : Ticker := ⟨period, now + period⟩

/-- Whether the timer has fired by time `now`. -/
def isDue (ticker : Ticker) (now : Nat) : Bool := ticker.next ≤ now

/-- The timer after it fired at time `now`: missed multiples are skipped. -/
def rearm (ticker : Ticker) (now : Nat) : Ticker :=
  { ticker with next := now + ticker.period - (now - ticker.next) % ticker.period }

end Ticker

end PathWire

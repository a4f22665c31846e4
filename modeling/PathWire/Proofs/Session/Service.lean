/-
What a loop does with the commands that are submitted to it.

Commands come from any number of handles, and between any two of them the loop may tick, run other
commands or be told to shut down.  Whatever the order of these events, each of them is some calls
on the session: a job's own calls, a received frame, a tick, a flush.  So the loop's session is one
on which these calls were made, and all that is known of such sessions is known of the loop.  The
commands that have run and those that wait are together the ones that were submitted, until the loop
ends.
-/
import PathWire.Proofs.Session.Accounts
import PathWire.Session.Loop

namespace PathWire

variable {A : Application} {T R : Type}

open Transport (taking)

/-! ### A session that has written everything -/

theorem Transport.Accepts.taking [Transport T] (h : Transport.Accepts T) (frames : List Bytes) :
    ∀ transport : T, taking transport frames = frames := by
  induction frames with
  | nil => exact fun _ => rfl
  | cons frame rest ih =>
      intro transport
      obtain ⟨after, hafter⟩ := h transport frame
      rw [Transport.taking_ok hafter, ih after]

namespace Session

variable [Transport T]

/-- A session that has written every message that was sent. -/
structure AllWritten (accepted : T → List Bytes) (start final : Session A T)
    (sent : List Outbound) : Prop where
  /-- In the order of sending, and all of it counted. -/
  written : ∃ frames, accepted final.transport = accepted start.transport ++ frames ∧
    frames.flatMap messagesOf = sent.map (·.bytes) ∧
    final.stats.framesSent = frames.length ∧ final.stats.bytesSent = Bytes.total frames
  messagesSent : final.stats.messagesSent = sent.length
  framesDiscarded : final.stats.framesDiscarded = 0
  messagesDiscarded : final.stats.messagesDiscarded = 0
  outbox : final.conn.outbox = []
  pending : final.pending = 0

/-- No frame is discarded if the transport accepts all of them. -/
theorem gather_discarded (h : Transport.Accepts T) (calls : List (SessionCall A)) :
    ∀ session : Session A T, session.gather SessionCall.discarded calls = [] := by
  induction calls with
  | nil => exact fun _ => rfl
  | cons call rest ih =>
      intro session
      rw [gather, ih, List.append_nil, SessionCall.discarded, SessionCall.accepted, h.taking,
        List.drop_length]

theorem allWritten {tree : Tree A} (hshaped : tree.Shaped) (hwrites : tree.WritesOn)
    {accepted : T → List Bytes} (hrecords : Transport.Records accepted)
    (haccepts : Transport.Accepts T) {label : String} {attachment : Option (Value A)}
    {transport : T} {config : SessionConfig} (calls : List (SessionCall A))
    (hcalls : ∀ call ∈ calls, call.WritesOn)
    (hpack : Batcher.Packable config.session.maxFrameBytes
      (((fresh tree label attachment transport config).outgoing calls).map (·.bytes)))
    (hqueue : ((fresh tree label attachment transport config).live calls).batcher.queue = []) :
    (fresh tree label attachment transport config).AllWritten accepted
      ((fresh tree label attachment transport config).live calls)
      ((fresh tree label attachment transport config).outgoing calls) := by
  let start : Session A T := fresh tree label attachment transport config
  have hfresh := traced_fresh accepted tree label attachment transport config
  obtain ⟨posted, frames, hdrained, -, hpasses⟩ :=
    hfresh.live rfl hshaped hwrites hrecords calls hcalls hpack
  have hwhole : frames.flatMap messagesOf = (start.outgoing calls).map (·.bytes) := by
    have hwhole := hpasses.whole.resolve_left (haccepts.unbroken _)
    rwa [hqueue, List.append_nil] at hwhole
  have htallied : start.Tallied calls := live_tallied calls rfl
  obtain ⟨-, haccepted, hframes, hbytes, hlost, hmessages, -⟩ := htallied
  have hgathered : start.gather SessionCall.accepted calls = frames :=
    List.append_cancel_left ((haccepted hrecords).symm.trans hpasses.accepted)
  have hnone := gather_discarded haccepts calls start
  have horderly : Orderly tree config.session.maxFrameBytes start [] [] :=
    ⟨rfl, hfresh.sending, Batcher.sound_new _, rfl, .slnil⟩
  have hcounted := horderly.live calls hshaped hwrites hcalls hpack
  have hpending : (start.live calls).pending = 0 := congrArg List.length hqueue
  have hzero : start.stats = {} ∧ start.pending = 0 := ⟨rfl, rfl⟩
  simp only [hgathered, hnone, hpending, hzero.1, hzero.2, Nat.zero_add, Nat.add_zero,
    List.flatMap_nil, List.length_nil] at hframes hbytes hlost hmessages hcounted
  have hsent : (start.live calls).stats.messagesSent = (start.outgoing calls).length := by
    rw [hcounted, hwhole, List.length_map]
  have hdiscarded : (start.live calls).stats.messagesDiscarded = 0 := by omega
  exact ⟨⟨frames, hpasses.accepted, hwhole, hframes, hbytes⟩, hsent, hlost, hdiscarded, hdrained,
    hpending⟩

end Session

/-! ### What happens to a loop -/

/-- Which calls a job makes on the session that it finds. -/
abbrev Script (A : Application) (T R : Type) :=
  (Session A T → R × Session A T) → Session A T → List (SessionCall A)

/-- A command does what the script says of it. -/
def Command.Follows [Transport T] (script : Script A T R) : Command A T R → Prop
  | execute job => ∀ session, (job session).2 = session.live (script job session) ∧
    ∀ call ∈ script job session, call.WritesOn
  | inbound _ => True

/-- Something that happens to a loop. -/
inductive LoopEvent (A : Application) (T R : Type)
  /-- A command is submitted through a handle. -/
  | submit (command : Command A T R)
  | cloneHandle
  | dropHandle
  | signal
  /-- The loop takes a step. -/
  | step (env : A.Env) (step : LoopStep)

namespace LoopEvent

/-- The command that is submitted. -/
def submitted : LoopEvent A T R → List (Command A T R)
  | submit command => [command]
  | _ => []

/-- The command that is taken off the inbox and runs. -/
def applied (loop : SessionLoop A T R) : LoopEvent A T R → List (Command A T R)
  | step _ .command => loop.inbox.take 1
  | _ => []

/-- The step with which the loop breaks off. -/
def exit (loop : SessionLoop A T R) : LoopEvent A T R → List LoopStep
  | step _ .shutdown => [.shutdown]
  | step _ .command => if loop.inbox.isEmpty then [.command] else []
  | _ => []

/-- The calls that are made on the session. -/
def calls (script : Script A T R) (loop : SessionLoop A T R) :
    LoopEvent A T R → List (SessionCall A)
  | step _ .start => [.start]
  | step _ .tick => [.tick]
  | step _ .shutdown => [.flush]
  | step env .command =>
    match loop.inbox with
    | [] => [.flush]
    | .execute job :: _ => script job loop.session
    | .inbound frame :: _ => [.receive env frame]
  | _ => []

variable [Transport T]

/-- The messages that a job sends. -/
def sent (script : Script A T R) (loop : SessionLoop A T R) : LoopEvent A T R → List Outbound
  | step _ .command =>
    match loop.inbox with
    | .execute job :: _ => loop.session.outgoing (script job loop.session)
    | _ => []
  | _ => []

end LoopEvent

namespace SessionLoop

variable [Transport T]

/-- The loop after something happened; none if it cannot happen. -/
def occur? (loop : SessionLoop A T R) : LoopEvent A T R → Option (SessionLoop A T R)
  | .submit command => if 0 < loop.handles then loop.submit? command else none
  | .cloneHandle => if 0 < loop.handles then some { loop with handles := loop.handles + 1 } else none
  | .dropHandle => if 0 < loop.handles then some loop.dropHandle else none
  | .signal => some loop.signal
  | .step env step => loop.step? env step

/-- The loop after events in this order. -/
def run? (loop : SessionLoop A T R) : List (LoopEvent A T R) → Option (SessionLoop A T R)
  | [] => some loop
  | event :: rest => (loop.occur? event).bind fun next => next.run? rest

/-- What events give, one after the other. -/
def along {α : Type*} (part : SessionLoop A T R → LoopEvent A T R → List α)
    (loop : SessionLoop A T R) : List (LoopEvent A T R) → List α
  | [] => []
  | event :: rest =>
    part loop event ++ ((loop.occur? event).map fun next => next.along part rest).getD []

/-- What a loop that has ended answers. -/
def result? (loop : SessionLoop A T R) : Option SessionStats :=
  if loop.hasEnded then some loop.session.stats else none

end SessionLoop

/-! ### One event -/

namespace SessionLoop

theorem act_session (loop : SessionLoop A T R) (action : SessionAction A T Unit) :
    (loop.act action).session = action.after loop.session := by
  unfold act SessionAction.after
  cases action loop.session <;> rfl

theorem act_ok {loop : SessionLoop A T R} {action : SessionAction A T Unit}
    (h : action.Succeeds loop.session) :
    loop.act action = { loop with session := action.after loop.session, phase := .running } := by
  obtain ⟨⟨⟩, session, hrun⟩ := h
  simp only [act, SessionAction.after, hrun]

variable [Transport T]

theorem flushAndFinish_eq (loop : SessionLoop A T R) :
    loop.flushAndFinish = loop.finish (SessionAction.flush.after loop.session) := by
  unfold flushAndFinish SessionAction.after
  cases SessionAction.flush loop.session <;> rfl

/-- Everything that can happen to a loop. -/
inductive Occurs (loop : SessionLoop A T R) : LoopEvent A T R → SessionLoop A T R → Prop
  | submit (command : Command A T R) (hhandles : 0 < loop.handles)
      (hrunning : loop.hasEnded = false) :
      Occurs loop (.submit command) { loop with inbox := loop.inbox ++ [command] }
  | cloneHandle (hhandles : 0 < loop.handles) :
      Occurs loop .cloneHandle { loop with handles := loop.handles + 1 }
  | dropHandle (hhandles : 0 < loop.handles) :
      Occurs loop .dropHandle { loop with handles := loop.handles - 1 }
  | signal : Occurs loop .signal { loop with signalled := true }
  | start (env : A.Env) (hphase : loop.phase = .starting) :
      Occurs loop (.step env .start) (loop.act SessionAction.start)
  | tick (env : A.Env) (hphase : loop.phase = .running) :
      Occurs loop (.step env .tick) (loop.act SessionAction.tick)
  | execute (env : A.Env) (hphase : loop.phase = .running)
      (job : Session A T → R × Session A T) (rest : List (Command A T R))
      (hinbox : loop.inbox = .execute job :: rest) :
      Occurs loop (.step env .command) { loop with
        inbox := rest
        session := (job loop.session).2
        answers := loop.answers ++ [(job loop.session).1] }
  | inbound (env : A.Env) (hphase : loop.phase = .running) (frame : Bytes)
      (rest : List (Command A T R)) (hinbox : loop.inbox = .inbound frame :: rest) :
      Occurs loop (.step env .command) { loop with
        inbox := rest
        session := (loop.session.receive env frame).session
        events := loop.events ++ (loop.session.receive env frame).events }
  | leave (env : A.Env) (hphase : loop.phase = .running) (hinbox : loop.inbox = [])
      (hhandles : loop.handles = 0) :
      Occurs loop (.step env .command) (loop.finish (SessionAction.flush.after loop.session))
  | shutdown (env : A.Env) (hphase : loop.phase = .running) (hsignalled : loop.signalled = true) :
      Occurs loop (.step env .shutdown) (loop.finish (SessionAction.flush.after loop.session))

variable {script : Script A T R} {loop next : SessionLoop A T R} {event : LoopEvent A T R}

theorem occurs_of_step {env : A.Env} {step : LoopStep} (h : loop.step? env step = some next) :
    loop.Occurs (.step env step) next := by
  cases step with
  | start =>
      obtain ⟨hphase, hnext⟩ := Option.ite_none_right_eq_some.mp h
      exact Option.some.inj hnext ▸ .start env hphase
  | tick =>
      obtain ⟨hphase, hnext⟩ := Option.ite_none_right_eq_some.mp h
      exact Option.some.inj hnext ▸ .tick env hphase
  | shutdown =>
      obtain ⟨⟨hphase, hsignalled⟩, hnext⟩ := Option.ite_none_right_eq_some.mp h
      rw [flushAndFinish_eq] at hnext
      exact Option.some.inj hnext ▸ .shutdown env hphase hsignalled
  | command =>
      obtain ⟨hphase, hnext⟩ := Option.ite_none_right_eq_some.mp h
      rcases hinbox : loop.inbox with _ | ⟨job | frame, rest⟩ <;> rw [hinbox] at hnext
      · obtain ⟨hhandles, hnext⟩ := Option.ite_none_right_eq_some.mp hnext
        rw [flushAndFinish_eq] at hnext
        exact Option.some.inj hnext ▸ .leave env hphase hinbox hhandles
      · exact Option.some.inj hnext ▸ .execute env hphase job rest hinbox
      · exact Option.some.inj hnext ▸ .inbound env hphase frame rest hinbox

theorem occurs (h : loop.occur? event = some next) : loop.Occurs event next := by
  cases event with
  | submit command =>
      obtain ⟨hhandles, hnext⟩ := Option.ite_none_right_eq_some.mp h
      cases hended : loop.hasEnded with
      | true => simp [submit?, hended] at hnext
      | false =>
          simp only [submit?, hended] at hnext
          exact Option.some.inj hnext ▸ .submit command hhandles hended
  | cloneHandle =>
      obtain ⟨hhandles, hnext⟩ := Option.ite_none_right_eq_some.mp h
      exact Option.some.inj hnext ▸ .cloneHandle hhandles
  | dropHandle =>
      obtain ⟨hhandles, hnext⟩ := Option.ite_none_right_eq_some.mp h
      exact Option.some.inj hnext ▸ .dropHandle hhandles
  | signal => exact Option.some.inj h ▸ .signal
  | step env step => exact occurs_of_step h

/-- **An event is some calls on the session.** -/
theorem Occurs.session (h : loop.Occurs event next)
    (hfollows : ∀ command ∈ event.applied loop, command.Follows script) :
    next.session = loop.session.live (event.calls script loop) := by
  cases h with
  | submit | cloneHandle | dropHandle | signal => rfl
  | start | tick => exact act_session loop _
  | leave env hphase hinbox hhandles =>
      simp only [LoopEvent.calls, hinbox]
      rfl
  | shutdown => rfl
  | execute env hphase job rest hinbox =>
      have hjob : (Command.execute job).Follows script :=
        hfollows _ (by simp [LoopEvent.applied, hinbox])
      simp only [LoopEvent.calls, hinbox]
      exact (hjob loop.session).1
  | inbound env hphase frame rest hinbox =>
      simp only [LoopEvent.calls, hinbox]
      rfl

/-- **The messages that the connection queues are those that jobs send.** -/
theorem outgoing_calls (hdrained : loop.session.conn.outbox = []) (event : LoopEvent A T R) :
    loop.session.outgoing (event.calls script loop) = event.sent script loop := by
  have hidle : ∀ call : SessionCall A, (call.connected loop.session).outbox = [] →
      loop.session.outgoing [call] = [] := fun call hcall =>
    (List.append_nil _).trans hcall
  cases event with
  | submit | cloneHandle | dropHandle | signal => rfl
  | step env step =>
      cases step with
      | start => exact hidle .start hdrained
      | tick => exact hidle .tick hdrained
      | shutdown => exact hidle .flush hdrained
      | command =>
          unfold LoopEvent.calls LoopEvent.sent
          rcases hinbox : loop.inbox with _ | ⟨job | frame, rest⟩
          · exact hidle .flush hdrained
          · rfl
          · refine hidle (.receive env frame) ?_
            obtain ⟨-, -, incoming, caches, hconn⟩ := loop.session.receive_stays env frame
            show (loop.session.receive env frame).session.conn.outbox = []
            rw [hconn]
            exact hdrained

/-! ### Commands in order -/

/-- A loop to which commands were submitted, of which some have run. -/
inductive Serves (loop : SessionLoop A T R) (submitted : List (Command A T R)) :
    List (Command A T R) → List LoopStep → Prop
  /-- The others wait. -/
  | running {applied : List (Command A T R)} (hended : loop.hasEnded = false)
      (hall : applied ++ loop.inbox = submitted) : Serves loop submitted applied []
  | shutDown {applied : List (Command A T R)} (hended : loop.hasEnded = true)
      (hsignalled : loop.signalled = true) (horder : applied <+: submitted) :
      Serves loop submitted applied [.shutdown]
  /-- Nobody was left to submit anything. -/
  | left (hended : loop.hasEnded = true) (hhandles : loop.handles = 0) :
      Serves loop submitted submitted [.command]

variable {submitted applied : List (Command A T R)} {exits : List LoopStep}

omit [Transport T] in
theorem hasEnded_of_phase {phase : LoopPhase} (h : loop.phase = phase)
    (hphase : phase ≠ .ended) : loop.hasEnded = false := by
  unfold hasEnded
  rw [h]
  exact beq_false_of_ne hphase

omit [Transport T] in
theorem Serves.all (h : loop.Serves submitted applied exits) (hended : loop.hasEnded = false) :
    exits = [] ∧ applied ++ loop.inbox = submitted := by
  cases h with
  | running _ hall => exact ⟨rfl, hall⟩
  | shutDown hover | left hover => cases hended.symm.trans hover

/-- **An event keeps the commands in order**, if the first step and a tick do not fail. -/
theorem Serves.occur (h : loop.Serves submitted applied exits) (hoccurs : loop.Occurs event next)
    (hstart : (SessionAction.start : SessionAction A T Unit).Succeeds loop.session)
    (htick : (SessionAction.tick : SessionAction A T Unit).Succeeds loop.session) :
    next.Serves (submitted ++ event.submitted) (applied ++ event.applied loop)
      (exits ++ event.exit loop) := by
  have hrunning : loop.phase = .running → loop.hasEnded = false := fun hphase =>
    hasEnded_of_phase hphase (by decide)
  cases hoccurs with
  | submit command hhandles hended =>
      obtain ⟨rfl, rfl⟩ := h.all hended
      refine .running hended ?_
      simp [LoopEvent.submitted, LoopEvent.applied]
  | cloneHandle hhandles =>
      simp only [LoopEvent.submitted, LoopEvent.applied, LoopEvent.exit, List.append_nil]
      cases h with
      | running hended hall => exact .running hended hall
      | shutDown hended hsignalled horder => exact .shutDown hended hsignalled horder
      | left _ hnone => exact absurd hhandles (hnone ▸ Nat.lt_irrefl 0)
  | dropHandle hhandles =>
      simp only [LoopEvent.submitted, LoopEvent.applied, LoopEvent.exit, List.append_nil]
      cases h with
      | running hended hall => exact .running hended hall
      | shutDown hended hsignalled horder => exact .shutDown hended hsignalled horder
      | left _ hnone => exact absurd hhandles (hnone ▸ Nat.lt_irrefl 0)
  | signal =>
      simp only [LoopEvent.submitted, LoopEvent.applied, LoopEvent.exit, List.append_nil]
      cases h with
      | running hended hall => exact .running hended hall
      | shutDown hended _ horder => exact .shutDown hended rfl horder
      | left hended hnone => exact .left hended hnone
  | start env hphase =>
      obtain ⟨rfl, rfl⟩ := h.all (hasEnded_of_phase hphase (by decide))
      rw [act_ok hstart]
      refine .running rfl ?_
      simp [LoopEvent.submitted, LoopEvent.applied]
  | tick env hphase =>
      obtain ⟨rfl, rfl⟩ := h.all (hrunning hphase)
      rw [act_ok htick]
      refine .running rfl ?_
      simp [LoopEvent.submitted, LoopEvent.applied]
  | execute env hphase job rest hinbox =>
      obtain ⟨rfl, rfl⟩ := h.all (hrunning hphase)
      simp only [LoopEvent.submitted, LoopEvent.applied, LoopEvent.exit, hinbox, List.append_nil]
      exact .running (hrunning hphase) (by simp)
  | inbound env hphase frame rest hinbox =>
      obtain ⟨rfl, rfl⟩ := h.all (hrunning hphase)
      simp only [LoopEvent.submitted, LoopEvent.applied, LoopEvent.exit, hinbox, List.append_nil]
      exact .running (hrunning hphase) (by simp)
  | leave env hphase hinbox hhandles =>
      obtain ⟨rfl, rfl⟩ := h.all (hrunning hphase)
      simp only [LoopEvent.submitted, LoopEvent.applied, LoopEvent.exit, hinbox, List.append_nil,
        List.take_nil, List.isEmpty_nil, if_true, List.nil_append]
      have hended : (loop.finish (SessionAction.flush.after loop.session)).hasEnded = true := rfl
      exact .left hended hhandles
  | shutdown env hphase hsignalled =>
      obtain ⟨rfl, rfl⟩ := h.all (hrunning hphase)
      simp only [LoopEvent.submitted, LoopEvent.applied, LoopEvent.exit, List.append_nil]
      exact .shutDown rfl hsignalled (List.prefix_append _ _)

/-! ### Messages -/

theorem calls_writesOn (event : LoopEvent A T R)
    (hfollows : ∀ command ∈ event.applied loop, command.Follows script) :
    ∀ call ∈ event.calls script loop, call.WritesOn := by
  cases event with
  | submit | cloneHandle | dropHandle | signal => exact List.forall_mem_nil _
  | step env step =>
      cases step with
      | start | tick | shutdown => exact List.forall_mem_singleton.mpr trivial
      | command =>
          unfold LoopEvent.calls
          rcases hinbox : loop.inbox with _ | ⟨job | frame, rest⟩
          · exact List.forall_mem_singleton.mpr trivial
          · have hjob : (Command.execute job).Follows script :=
              hfollows _ (by simp [LoopEvent.applied, hinbox])
            exact (hjob loop.session).2
          · exact List.forall_mem_singleton.mpr trivial

variable {accepted : T → List Bytes} {tree : Tree A} {start : Session A T} {sent : List Outbound}

/-- A loop whose jobs have sent these messages. -/
structure Keeps (accepted : T → List Bytes) (tree : Tree A) (start : Session A T)
    (loop : SessionLoop A T R) (sent : List Outbound) : Prop where
  traced : ∃ posted frames, Session.Traced accepted tree start loop.session sent posted frames
  settled : loop.hasEnded = true → loop.session.batcher.queue = []

theorem Keeps.drained (h : loop.Keeps accepted tree start sent) :
    loop.session.conn.outbox = [] := by
  obtain ⟨posted, frames, htraced⟩ := h.traced
  exact htraced.drained

/-- A session that takes nothing over is ready for it. -/
theorem Keeps.ready (h : loop.Keeps accepted tree start sent) (hstart : start.batcher.queue = [])
    (hpack : Batcher.Packable start.batcher.maxFrameBytes (sent.map (·.bytes))) :
    loop.session.Ready [] := by
  obtain ⟨posted, frames, hdrained, hsending, hpasses⟩ := h.traced
  have hbehind := (List.sublist_append_right _ _).trans hpasses.behind
  rw [hstart, List.nil_append] at hbehind
  have hsame : sent ++ loop.session.conn.outbox = sent := by rw [hdrained, List.append_nil]
  have hready := hsending.ready hpasses.sound hbehind
    (hpasses.limit ▸ hsame.symm ▸ hpack)
  rwa [hdrained] at hready

theorem flush_queue (session : Session A T) :
    (SessionAction.flush.after session).batcher.queue = [] := by
  have hempty : session.batcher.flush.2.queue = [] := rfl
  rw [SessionAction.flush_shipped]
  show session.batcher.drawFlush.batcher.queue = []
  unfold Batcher.drawFlush
  split <;> rename_i hflush <;> rwa [hflush] at hempty

/-- The first step and a tick succeed if the transport accepts every frame. -/
theorem Keeps.succeeds (h : loop.Keeps accepted tree start sent)
    (hstart : start.batcher.queue = []) (hrecords : Transport.Records accepted)
    (haccepts : Transport.Accepts T)
    (hpack : Batcher.Packable start.batcher.maxFrameBytes (sent.map (·.bytes))) :
    (SessionAction.start : SessionAction A T Unit).Succeeds loop.session ∧
      (SessionAction.tick : SessionAction A T Unit).Succeeds loop.session := by
  have hready := h.ready hstart hpack
  exact ⟨(Session.start_takes hrecords hready.sound).succeeds.resolve_left (haccepts.unbroken _),
    (Session.tick_takes hrecords hready).succeeds.resolve_left (haccepts.unbroken _)⟩

/-- A loop that an event ends has flushed its session. -/
theorem Occurs.settled (hoccurs : loop.Occurs event next)
    (hstart : (SessionAction.start : SessionAction A T Unit).Succeeds loop.session)
    (htick : (SessionAction.tick : SessionAction A T Unit).Succeeds loop.session)
    (hsettled : loop.hasEnded = true → loop.session.batcher.queue = [])
    (hended : next.hasEnded = true) : next.session.batcher.queue = [] := by
  cases hoccurs with
  | submit | cloneHandle | dropHandle | signal => exact hsettled hended
  | start env hphase =>
      rw [act_ok hstart] at hended
      cases hended
  | tick env hphase =>
      rw [act_ok htick] at hended
      cases hended
  | execute env hphase | inbound env hphase =>
      have hrunning : loop.hasEnded = false := hasEnded_of_phase hphase (by decide)
      cases hrunning.symm.trans hended
  | leave | shutdown => exact flush_queue loop.session

/-- **An event keeps what jobs have sent.** -/
theorem Keeps.occur (h : loop.Keeps accepted tree start sent) (hoccurs : loop.Occurs event next)
    (hstart : start.batcher.queue = []) (hshaped : tree.Shaped) (hwrites : tree.WritesOn)
    (hrecords : Transport.Records accepted) (haccepts : Transport.Accepts T)
    (hfollows : ∀ command ∈ event.applied loop, command.Follows script)
    (hpack : Batcher.Packable start.batcher.maxFrameBytes
      ((sent ++ event.sent script loop).map (·.bytes))) :
    next.Keeps accepted tree start (sent ++ event.sent script loop) := by
  have hbefore := hpack.sublist ((List.sublist_append_left _ _).map _)
  obtain ⟨hfirst, htick⟩ := h.succeeds hstart hrecords haccepts hbefore
  obtain ⟨⟨posted, frames, htraced⟩, hsettled⟩ := h
  have hsent : loop.session.outgoing (event.calls script loop) = event.sent script loop :=
    outgoing_calls htraced.drained event
  rw [← hsent] at hpack ⊢
  refine ⟨?_, hoccurs.settled hfirst htick hsettled⟩
  rw [hoccurs.session hfollows]
  exact htraced.live hstart hshaped hwrites hrecords _ (calls_writesOn event hfollows) hpack

/-! ### All events -/

omit [Transport T] in
theorem Serves.order (h : loop.Serves submitted applied exits) : applied <+: submitted := by
  cases h with
  | running _ hall => exact ⟨_, hall⟩
  | shutDown _ _ horder => exact horder
  | left => exact List.prefix_rfl

theorem along_cons {α : Type*} (part : SessionLoop A T R → LoopEvent A T R → List α)
    (h : loop.occur? event = some next) (rest : List (LoopEvent A T R)) :
    loop.along part (event :: rest) = part loop event ++ next.along part rest := by
  simp only [along, h, Option.map_some, Option.getD_some]

/-- Events are these calls on the session. -/
structure Makes (script : Script A T R) (loop : SessionLoop A T R)
    (events : List (LoopEvent A T R)) (final : SessionLoop A T R) : Prop where
  session : final.session = loop.session.live (loop.along (LoopEvent.calls script) events)
  writesOn : ∀ call ∈ loop.along (LoopEvent.calls script) events, call.WritesOn
  outgoing : loop.session.outgoing (loop.along (LoopEvent.calls script) events)
    = loop.along (LoopEvent.sent script) events

/-- **Any number of events** keeps the commands in order and what jobs have sent, and is some calls
on the session. -/
theorem run_serves (hstart : start.batcher.queue = []) (hshaped : tree.Shaped)
    (hwrites : tree.WritesOn) (hrecords : Transport.Records accepted)
    (haccepts : Transport.Accepts T) {final : SessionLoop A T R}
    (events : List (LoopEvent A T R)) : ∀ {loop : SessionLoop A T R}
      {submitted applied : List (Command A T R)} {exits : List LoopStep} {sent : List Outbound},
      loop.run? events = some final → loop.Serves submitted applied exits →
      loop.Keeps accepted tree start sent →
      (∀ command ∈ submitted ++ events.flatMap LoopEvent.submitted, command.Follows script) →
      Batcher.Packable start.batcher.maxFrameBytes
        ((sent ++ loop.along (LoopEvent.sent script) events).map (·.bytes)) →
      final.Serves (submitted ++ events.flatMap LoopEvent.submitted)
          (applied ++ loop.along LoopEvent.applied events)
          (exits ++ loop.along LoopEvent.exit events) ∧
        final.Keeps accepted tree start (sent ++ loop.along (LoopEvent.sent script) events) ∧
        Makes script loop events final := by
  induction events with
  | nil =>
      intro loop submitted applied exits sent hrun hserves hkeeps _ _
      cases hrun
      simp only [along, List.flatMap_nil, List.append_nil]
      exact ⟨hserves, hkeeps, rfl, nofun, rfl⟩
  | cons event rest ih =>
      intro loop submitted applied exits sent hrun hserves hkeeps hfollows hpack
      obtain ⟨next, hoccur, hrest⟩ := Option.bind_eq_some_iff.mp hrun
      have hoccurs := occurs hoccur
      simp only [along_cons _ hoccur, List.flatMap_cons, ← List.append_assoc] at hfollows hpack ⊢
      have hfirst := hpack.sublist ((List.sublist_append_left _ _).map _)
      have hbefore := hfirst.sublist ((List.sublist_append_left _ _).map _)
      obtain ⟨hbegins, hticks⟩ := hkeeps.succeeds hstart hrecords haccepts hbefore
      have hserves := hserves.occur hoccurs hbegins hticks
      have hevent : ∀ command ∈ event.applied loop, command.Follows script :=
        fun command hmem => hfollows command (List.mem_append_left _
          (hserves.order.subset (List.mem_append_right _ hmem)))
      have hsent : loop.session.outgoing (event.calls script loop) = event.sent script loop :=
        outgoing_calls hkeeps.drained event
      have hkeeps := hkeeps.occur hoccurs hstart hshaped hwrites hrecords haccepts hevent hfirst
      obtain ⟨hserves, hkeeps, hlive, hwriteOn, houtgoing⟩ :=
        ih hrest hserves hkeeps hfollows hpack
      have hnext := hoccurs.session hevent
      refine ⟨hserves, hkeeps, ?_, ?_, ?_⟩ <;> rw [along_cons _ hoccur]
      · rw [hlive, hnext]
        exact (List.foldl_append ..).symm
      · exact List.forall_mem_append.mpr ⟨calls_writesOn event hevent, hwriteOn⟩
      · rw [Session.outgoing_append, hsent, ← hnext, houtgoing, along_cons _ hoccur]

/-- What becomes of the commands that are submitted to a loop. -/
structure Served (accepted : T → List Bytes) (script : Script A T R) (start : SessionLoop A T R)
    (events : List (LoopEvent A T R)) (final : SessionLoop A T R) : Prop where
  /-- Commands run in the order in which they were submitted, each at most once. -/
  order : start.along LoopEvent.applied events <+: events.flatMap LoopEvent.submitted
  /-- All of them have run or wait, unless the loop was shut down. -/
  serves : final.Serves (events.flatMap LoopEvent.submitted)
    (start.along LoopEvent.applied events) (start.along LoopEvent.exit events)
  session : final.session = start.session.live (start.along (LoopEvent.calls script) events)
  /-- However the loop ends, it leaves nothing behind. -/
  written : final.hasEnded = true → Session.AllWritten accepted start.session final.session
    (start.along (LoopEvent.sent script) events)
  result : final.hasEnded = true → final.result? = some final.session.stats

end SessionLoop

/-- **Commands run in order, and a loop that ends has written all that its jobs have sent**,
whatever the order of ticks, commands and shutdown, if its transport accepts every frame. -/
theorem loop_serves [Transport T] {revision : Revision}
    {allowed : List (Handle A) → BuilderCall A → Prop} {builder : TreeBuilder A}
    {declared : List (Handle A)} (hbuilt : Built revision allowed builder declared)
    (hwrites : builder.build.WritesOn) {accepted : T → List Bytes}
    (hrecords : Transport.Records accepted) (haccepts : Transport.Accepts T) (label : String)
    (attachment : Option (Value A)) (transport : T) (config : SessionConfig)
    (capacity handles : Nat) (script : Script A T R) (events : List (LoopEvent A T R))
    {final : SessionLoop A T R}
    (hrun : (SessionLoop.new (.fresh builder.build label attachment transport config) capacity
      handles).run? events = some final)
    (hfollows : ∀ command ∈ events.flatMap LoopEvent.submitted, command.Follows script)
    (hpack : Batcher.Packable config.session.maxFrameBytes
      (((SessionLoop.new (.fresh builder.build label attachment transport config) capacity
        handles).along (LoopEvent.sent script) events).map (·.bytes))) :
    SessionLoop.Served accepted script
      (.new (.fresh builder.build label attachment transport config) capacity handles) events
      final := by
  let start : Session A T := .fresh builder.build label attachment transport config
  let loop : SessionLoop A T R := .new start capacity handles
  have hserves : loop.Serves [] [] [] := .running rfl rfl
  have hkeeps : loop.Keeps accepted builder.build start [] :=
    ⟨⟨[], [], Session.traced_fresh accepted builder.build label attachment transport config⟩, nofun⟩
  obtain ⟨hserves, hkeeps, hmakes⟩ := SessionLoop.run_serves rfl hbuilt.shaped hwrites hrecords
    haccepts events hrun hserves hkeeps hfollows hpack
  simp only [List.nil_append] at hserves hkeeps
  refine ⟨hserves.order, hserves, hmakes.session, fun hended => ?_, fun hended => if_pos hended⟩
  obtain ⟨hlive, hwriteOn, houtgoing⟩ := hmakes
  have hqueue := hkeeps.settled hended
  have hall : start.AllWritten accepted
      (start.live (loop.along (LoopEvent.calls script) events)) _ :=
    Session.allWritten hbuilt.shaped hwrites hrecords haccepts _ hwriteOn (houtgoing ▸ hpack)
      (hlive ▸ hqueue)
  rw [hlive, ← houtgoing]
  exact hall

/-! A loop that greets, and ends when its only handle is dropped. -/

/-- A greeting from the seat whose number is that of the messages so far. -/
def greetNext (session : Session Scenario.app FrameList) : List (SessionCall Scenario.app) :=
  [greetFrom (Int64.ofNat session.stats.messagesSent) .normal]

def greetNextJob (session : Session Scenario.app FrameList) :
    Nat × Session Scenario.app FrameList :=
  (session.pending, session.live (greetNext session))

def greeterLoop : SessionLoop Scenario.app FrameList Nat := .new greeter 256 1

/-- The second greeting is still in the inbox when the last handle goes. -/
def greeterDay : List (LoopEvent Scenario.app FrameList Nat) :=
  [.submit (.execute greetNextJob), .step ({} : Scenario.Names) .start,
    .step ({} : Scenario.Names) .command, .submit (.inbound [0]), .step ({} : Scenario.Names) .tick,
    .submit (.execute greetNextJob), .dropHandle, .step ({} : Scenario.Names) .command,
    .step ({} : Scenario.Names) .command, .step ({} : Scenario.Names) .command]

/-- The loop serves the whole day, and both greetings are written behind their announcement. -/
theorem greeterDay_served : ∃ final, greeterLoop.run? greeterDay = some final ∧
    SessionLoop.Served FrameList.frames (fun _ => greetNext) greeterLoop greeterDay final ∧
    final.hasEnded = true ∧ (final.session.transport.frames.flatMap Session.messagesOf).drop 1
      = [[0, 0, 0, 3, 0], [0, 0, 0, 3, 2]] := by
  have hfinal : (greeterLoop.run? greeterDay).map (fun final => (final.hasEnded,
      (final.session.transport.frames.flatMap Session.messagesOf).drop 1))
      = some (true, [[0, 0, 0, 3, 0], [0, 0, 0, 3, 2]]) := by decide +kernel
  obtain ⟨final, hrun, hleft⟩ := Option.map_eq_some_iff.mp hfinal
  obtain ⟨hended, hframes⟩ := Prod.mk.inj hleft
  have hjob : (Command.execute greetNextJob).Follows fun _ => greetNext := fun session =>
    ⟨rfl, List.forall_mem_singleton.mpr Payload.nothing_writesOn⟩
  refine ⟨final, hrun, ?_, hended, hframes⟩
  refine loop_serves seatBuilder_built seatTree_writesOn FrameList.records FrameList.accepts "peer"
    none ⟨[]⟩ {} 256 1 (fun _ => greetNext) greeterDay hrun ?_ (.of_limit (by decide) _)
  simp only [greeterDay, LoopEvent.submitted, List.flatMap_cons, List.flatMap_nil,
    List.cons_append, List.nil_append, List.append_nil, List.forall_mem_cons]
  exact ⟨hjob, trivial, hjob, List.forall_mem_nil _⟩

/-! A job whose greeting the last flush cannot put into a frame. -/

def blockJob (data : Bytes) (session : Session Scenario.app FrameList) :
    Nat × Session Scenario.app FrameList :=
  (session.pending, session.live [greetBlock data])

def vastLoop : SessionLoop Scenario.app FrameList Nat := .new vastGreeter 256 1

/-- The loop is told to shut down when the job has run. -/
def blockDay (data : Bytes) : List (LoopEvent Scenario.app FrameList Nat) :=
  [.submit (.execute (blockJob data)), .step ({} : Scenario.Names) .start,
    .step ({} : Scenario.Names) .command, .signal, .step ({} : Scenario.Names) .shutdown]

theorem blockDay_run {data : Bytes} (h : data.length ≤ maxLengthField) : ∃ final,
    vastLoop.run? (blockDay data) = some final ∧ final.hasEnded = true ∧
      final.session = vastGreeter.live (blockGreetings data) ∧
      (vastLoop.along (LoopEvent.sent fun _ _ => [greetBlock data]) (blockDay data)).length
        = 2 := by
  obtain ⟨conn, hconnected, houtbox, -⟩ := greetBlock_perform h (vastGreeter.perform .start) rfl
  refine ⟨_, rfl, ?_, ?_, ?_⟩
  · rw [SessionLoop.flushAndFinish_eq]
    rfl
  · rw [SessionLoop.flushAndFinish_eq]
    rfl
  · show (((greetBlock data).connected (vastGreeter.perform .start)).outbox ++ [] ++ []).length = 2
    rw [hconnected, houtbox]
    rfl

/-- The loop has ended, and what its only job has sent is not written. -/
theorem blockDay_not_served : ∃ final, vastLoop.run? (blockDay vastBlock) = some final ∧
    final.hasEnded = true ∧ final.session.transport.frames = [[0, 0, 0, 2, 128, 128, 64]] ∧
    (∀ command ∈ (blockDay vastBlock).flatMap LoopEvent.submitted,
      command.Follows fun _ _ => [greetBlock vastBlock]) ∧
    ¬ SessionLoop.Served FrameList.frames (fun _ _ => [greetBlock vastBlock]) vastLoop
      (blockDay vastBlock) final := by
  have hvast : vastBlock.length = 4294967295 := List.length_replicate
  obtain ⟨hwritten, -⟩ := blockGreetings_lost hvast
  obtain ⟨final, hrun, hended, hsession, hsent⟩ := blockDay_run (by rw [hvast]; decide)
  rw [← hsession] at hwritten
  have hjob : (Command.execute (blockJob vastBlock)).Follows fun _ _ => [greetBlock vastBlock] :=
    fun session => ⟨rfl, List.forall_mem_singleton.mpr (Payload.block_writesOn vastBlock)⟩
  refine ⟨final, hrun, hended, hwritten, List.forall_mem_singleton.mpr hjob, fun hserved => ?_⟩
  obtain ⟨frames, hframes, hmessages, -⟩ := (hserved.written hended).written
  obtain rfl : frames = [[0, 0, 0, 2, 128, 128, 64]] := hframes.symm.trans hwritten
  have hadvert : Session.messagesOf [0, 0, 0, 2, 128, 128, 64] = [] := by decide +kernel
  have hnone := congrArg List.length hmessages
  simp [hadvert, hsent] at hnone

end PathWire

/-
The counters add up.

Frames leave the batcher one after the other, and the transport takes them up to the first that it
refuses; the others of that call are lost.  `Batcher.draw` says this without a counter: which frames
are taken from the batcher while messages are pushed, and how many messages get as far as that.
Every call of a session is one such drawing, and its counters say how it went.  So at any time each
frame was either sent or discarded, and each message is in a frame, in the queue, or was never
pushed.  Only the messages of a flush that fails are in none of these places.
-/
import PathWire.Proofs.Session.Loss

namespace PathWire

variable {A : Application} {T : Type} {α β : Type}

/-! ### Frames that are handed over -/

namespace Transport

variable [Transport T] {transport next : T} {frame : Bytes} {first frames : List Bytes}

/-- The frames that a transport takes, one after the other, up to the first that it refuses. -/
def taking (transport : T) : List Bytes → List Bytes
  | [] => []
  | frame :: rest =>
    match sendRaw transport frame with
    | (.ok (), next) => frame :: taking next rest
    | (.error _, _) => []

/-- The transport after frames were handed to it, up to the first that it refused. -/
def handed (transport : T) : List Bytes → T
  | [] => transport
  | frame :: rest =>
    match sendRaw transport frame with
    | (.ok (), next) => handed next rest
    | (.error _, next) => next

theorem taking_ok (h : sendRaw transport frame = (.ok (), next)) :
    taking transport (frame :: frames) = frame :: taking next frames := by
  simp only [taking, h]

theorem taking_error {cause : TransportError}
    (h : sendRaw transport frame = (.error cause, next)) :
    taking transport (frame :: frames) = [] := by
  simp only [taking, h]

theorem handed_ok (h : sendRaw transport frame = (.ok (), next)) :
    handed transport (frame :: frames) = handed next frames := by
  simp only [handed, h]

theorem handed_error {cause : TransportError}
    (h : sendRaw transport frame = (.error cause, next)) :
    handed transport (frame :: frames) = next := by
  simp only [handed, h]

theorem taking_prefix (frames : List Bytes) :
    ∀ transport : T, taking transport frames <+: frames := by
  induction frames with
  | nil => exact fun _ => List.nil_prefix
  | cons frame rest ih =>
      intro transport
      rcases hsend : sendRaw transport frame with ⟨cause | ⟨⟩, next⟩
      · rw [taking_error hsend]
        exact List.nil_prefix
      · rw [taking_ok hsend]
        exact (List.prefix_cons_inj frame).mpr (ih next)

/-- Frames behind others that were all taken. -/
theorem taking_append (rest : List Bytes) : ∀ {transport : T}, taking transport first = first →
    taking transport (first ++ rest) = first ++ taking (handed transport first) rest ∧
      handed transport (first ++ rest) = handed (handed transport first) rest := by
  induction first with
  | nil => exact fun _ => ⟨rfl, rfl⟩
  | cons frame first ih =>
      intro transport h
      rcases hsend : sendRaw transport frame with ⟨cause | ⟨⟩, next⟩
      · rw [taking_error hsend] at h
        cases h
      · rw [taking_ok hsend] at h
        obtain ⟨htaking, hhanded⟩ := ih (List.cons.inj h).2
        rw [List.cons_append, taking_ok hsend, handed_ok hsend, handed_ok hsend, htaking, hhanded]
        exact ⟨rfl, rfl⟩

theorem Records.handed {accepted : T → List Bytes} (h : Records accepted) (frames : List Bytes) :
    ∀ transport : T, accepted (Transport.handed transport frames)
      = accepted transport ++ taking transport frames := by
  induction frames with
  | nil => exact fun _ => (List.append_nil _).symm
  | cons frame rest ih =>
      intro transport
      rcases hsend : sendRaw transport frame with ⟨cause | ⟨⟩, next⟩
      · rw [taking_error hsend, handed_error hsend, h.error hsend, List.append_nil]
      · rw [taking_ok hsend, handed_ok hsend, ih next, h.ok hsend, List.append_assoc]
        rfl

end Transport

open Transport (taking handed)

/-- The number of bytes in frames. -/
def Bytes.total (frames : List Bytes) : Nat := (frames.map List.length).sum

theorem Bytes.total_append (first rest : List Bytes) :
    total (first ++ rest) = total first + total rest := by
  simp [total]

/-- What was taken from a batcher while messages were pushed into it. -/
structure Drawing where
  batcher : Batcher
  /-- Oldest first. -/
  frames : List Bytes
  /-- How many of the messages were pushed. -/
  pushed : Nat

/-- Pushes messages as long as the transport takes all the frames that this gives. -/
def Batcher.draw [Transport T] (batcher : Batcher) (transport : T) : List Outbound → Drawing
  | [] => ⟨batcher, [], 0⟩
  | message :: rest =>
    match batcher.push message with
    | (.ok frames, after) =>
      if taking transport frames = frames then
        let later := after.draw (handed transport frames) rest
        ⟨later.batcher, frames ++ later.frames, later.pushed + 1⟩
      else ⟨after, frames, 1⟩
    | (.error _, after) => ⟨after, [], 1⟩

/-- The frame that is taken from a batcher that is flushed. -/
def Batcher.drawFlush (batcher : Batcher) : Drawing :=
  match batcher.flush with
  | (.ok frame, after) => ⟨after, frame.toList, 0⟩
  | (.error _, after) => ⟨after, [], 0⟩

/-- No more is pushed than there is. -/
theorem Batcher.draw_pushed_le [Transport T] (outbox : List Outbound) :
    ∀ (batcher : Batcher) (transport : T),
      (batcher.draw transport outbox).pushed ≤ outbox.length := by
  induction outbox with
  | nil => exact fun _ _ => Nat.le_refl 0
  | cons message rest ih =>
      intro batcher transport
      unfold Batcher.draw
      split
      · split
        · exact Nat.succ_le_succ (ih _ _)
        · exact Nat.succ_pos _
      · exact Nat.succ_pos _

theorem Batcher.drawFlush_pushed (batcher : Batcher) : batcher.drawFlush.pushed = 0 := by
  unfold Batcher.drawFlush
  split <;> rfl

/-! ### What is written is counted -/

namespace Session

variable [Transport T]

/-- The session after frames were handed to its transport. -/
def wrote (session : Session A T) (frames : List Bytes) : Session A T :=
  let sent := taking session.transport frames
  { session with
    transport := handed session.transport frames
    tickBytes := session.tickBytes + Bytes.total sent
    stats := { session.stats with
      framesSent := session.stats.framesSent + sent.length
      bytesSent := session.stats.bytesSent + Bytes.total sent
      framesDiscarded := session.stats.framesDiscarded + (frames.length - sent.length) } }

/-- The session after some of `count` messages were pushed into its batcher. -/
def shipped (session : Session A T) (drawing : Drawing) (count : Nat) : Session A T :=
  let written := session.wrote drawing.frames
  { written with
    batcher := drawing.batcher
    stats := { written.stats with
      messagesSent := written.stats.messagesSent + drawing.pushed
      messagesDiscarded := written.stats.messagesDiscarded + (count - drawing.pushed) } }

theorem wrote_nil (session : Session A T) : session.wrote [] = session := rfl

/-- Frames that are handed over behind a frame that was taken. -/
theorem wrote_sent {session : Session A T} {transport : T} {frame : Bytes}
    (h : Transport.sendRaw session.transport frame = (.ok (), transport)) (rest : List Bytes) :
    (session.wrote [frame]).wrote rest = session.wrote (frame :: rest) := by
  simp [wrote, taking, handed, h, Bytes.total, Nat.add_assoc, Nat.add_comm 1]

/-- Frames behind one that was refused are lost. -/
theorem wrote_refused {session : Session A T} {transport : T} {frame : Bytes}
    {cause : TransportError}
    (h : Transport.sendRaw session.transport frame = (.error cause, transport))
    (rest : List Bytes) :
    ((session.wrote [frame]).count fun stats =>
      { stats with framesDiscarded := stats.framesDiscarded + rest.length })
      = session.wrote (frame :: rest) := by
  simp [wrote, count, taking, handed, h, Bytes.total, Nat.add_assoc, Nat.add_comm 1]

/-- What is drawn behind a message whose frames were all taken. -/
theorem shipped_behind {session : Session A T} {frames : List Bytes} {batcher : Batcher}
    (h : taking session.transport frames = frames) (later : Drawing) (count : Nat) :
    ({ session.count fun stats => { stats with messagesSent := stats.messagesSent + 1 }
      with batcher }.wrote frames).shipped later count
      = session.shipped ⟨later.batcher, frames ++ later.frames, later.pushed + 1⟩ (count + 1) := by
  obtain ⟨htaking, hhanded⟩ := Transport.taking_append later.frames h
  simp [shipped, wrote, Session.count, htaking, hhanded, h, Bytes.total_append, Nat.add_assoc,
    Nat.add_comm 1, Nat.add_sub_add_left]

end Session

namespace SessionAction

open Session

variable [Transport T]

theorem write_sent {session : Session A T} {transport : T} {frame : Bytes}
    (h : Transport.sendRaw session.transport frame = (.ok (), transport)) :
    write frame session = .ok () (session.wrote [frame]) := by
  simp [write, h, wrote, taking, handed, Bytes.total]

theorem write_refused {session : Session A T} {transport : T} {frame : Bytes}
    {cause : TransportError}
    (h : Transport.sendRaw session.transport frame = (.error cause, transport)) :
    write frame session = .error (.transport cause) (session.wrote [frame]) := by
  simp [write, h, wrote, taking, handed, Bytes.total]

/-- **Frames are written as long as the transport takes them**, and counted. -/
theorem writeAll_cases (frames : List Bytes) : ∀ session : Session A T,
    (taking session.transport frames = frames ∧
      writeAll frames session = .ok () (session.wrote frames)) ∨
    (taking session.transport frames ≠ frames ∧ ∃ cause,
      writeAll frames session = .error cause (session.wrote frames)) := by
  induction frames with
  | nil => exact fun session => .inl ⟨rfl, rfl⟩
  | cons frame rest ih =>
      intro session
      rcases hsend : Transport.sendRaw session.transport frame with ⟨cause | ⟨⟩, transport⟩
      · have hcounted := orCount_error (write_refused hsend) fun stats =>
          { stats with framesDiscarded := stats.framesDiscarded + rest.length }
        rw [wrote_refused hsend] at hcounted
        refine .inr ⟨?_, _, Step.bind_error hcounted⟩
        rw [Transport.taking_error hsend]
        exact (List.cons_ne_nil frame rest).symm
      · have hcounted := orCount_ok (write_sent hsend) fun stats =>
          { stats with framesDiscarded := stats.framesDiscarded + rest.length }
        have hsame : writeAll (frame :: rest) session = writeAll rest (session.wrote [frame]) :=
          Step.bind_ok hcounted
        have htransport : (session.wrote [frame]).transport = transport := by
          simp [wrote, handed, hsend]
        have hrest := ih (session.wrote [frame])
        rw [htransport, wrote_sent hsend] at hrest
        rw [hsame, Transport.taking_ok hsend]
        exact hrest.imp (fun ⟨hall, hrun⟩ => ⟨congrArg (frame :: ·) hall, hrun⟩)
          fun ⟨hsome, hrun⟩ => ⟨fun hall => hsome (List.cons.inj hall).2, hrun⟩

theorem writeAll_after (frames : List Bytes) (session : Session A T) :
    (writeAll frames).after session = session.wrote frames := by
  rcases writeAll_cases frames session with ⟨-, hrun⟩ | ⟨-, cause, hrun⟩
  · exact after_ok hrun
  · exact after_error hrun

/-- **Messages are pushed as long as the transport takes the frames**, and counted. -/
theorem pushAll_shipped (outbox : List Outbound) : ∀ session : Session A T,
    (pushAll outbox).after session
      = session.shipped (session.batcher.draw session.transport outbox) outbox.length := by
  induction outbox with
  | nil => exact fun session => rfl
  | cons message rest ih =>
      intro session
      let counted : Session A T := session.count fun stats =>
        { stats with messagesSent := stats.messagesSent + 1 }
      let change : SessionStats → SessionStats := fun stats =>
        { stats with messagesDiscarded := stats.messagesDiscarded + rest.length }
      have hrun : pushAll (message :: rest) session
          = ((push message).orCount change >>= fun _ => pushAll rest) counted := rfl
      rcases hpush : session.batcher.push message with ⟨cause | frames, batcher⟩
      · have hbatcher : onBatcher (·.push message) counted
            = .error cause { counted with batcher } := by
          simp only [onBatcher, counted, Session.count, hpush]
        have hpushed : push message counted = .error cause { counted with batcher } :=
          Step.bind_error hbatcher
        rw [after_error (hrun.trans (Step.bind_error (orCount_error hpushed change)))]
        simp [Batcher.draw, hpush, shipped, wrote, counted, change, Session.count, taking, handed,
          Bytes.total]
      · have hpushed : push message counted = writeAll frames { counted with batcher } :=
          Step.bind_ok (onBatcher_ok hpush)
        rcases writeAll_cases frames { counted with batcher } with
          ⟨hall, hwrite⟩ | ⟨hsome, cause, hwrite⟩
        · have hsame := hrun.trans (Step.bind_ok (orCount_ok (hpushed.trans hwrite) change))
          have hafter : (pushAll (message :: rest)).after session
              = (pushAll rest).after ({ counted with batcher }.wrote frames) := by
            simp only [SessionAction.after, hsame]
          have hall : taking session.transport frames = frames := hall
          rw [hafter, ih, shipped_behind hall]
          simp [Batcher.draw, hpush, hall, wrote, counted, Session.count]
        · have hsame := hrun.trans (Step.bind_error (orCount_error (hpushed.trans hwrite) change))
          have hsome : taking session.transport frames ≠ frames := hsome
          rw [after_error hsame]
          simp [Batcher.draw, hpush, hsome, shipped, wrote, counted, change, Session.count]

/-- **A flush takes what a drawing says.** -/
theorem flush_shipped (session : Session A T) :
    flush.after session = session.shipped session.batcher.drawFlush 0 := by
  rcases hflush : session.batcher.flush with ⟨cause | frame, batcher⟩
  · have hbatcher : onBatcher (·.flush) session = .error cause { session with batcher } := by
      simp only [onBatcher, hflush]
    have hrun : flush session = .error cause { session with batcher } := Step.bind_error hbatcher
    rw [after_error hrun]
    simp [shipped, Batcher.drawFlush, hflush, wrote_nil]
  · have hbatcher := onBatcher_ok hflush
    cases frame with
    | none =>
        have hrun : flush session = .ok () { session with batcher } := Step.bind_ok hbatcher
        rw [after_ok hrun]
        simp [shipped, Batcher.drawFlush, hflush, wrote_nil]
    | some frame =>
        have hrun : flush session = write frame { session with batcher } := Step.bind_ok hbatcher
        have hafter : flush.after session = (writeAll [frame]).after { session with batcher } := by
          simp only [SessionAction.after, hrun, write_eq]
        rw [hafter, writeAll_after]
        simp [shipped, Batcher.drawFlush, hflush, wrote]

end SessionAction

/-! ### One call -/

namespace SessionCall

variable [Transport T]

/-- What is taken from the batcher in a call.  The first start makes a frame of its own. -/
def drawing (session : Session A T) : SessionCall A → Drawing
  | start =>
    ⟨session.batcher, if session.started then [] else [session.bandwidth.advertisement], 0⟩
  | tick | flush => session.batcher.drawFlush
  | call => session.batcher.draw session.transport (call.connected session).outbox

/-- The frames that are taken from the batcher or made in a call, oldest first. -/
def taken (session : Session A T) (call : SessionCall A) : List Bytes :=
  (call.drawing session).frames

/-- Those of them that the transport accepts. -/
def accepted (session : Session A T) (call : SessionCall A) : List Bytes :=
  taking session.transport (call.taken session)

/-- Those that it refuses or never gets to see. -/
def discarded (session : Session A T) (call : SessionCall A) : List Bytes :=
  (call.taken session).drop (call.accepted session).length

/-- Whether a call is a tick that is completed. -/
def completesTick (session : Session A T) : SessionCall A → Bool
  | tick =>
    match SessionAction.tick session with
    | .ok _ _ => true
    | .error _ _ => false
  | _ => false

/-- The ticks over budget that a call adds, if so many bytes were accepted since the last completed
tick. -/
def excess (session : Session A T) (since : Nat) (call : SessionCall A) : Nat :=
  if call.completesTick session ∧
    session.bandwidth.perTick session.tickIntervalMs < since then 1 else 0

end SessionCall

namespace Session

variable [Transport T]

/-- A session in which all that a connection has queued was pushed. -/
def collected (session : Session A T) (conn : Connection A) : Session A T :=
  { session with conn := conn.drain.2 }.shipped
    (session.batcher.draw session.transport conn.outbox) conn.outbox.length

theorem collected_of_empty (session : Session A T) (h : session.conn.outbox = []) :
    session.collected session.conn = session := by
  unfold collected
  rw [Connection.drain_of_empty h, h]
  rfl

/-- What a call does to a session and to what it counts of sending. -/
structure Billed (session : Session A T) (call : SessionCall A) : Prop where
  conn : (session.perform call).conn = (call.connected session).drain.2
  batcher : (session.perform call).batcher = (call.drawing session).batcher
  transport : (session.perform call).transport = handed session.transport (call.taken session)
  tickBytes : (session.perform call).tickBytes = if call.completesTick session then 0
    else session.tickBytes + Bytes.total (call.accepted session)
  framesSent : (session.perform call).stats.framesSent
    = session.stats.framesSent + (call.accepted session).length
  bytesSent : (session.perform call).stats.bytesSent
    = session.stats.bytesSent + Bytes.total (call.accepted session)
  framesDiscarded : (session.perform call).stats.framesDiscarded
    = session.stats.framesDiscarded + (call.discarded session).length
  messagesSent : (session.perform call).stats.messagesSent
    = session.stats.messagesSent + (call.drawing session).pushed
  messagesDiscarded : (session.perform call).stats.messagesDiscarded
    = session.stats.messagesDiscarded
      + ((call.connected session).outbox.length - (call.drawing session).pushed)
  overBudgetTicks : (session.perform call).stats.overBudgetTicks
    = session.stats.overBudgetTicks
      + call.excess session (session.tickBytes + Bytes.total (call.accepted session))

end Session

namespace SessionAction

open Session

variable [Transport T] {session : Session A T}

theorem collect_collected (session : Session A T) (conn : Connection A) :
    collect.after { session with conn } = session.collected conn :=
  pushAll_shipped conn.outbox { session with conn := conn.drain.2 }

theorem onConnection_collected (step : Connection A → Except ProtocolError (α × Connection A))
    (hdrained : session.conn.outbox = []) : (onConnection step).after session
      = session.collected (session.conn.afterSend (step session.conn)) := by
  cases hstep : step session.conn with
  | error cause =>
      rw [onConnection_error hstep]
      exact (session.collected_of_empty hdrained).symm
  | ok result =>
      rw [onConnection_ok hstep]
      exact collect_collected session result.2

theorem withConnection_collected (step : Connection A → Except ProtocolError α × Connection A) :
    (withConnection step).after session = session.collected (step session.conn).2 := by
  rw [withConnection_after]
  exact collect_collected session (step session.conn).2

end SessionAction

/-! What is received is not counted as sent. -/

namespace Session

/-- The same bytes and ticks are counted, and the same of sending. -/
structure SameBill (before after : Session A T) : Prop where
  tickBytes : after.tickBytes = before.tickBytes
  framesSent : after.stats.framesSent = before.stats.framesSent
  bytesSent : after.stats.bytesSent = before.stats.bytesSent
  framesDiscarded : after.stats.framesDiscarded = before.stats.framesDiscarded
  messagesSent : after.stats.messagesSent = before.stats.messagesSent
  messagesDiscarded : after.stats.messagesDiscarded = before.stats.messagesDiscarded
  overBudgetTicks : after.stats.overBudgetTicks = before.stats.overBudgetTicks

variable {before : Session A T} {state : Receiving A T}

theorem SameBill.dispatch (h : before.SameBill state.session) (env : A.Env) (message : Bytes) :
    before.SameBill (state.dispatch env message).session := by
  obtain ⟨htick, hframes, hbytes, hlost, hmessages, hdiscarded, hbudget⟩ := h
  unfold Receiving.dispatch
  cases houtcome : (state.session.conn.receive env message).outcome with
  | ok delivery =>
      simp only [houtcome]
      cases delivery <;> exact ⟨htick, hframes, hbytes, hlost, hmessages, hdiscarded, hbudget⟩
  | error cause =>
      simp only [houtcome]
      exact ⟨htick, hframes, hbytes, hlost, hmessages, hdiscarded, hbudget⟩

theorem receive_sameBill (session : Session A T) (env : A.Env) (frame : Bytes) :
    session.SameBill (session.receive env frame).session := by
  have hstart : session.SameBill (session.count fun stats =>
      { stats with framesReceived := stats.framesReceived + 1 }) :=
    ⟨rfl, rfl, rfl, rfl, rfl, rfl, rfl⟩
  unfold receive
  split
  · split
    · exact List.foldlRecOn (motive := fun state : Receiving A T => session.SameBill state.session)
        _ _ hstart fun _ h message _ => h.dispatch env message
    · exact ⟨rfl, rfl, rfl, rfl, rfl, rfl, rfl⟩
  · split
    · split <;> exact ⟨rfl, rfl, rfl, rfl, rfl, rfl, rfl⟩
    · exact SameBill.dispatch hstart env frame

variable [Transport T] {session : Session A T} {call : SessionCall A}

open SessionAction

theorem billed_of_collected (hdrawing : call.drawing session
      = session.batcher.draw session.transport (call.connected session).outbox)
    (htick : call.completesTick session = false)
    (hafter : session.perform call = session.collected (call.connected session)) :
    session.Billed call := by
  constructor <;>
    simp [hafter, collected, hdrawing, htick, shipped, wrote, SessionCall.taken,
      SessionCall.accepted, SessionCall.discarded, SessionCall.excess]

theorem billed_flush (hdrained : session.conn.outbox = []) : session.Billed .flush := by
  have hafter : session.perform .flush = session.shipped session.batcher.drawFlush 0 :=
    flush_shipped session
  have hdrain := Connection.drain_of_empty hdrained
  have hnone := session.batcher.drawFlush_pushed
  constructor <;>
    simp [hafter, hdrained, hdrain, hnone, shipped, wrote, SessionCall.connected,
      SessionCall.taken, SessionCall.accepted, SessionCall.discarded, SessionCall.drawing,
      SessionCall.excess, SessionCall.completesTick]

theorem billed_tick (hdrained : session.conn.outbox = []) : session.Billed .tick := by
  have hflush := flush_shipped session
  have hdrain := Connection.drain_of_empty hdrained
  have hnone := session.batcher.drawFlush_pushed
  cases hrun : SessionAction.flush session with
  | ok value next =>
      have htick : SessionAction.tick session = .ok () (settleBudget next) := Step.bind_ok hrun
      have hcompletes : SessionCall.completesTick session .tick = true := by
        simp only [SessionCall.completesTick, htick]
      have hafter : session.perform .tick
          = settleBudget (session.shipped session.batcher.drawFlush 0) := by
        rw [← hflush, after_ok hrun]
        exact after_ok htick
      constructor <;>
        simp [hafter, hdrained, hdrain, hnone, hcompletes, settleBudget, Session.count, shipped,
          wrote, SessionCall.connected, SessionCall.taken, SessionCall.accepted,
          SessionCall.discarded, SessionCall.drawing, SessionCall.excess]
  | error cause next =>
      -- a tick whose flush failed leaves the bytes to the next one
      have htick : SessionAction.tick session = .error cause next := Step.bind_error hrun
      have hcompletes : SessionCall.completesTick session .tick = false := by
        simp only [SessionCall.completesTick, htick]
      have hafter : session.perform .tick = session.shipped session.batcher.drawFlush 0 := by
        rw [← hflush, after_error hrun]
        exact after_error htick
      constructor <;>
        simp [hafter, hdrained, hdrain, hnone, hcompletes, shipped, wrote, SessionCall.connected,
          SessionCall.taken, SessionCall.accepted, SessionCall.discarded, SessionCall.drawing,
          SessionCall.excess]

theorem billed_start (hdrained : session.conn.outbox = []) : session.Billed .start := by
  have hdrain := Connection.drain_of_empty hdrained
  by_cases hstarted : session.started = true
  · have hafter : session.perform .start = session := by
      have hrun : SessionAction.start session = .ok () session := by
        show (if session.started then return () else _ : SessionAction A T Unit) session = _
        rw [if_pos hstarted]
        rfl
      exact after_ok hrun
    constructor <;>
      simp [hafter, hdrained, hdrain, hstarted, SessionCall.connected, SessionCall.taken,
        SessionCall.accepted, SessionCall.discarded, SessionCall.drawing, SessionCall.excess,
        SessionCall.completesTick, taking, handed, Bytes.total]
  · have hafter : session.perform .start
        = { session with started := true }.wrote [session.bandwidth.advertisement] := by
      rw [← writeAll_after]
      show SessionAction.start.after session = _
      have hrun : SessionAction.start session = (if session.started then return ()
          else do
            set { session with started := true }
            SessionAction.write session.bandwidth.advertisement : SessionAction A T Unit) session :=
        rfl
      rw [if_neg hstarted] at hrun
      simp only [SessionAction.after, hrun, ← write_eq]
      rfl
    constructor <;>
      simp [hafter, hdrained, hdrain, hstarted, wrote, SessionCall.connected, SessionCall.taken,
        SessionCall.accepted, SessionCall.discarded, SessionCall.drawing, SessionCall.excess,
        SessionCall.completesTick]

/-- **A call does to the counters what its drawing says.** -/
theorem perform_billed (call : SessionCall A) (hdrained : session.conn.outbox = []) :
    session.Billed call := by
  have hdrain := Connection.drain_of_empty hdrained
  cases call with
  | send env endpoint value priority payload =>
      exact billed_of_collected rfl rfl (perform_send.trans (onConnection_collected _ hdrained))
  | sendLinked env endpoint value link priority payload =>
      exact billed_of_collected rfl rfl
        (perform_sendLinked.trans (onConnection_collected _ hdrained))
  | signal env endpoint value =>
      exact billed_of_collected rfl rfl
        (onConnection_collected (·.signal env endpoint value) hdrained)
  | through step =>
      exact billed_of_collected rfl rfl (perform_through.trans (withConnection_collected step))
  | receive env frame =>
      obtain ⟨hbatcher, htransport, incoming, caches, hconn⟩ := session.receive_stays env frame
      obtain ⟨htick, hframes, hbytes, hlost, hmessages, hdiscarded, hbudget⟩ :=
        session.receive_sameBill env frame
      have hafter : session.perform (.receive env frame) = (session.receive env frame).session :=
        rfl
      have houtbox : (session.receive env frame).session.conn.outbox = [] := by
        rw [hconn]
        exact hdrained
      have hdrawing : (SessionCall.receive env frame).drawing session
          = session.batcher.draw session.transport
            (session.receive env frame).session.conn.outbox := rfl
      constructor <;>
        simp [hafter, hbatcher, htransport, htick, hframes, hbytes, hlost, hmessages, hdiscarded,
          hbudget, houtbox, Connection.drain_of_empty houtbox, hdrawing, SessionCall.connected,
          SessionCall.taken, SessionCall.accepted, SessionCall.discarded, SessionCall.excess,
          SessionCall.completesTick, Batcher.draw, taking, handed, Bytes.total]
  | start => exact billed_start hdrained
  | tick => exact billed_tick hdrained
  | flush => exact billed_flush hdrained

end Session

/-! ### A whole run -/

namespace SessionCall

variable [Transport T] (session : Session A T) (call : SessionCall A)

theorem accepted_append_discarded :
    call.accepted session ++ call.discarded session = call.taken session := by
  have hprefix : call.accepted session <+: call.taken session := Transport.taking_prefix _ _
  have hfirst := List.prefix_iff_eq_take.mp hprefix
  calc call.accepted session ++ call.discarded session
      = (call.taken session).take (call.accepted session).length ++ call.discarded session := by
        rw [← hfirst]
    _ = call.taken session := List.take_append_drop _ _

theorem pushed_le :
    (call.drawing session).pushed ≤ (call.connected session).outbox.length := by
  have hdraw := Batcher.draw_pushed_le (call.connected session).outbox session.batcher
    session.transport
  cases call with
  | send | sendLinked | signal | through | receive => exact hdraw
  | start => exact Nat.zero_le _
  | tick | flush => exact session.batcher.drawFlush_pushed ▸ Nat.zero_le _

end SessionCall

namespace Session

variable [Transport T] {start : Session A T} {calls : List (SessionCall A)}

/-- What calls give, one after the other. -/
def gather (part : Session A T → SessionCall A → List α) (session : Session A T) :
    List (SessionCall A) → List α
  | [] => []
  | call :: rest => part session call ++ (session.perform call).gather part rest

/-- How many of the ticks that calls complete are over budget, if so many bytes were accepted since
the last one before. -/
def excesses (session : Session A T) (since : Nat) : List (SessionCall A) → Nat
  | [] => 0
  | call :: rest =>
    let bytes := since + Bytes.total (call.accepted session)
    call.excess session bytes
      + (session.perform call).excesses (if call.completesTick session then 0 else bytes) rest

/-- Every frame that was taken is accepted or discarded. -/
theorem length_taken (calls : List (SessionCall A)) : ∀ session : Session A T,
    (session.gather SessionCall.accepted calls).length
        + (session.gather SessionCall.discarded calls).length
      = (session.gather SessionCall.taken calls).length := by
  induction calls with
  | nil => exact fun _ => rfl
  | cons call rest ih =>
      intro session
      have hcall := congrArg List.length (call.accepted_append_discarded session)
      have hrest := ih (session.perform call)
      simp only [gather, List.length_append] at hcall ⊢
      omega

/-- What calls add to the counters of a session. -/
structure Tallied (start : Session A T) (calls : List (SessionCall A)) : Prop where
  drained : (start.live calls).conn.outbox = []
  accepted : ∀ {kept : T → List Bytes}, Transport.Records kept →
    kept (start.live calls).transport
      = kept start.transport ++ start.gather SessionCall.accepted calls
  framesSent : (start.live calls).stats.framesSent = start.stats.framesSent
    + (start.gather SessionCall.accepted calls).length
  bytesSent : (start.live calls).stats.bytesSent = start.stats.bytesSent
    + Bytes.total (start.gather SessionCall.accepted calls)
  framesDiscarded : (start.live calls).stats.framesDiscarded = start.stats.framesDiscarded
    + (start.gather SessionCall.discarded calls).length
  messages : (start.live calls).stats.messagesSent + (start.live calls).stats.messagesDiscarded
    = start.stats.messagesSent + start.stats.messagesDiscarded + (start.outgoing calls).length
  overBudgetTicks : (start.live calls).stats.overBudgetTicks = start.stats.overBudgetTicks
    + start.excesses start.tickBytes calls

/-- **The counters of a run add up.** -/
theorem live_tallied (calls : List (SessionCall A)) : ∀ {start : Session A T},
    start.conn.outbox = [] → start.Tallied calls := by
  induction calls with
  | nil =>
      intro start hdrained
      exact ⟨hdrained, fun _ => (List.append_nil _).symm, rfl, rfl, rfl, rfl, rfl⟩
  | cons call rest ih =>
      intro start hdrained
      have hbill := start.perform_billed call hdrained
      have hdrained : (start.perform call).conn.outbox = [] := by
        rw [hbill.conn]
        rfl
      have hpushed := call.pushed_le start
      obtain ⟨hend, haccepted, hframes, hbytes, hlost, hmessages, hbudget⟩ := ih hdrained
      constructor
      case drained => exact hend
      case accepted =>
        intro kept hrecords
        have hcall := hrecords.handed (call.taken start) start.transport
        rw [gather, ← List.append_assoc]
        refine (haccepted hrecords).trans (congrArg (· ++ _) ?_)
        rw [hbill.transport, hcall]
        rfl
      case framesSent =>
        rw [gather, List.length_append, ← Nat.add_assoc, ← hbill.framesSent]
        exact hframes
      case bytesSent =>
        rw [gather, Bytes.total_append, ← Nat.add_assoc, ← hbill.bytesSent]
        exact hbytes
      case framesDiscarded =>
        rw [gather, List.length_append, ← Nat.add_assoc, ← hbill.framesDiscarded]
        exact hlost
      case messages =>
        rw [hbill.messagesSent, hbill.messagesDiscarded] at hmessages
        rw [outgoing, List.length_append]
        refine hmessages.trans ?_
        omega
      case overBudgetTicks =>
        rw [hbill.overBudgetTicks, hbill.tickBytes] at hbudget
        exact hbudget.trans (Nat.add_assoc _ _ _)

end Session

/-! ### Where the messages are -/

/-- What is drawn while messages are pushed holds them, as far as they were pushed. -/
theorem Batcher.Sound.draw [Transport T] (outbox : List Outbound) :
    ∀ {batcher : Batcher} (transport : T), batcher.Sound →
      Packable batcher.maxFrameBytes (batcher.queue ++ outbox.map (·.bytes)) →
      (∀ message ∈ batcher.queue ++ outbox.map (·.bytes), Session.Plain message) →
      batcher.Gives ((outbox.take (batcher.draw transport outbox).pushed).map (·.bytes))
        (batcher.draw transport outbox).frames (batcher.draw transport outbox).batcher := by
  induction outbox with
  | nil =>
      intro batcher transport hsound _ _
      exact ⟨hsound, rfl, nofun, (List.append_nil _).symm⟩
  | cons message rest ih =>
      intro batcher transport hsound hpack hplain
      have hfirst : (batcher.queue ++ [message.bytes]).Sublist
          (batcher.queue ++ (message :: rest).map (·.bytes)) :=
        (List.Sublist.refl _).append (List.singleton_sublist.mpr List.mem_cons_self)
      obtain ⟨frames, after, hpush, hgives⟩ := hsound.push (hpack.sublist hfirst)
        fun one hone => hplain one (hfirst.subset hone)
      by_cases hall : taking transport frames = frames
      · have hnext : (after.queue ++ rest.map (·.bytes)).Sublist
            (batcher.queue ++ (message :: rest).map (·.bytes)) := by
          have hqueue : after.queue.Sublist (batcher.queue ++ [message.bytes]) :=
            hgives.whole ▸ List.sublist_append_right _ _
          have hboth := hqueue.append (List.Sublist.refl (rest.map (·.bytes)))
          rwa [List.append_assoc] at hboth
        have hrest := ih (handed transport frames) hgives.sound
          (hgives.limit ▸ hpack.sublist hnext) fun one hone => hplain one (hnext.subset hone)
        simpa [Batcher.draw, hpush, hall] using hgives.append hrest
      · simpa [Batcher.draw, hpush, hall] using hgives

/-- A flush draws the queue. -/
theorem Batcher.Sound.drawFlush {batcher : Batcher} (h : batcher.Sound)
    (hpack : Packable batcher.maxFrameBytes batcher.queue)
    (hplain : ∀ message ∈ batcher.queue, Session.Plain message) :
    batcher.Gives [] batcher.drawFlush.frames batcher.drawFlush.batcher := by
  obtain ⟨frame, hflush, hreadable, hmessages⟩ := h.flush hpack hplain
  simp only [Batcher.drawFlush, hflush]
  exact ⟨sound_new _, rfl, hreadable, by rw [hmessages]; rfl⟩

/-- **The frames of a call hold what it has pushed**, behind what was queued. -/
theorem SessionCall.drawing_gives [Transport T] {session : Session A T} (call : SessionCall A)
    (hready : session.Ready ((call.connected session).outbox.map (·.bytes))) :
    session.batcher.Gives
      (((call.connected session).outbox.take (call.drawing session).pushed).map (·.bytes))
      (call.taken session) (call.drawing session).batcher := by
  have hdraw := hready.sound.draw (call.connected session).outbox session.transport
    hready.packable hready.plain
  have hqueue : session.Ready [] := hready.sublist (List.nil_sublist _)
  have hflush := hqueue.sound.drawFlush (by simpa using hqueue.packable)
    (by simpa using hqueue.plain)
  cases call with
  | send | sendLinked | signal | through | receive => exact hdraw
  | start =>
      obtain ⟨hreadable, hmessages⟩ :=
        Session.readable_of_unpack (Session.unpack_advert session.bandwidth.localCap)
      by_cases hstarted : session.started = true
      · simp only [taken, drawing, hstarted, if_true]
        exact ⟨hready.sound, rfl, nofun, (List.append_nil _).symm⟩
      · simp only [taken, drawing, hstarted]
        refine ⟨hready.sound, rfl, ?_, ?_⟩
        · exact List.forall_mem_singleton.mpr hreadable
        · simp [Bandwidth.advertisement, hmessages]
  | tick | flush =>
      simpa [taken, drawing, Batcher.drawFlush_pushed] using hflush

namespace Session

variable [Transport T] {start session : Session A T} {tree : Tree A} {sent : List Outbound}
  {posted : List Posted}

/-- A session whose queue is made of messages that the connection has sent. -/
structure Orderly (tree : Tree A) (limit : Nat) (session : Session A T) (sent : List Outbound)
    (posted : List Posted) : Prop where
  drained : session.conn.outbox = []
  sending : Sending tree session.conn sent posted
  sound : session.batcher.Sound
  limit : session.batcher.maxFrameBytes = limit
  queue : session.batcher.queue.Sublist (sent.map (·.bytes))

variable {limit : Nat}

/-- **A call keeps the session in order**, and counts the messages that it pushes. -/
theorem Orderly.perform (h : Orderly tree limit session sent posted) (hshaped : tree.Shaped)
    (hwrites : tree.WritesOn) (call : SessionCall A) (hcall : call.WritesOn)
    (hpack : Batcher.Packable limit ((sent ++ (call.connected session).outbox).map (·.bytes))) :
    (∃ posted, Orderly tree limit (session.perform call)
      (sent ++ (call.connected session).outbox) posted) ∧
      (session.perform call).stats.messagesSent + session.pending
        = session.stats.messagesSent + ((call.accepted session).flatMap messagesOf).length
          + ((call.discarded session).flatMap messagesOf).length
          + (session.perform call).pending := by
  obtain ⟨hdrained, hsending, hsound, rfl, hqueue⟩ := h
  obtain ⟨more, hsending⟩ := call.sends hshaped hwrites hsending hcall
  have hgives := call.drawing_gives (hsending.ready hsound hqueue hpack)
  have hbill := session.perform_billed call hdrained
  have hwhole := hgives.whole
  rw [← hbill.batcher] at hgives hwhole
  refine ⟨⟨posted ++ more, ?_, ?_, hgives.sound, hgives.limit, ?_⟩, ?_⟩
  · rw [hbill.conn]
    rfl
  · rw [hbill.conn]
    exact hsending.drain
  · have hbehind : (session.perform call).batcher.queue.Sublist (session.batcher.queue ++ _) :=
      hwhole ▸ List.sublist_append_right _ _
    rw [List.map_append]
    exact hbehind.trans (hqueue.append ((List.take_sublist _ _).map _))
  · have hlength := congrArg List.length hwhole
    have hpushed := call.pushed_le session
    rw [← call.accepted_append_discarded session, List.flatMap_append] at hlength
    simp only [List.length_append, List.length_map, List.length_take] at hlength
    rw [hbill.messagesSent, pending, pending]
    omega

/-- **Each message that was pushed is in a frame or in the queue.** -/
theorem Orderly.live (calls : List (SessionCall A)) (hshaped : tree.Shaped)
    (hwrites : tree.WritesOn) : ∀ {session : Session A T} {sent : List Outbound}
      {posted : List Posted}, Orderly tree limit session sent posted →
      (∀ call ∈ calls, call.WritesOn) →
      Batcher.Packable limit ((sent ++ session.outgoing calls).map (·.bytes)) →
      (session.live calls).stats.messagesSent + session.pending = session.stats.messagesSent
        + ((session.gather SessionCall.accepted calls).flatMap messagesOf).length
        + ((session.gather SessionCall.discarded calls).flatMap messagesOf).length
        + (session.live calls).pending := by
  induction calls with
  | nil => exact fun _ _ _ => rfl
  | cons call rest ih =>
      intro session sent posted h hcalls hpack
      obtain ⟨hcall, hrest⟩ := List.forall_mem_cons.mp hcalls
      rw [outgoing, ← List.append_assoc] at hpack
      have hfirst := hpack.sublist ((List.sublist_append_left _ _).map _)
      obtain ⟨⟨posted, h⟩, hstep⟩ := h.perform hshaped hwrites call hcall hfirst
      have hlast := ih h hrest hpack
      simp only [gather, List.flatMap_append, List.length_append]
      have hlive : session.live (call :: rest) = (session.perform call).live rest := rfl
      rw [hlive]
      omega

/-- What the counters of a session say after calls on it. -/
structure Accounted (start : Session A T) (calls : List (SessionCall A)) : Prop where
  /-- The frames that the transport has accepted. -/
  accepted : ∀ {kept : T → List Bytes}, Transport.Records kept →
    kept (start.live calls).transport
      = kept start.transport ++ start.gather SessionCall.accepted calls
  framesSent : (start.live calls).stats.framesSent
    = (start.gather SessionCall.accepted calls).length
  bytesSent : (start.live calls).stats.bytesSent
    = Bytes.total (start.gather SessionCall.accepted calls)
  frames : (start.live calls).stats.framesSent + (start.live calls).stats.framesDiscarded
    = (start.gather SessionCall.taken calls).length
  /-- Each message that was pushed is in a frame or in the queue, if a container can say what it
  holds. -/
  messagesSent : Batcher.Packable start.batcher.maxFrameBytes
      ((start.outgoing calls).map (·.bytes)) →
    (start.live calls).stats.messagesSent
      = ((start.gather SessionCall.accepted calls).flatMap messagesOf).length
        + ((start.gather SessionCall.discarded calls).flatMap messagesOf).length
        + (start.live calls).pending
  messages : (start.live calls).stats.messagesSent + (start.live calls).stats.messagesDiscarded
    = (start.outgoing calls).length
  drained : (start.live calls).conn.outbox = []
  overBudgetTicks : (start.live calls).stats.overBudgetTicks = start.excesses 0 calls

end Session

/-- **The counters of a session add up**, whatever is called on it and whichever frames are
refused. -/
theorem outbound_accounted [Transport T] {revision : Revision}
    {allowed : List (Handle A) → BuilderCall A → Prop} {builder : TreeBuilder A}
    {handles : List (Handle A)} (hbuilt : Built revision allowed builder handles)
    (hwrites : builder.build.WritesOn) (label : String) (attachment : Option (Value A))
    (transport : T) (config : SessionConfig) (calls : List (SessionCall A))
    (hcalls : ∀ call ∈ calls, call.WritesOn) :
    (Session.fresh builder.build label attachment transport config).Accounted calls := by
  let start : Session A T := .fresh builder.build label attachment transport config
  have htallied : start.Tallied calls := Session.live_tallied calls rfl
  obtain ⟨hdrained, haccepted, hframes, hbytes, hlost, hmessages, hbudget⟩ := htallied
  have hzero : start.stats = {} := rfl
  simp only [hzero, Nat.zero_add] at hframes hbytes hlost hmessages hbudget
  refine ⟨haccepted, hframes, hbytes, ?_, fun hpack => ?_, hmessages, hdrained, hbudget⟩
  · rw [hframes, hlost]
    exact Session.length_taken calls start
  · have horderly : Session.Orderly builder.build config.session.maxFrameBytes start [] [] :=
      ⟨rfl, ⟨rfl, rfl, Channel.start builder.build _⟩, Batcher.sound_new _, rfl, .slnil⟩
    have hlive := horderly.live calls hbuilt.shaped hwrites hcalls hpack
    have hnone : start.pending = 0 := rfl
    simp only [hzero, hnone, Nat.add_zero, Nat.zero_add] at hlive
    exact hlive

/-! A transport that refuses two frames first, and a budget of a byte a second. -/

def thriftyGreeter : Session Scenario.app LateChannel :=
  .fresh seatBuilder.build "peer" none ⟨2, []⟩ { bandwidth := { localCap := 1, floor := 0 } }

def thriftyGreetings : List (SessionCall Scenario.app) :=
  [.start, greetFrom 7 .urgent, greetFrom 8 .normal, .tick, .tick, greetFrom 9 .normal]

/-- The advertisement and the announce are refused, so the first greeting is never pushed; the
second is accepted, and the third waits. -/
theorem thriftyGreetings_accounted :
    thriftyGreeter.Accounted thriftyGreetings ∧
      Batcher.Packable thriftyGreeter.batcher.maxFrameBytes
        ((thriftyGreeter.outgoing thriftyGreetings).map (·.bytes)) ∧
      (thriftyGreeter.live thriftyGreetings).stats = {
        framesSent := 1
        bytesSent := 5
        framesDiscarded := 2
        messagesSent := 3
        messagesDiscarded := 1
        overBudgetTicks := 1 } := by
  have hcalls : ∀ call ∈ thriftyGreetings, call.WritesOn := by
    simp only [thriftyGreetings, greetFrom, List.forall_mem_cons, SessionCall.WritesOn]
    exact ⟨trivial, Payload.nothing_writesOn, Payload.nothing_writesOn, trivial, trivial,
      Payload.nothing_writesOn, List.forall_mem_nil _⟩
  refine ⟨?_, .of_limit (by decide) _, by decide +kernel⟩
  exact outbound_accounted seatBuilder_built seatTree_writesOn "peer" none (⟨2, []⟩ : LateChannel)
    { bandwidth := { localCap := 1, floor := 0 } } thriftyGreetings hcalls

/-- The messages of a flush that fails are in no frame and not pending, and no counter tells of
them. -/
theorem vastGreetings_unaccounted :
    (vastGreeter.live (blockGreetings vastBlock)).stats.messagesSent
        ≠ ((vastGreeter.gather SessionCall.accepted (blockGreetings vastBlock)).flatMap
            Session.messagesOf).length
          + ((vastGreeter.gather SessionCall.discarded (blockGreetings vastBlock)).flatMap
            Session.messagesOf).length
          + (vastGreeter.live (blockGreetings vastBlock)).pending ∧
      (vastGreeter.live (blockGreetings vastBlock)).stats
        = { framesSent := 1, bytesSent := 7, messagesSent := 2 } := by
  have hvast : vastBlock.length = 4294967295 := List.length_replicate
  obtain ⟨hwritten, hqueue, hstats, -⟩ := blockGreetings_lost hvast
  refine ⟨?_, hstats⟩
  have htallied : vastGreeter.Tallied (blockGreetings vastBlock) := Session.live_tallied _ rfl
  have haccepted : [] ++ vastGreeter.gather SessionCall.accepted (blockGreetings vastBlock)
      = [[0, 0, 0, 2, 128, 128, 64]] := (htallied.accepted FrameList.records).symm.trans hwritten
  rw [List.nil_append] at haccepted
  have hfresh : vastGreeter.stats.framesDiscarded = 0 := rfl
  have hdiscarded := htallied.framesDiscarded
  simp only [hstats, hfresh, Nat.zero_add] at hdiscarded
  have hnone : vastGreeter.gather SessionCall.discarded (blockGreetings vastBlock) = [] :=
    List.length_eq_zero_iff.mp hdiscarded.symm
  have hadvert : Session.messagesOf [0, 0, 0, 2, 128, 128, 64] = [] := by decide +kernel
  simp [hstats, haccepted, hnone, hadvert, Session.pending, hqueue]

end PathWire

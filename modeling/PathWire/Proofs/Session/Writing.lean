/-
What a session makes of the messages that it takes over.

Messages go through the batcher to the transport, which may refuse any frame.  `Passes` says what
is left in either case: what was written since, followed by the queue, is what was queued before
and what came, in order, with nothing twice.  Nothing at all is missing unless a frame was refused,
and if the transport refuses everything from then on, what it has accepted is what came first.
Every step of a session that writes has this form, and it composes.
-/
import PathWire.Proofs.Frame.Batcher

namespace PathWire

variable {A : Application} {T : Type} {α β : Type}

/-! ### Transports -/

namespace Transport

variable [Transport T]

/-- What a transport has accepted can be told from it: every frame that it takes, and no other. -/
structure Records (accepted : T → List Bytes) : Prop where
  ok : ∀ {transport after : T} {frame : Bytes}, sendRaw transport frame = (.ok (), after) →
    accepted after = accepted transport ++ [frame]
  error : ∀ {transport after : T} {frame : Bytes} {cause : TransportError},
    sendRaw transport frame = (.error cause, after) → accepted after = accepted transport

/-- A transport that has refused a frame, now or before. -/
inductive Broken : T → Prop
  | refused {transport after : T} {frame : Bytes} {cause : TransportError}
      (h : sendRaw transport frame = (.error cause, after)) : Broken after
  | later {transport after : T} {frame : Bytes} {result : Except TransportError Unit}
      (hbroken : Broken transport) (h : sendRaw transport frame = (result, after)) : Broken after

variable (T) in
/-- The transports of a kind accept every frame. -/
def Accepts : Prop := ∀ (transport : T) (frame : Bytes), ∃ after,
  sendRaw transport frame = (.ok (), after)

variable (T) in
/-- The transports of a kind accept nothing once they have refused a frame. -/
def Lasting : Prop := ∀ {transport : T}, Broken transport → ∀ frame, ∃ cause after,
  sendRaw transport frame = (.error cause, after)

theorem Accepts.unbroken (h : Accepts T) (transport : T) : ¬ Broken transport := by
  intro hbroken
  induction hbroken with
  | @refused transport _ frame _ hrefused =>
      obtain ⟨after, hafter⟩ := h transport frame
      cases hrefused.symm.trans hafter
  | later _ _ ih => exact ih

end Transport

/-! ### Actions -/

namespace SessionAction

/-- The session after an action, whether it succeeded or not. -/
def after (action : SessionAction A T α) (session : Session A T) : Session A T :=
  match action session with
  | .ok _ session | .error _ session => session

/-- The action succeeds. -/
def Succeeds (action : SessionAction A T α) (session : Session A T) : Prop :=
  ∃ value after, action session = .ok value after

theorem after_ok {action : SessionAction A T α} {session next : Session A T} {value : α}
    (h : action session = .ok value next) : action.after session = next := by
  simp only [after, h]

theorem after_error {action : SessionAction A T α} {session next : Session A T}
    {cause : SessionError} (h : action session = .error cause next) :
    action.after session = next := by
  simp only [after, h]

theorem orCount_ok {action : SessionAction A T α} {session next : Session A T} {value : α}
    (h : action session = .ok value next) (change : SessionStats → SessionStats) :
    action.orCount change session = .ok value next := by
  simp only [orCount, h]

theorem of_orCount_ok {action : SessionAction A T α} {session next : Session A T} {value : α}
    {change : SessionStats → SessionStats} (h : action.orCount change session = .ok value next) :
    action session = .ok value next := by
  cases hrun : action session with
  | ok found between => rwa [orCount_ok hrun change] at h
  | error cause between => simp [orCount, hrun] at h

theorem orCount_error {action : SessionAction A T α} {session next : Session A T}
    {cause : SessionError} (h : action session = .error cause next)
    (change : SessionStats → SessionStats) :
    action.orCount change session = .error cause (next.count change) := by
  simp only [orCount, h]

end SessionAction

namespace Session

open SessionAction

/-- Messages that a session is ready to take over. -/
structure Ready (session : Session A T) (messages : List Bytes) : Prop where
  sound : session.batcher.Sound
  packable : Batcher.Packable session.batcher.maxFrameBytes (session.batcher.queue ++ messages)
  plain : ∀ message ∈ session.batcher.queue ++ messages, Plain message

theorem Ready.sublist {session : Session A T} {messages some : List Bytes}
    (h : session.Ready messages) (hsub : some.Sublist messages) : session.Ready some :=
  have hqueue := (List.Sublist.refl session.batcher.queue).append hsub
  ⟨h.sound, h.packable.sublist hqueue, fun message hmem => h.plain message (hqueue.subset hmem)⟩

theorem onBatcher_ok {session : Session A T} {step : Batcher → Except SessionError α × Batcher}
    {value : α} {batcher : Batcher} (h : step session.batcher = (.ok value, batcher)) :
    onBatcher step session = .ok value { session with batcher } := by
  simp only [onBatcher, h]

theorem onBatcher_batcher {step : Batcher → Except SessionError α × Batcher} {value : α}
    {session next : Session A T} (h : onBatcher step session = .ok value next) :
    next.batcher = (step session.batcher).2 := by
  unfold onBatcher at h
  split at h <;> rename_i hstep <;> cases h
  rw [hstep]

open Transport (Broken Lasting)

section

variable [Transport T]

/-- What is left of messages that a session takes over: frames that the transport accepted, and the
queue behind them. -/
structure Passes (accepted : T → List Bytes) (before : Session A T) (messages frames : List Bytes)
    (after : Session A T) : Prop where
  sound : after.batcher.Sound
  limit : after.batcher.maxFrameBytes = before.batcher.maxFrameBytes
  accepted : accepted after.transport = accepted before.transport ++ frames
  readable : ∀ frame ∈ frames, Readable frame
  behind : (frames.flatMap messagesOf ++ after.batcher.queue).Sublist
    (before.batcher.queue ++ messages)
  whole : Broken after.transport ∨
    frames.flatMap messagesOf ++ after.batcher.queue = before.batcher.queue ++ messages
  broken : Broken before.transport → Broken after.transport
  first : Lasting T → frames.flatMap messagesOf <+: before.batcher.queue ++ messages
  silent : Lasting T → Broken before.transport → frames = []

/-- An action that takes messages over, and fails only if the transport refuses a frame. -/
structure Takes (accepted : T → List Bytes) (action : SessionAction A T α) (before : Session A T)
    (messages : List Bytes) : Prop where
  conn : (action.after before).conn = before.conn
  passes : ∃ frames, before.Passes accepted messages frames (action.after before)
  succeeds : Broken (action.after before).transport ∨ action.Succeeds before

end

variable [Transport T] {accepted : T → List Bytes} {before between after session : Session A T}
  {messages first last frames rest : List Bytes}

namespace Passes

theorem nothing (hbatcher : after.batcher = before.batcher)
    (htransport : after.transport = before.transport) (hsound : before.batcher.Sound) :
    before.Passes accepted [] [] after where
  sound := hbatcher ▸ hsound
  limit := by rw [hbatcher]
  accepted := by rw [htransport, List.append_nil]
  readable := nofun
  behind := by simp [hbatcher]
  whole := .inr (by simp [hbatcher])
  broken := fun hbroken => htransport ▸ hbroken
  first := fun _ => List.nil_prefix
  silent := fun _ _ => rfl

/-- What comes later comes behind. -/
theorem trans (h : before.Passes accepted first frames between)
    (hrest : between.Passes accepted last rest after) :
    before.Passes accepted (first ++ last) (frames ++ rest) after where
  sound := hrest.sound
  limit := hrest.limit.trans h.limit
  accepted := by rw [hrest.accepted, h.accepted, List.append_assoc]
  readable := List.forall_mem_append.mpr ⟨h.readable, hrest.readable⟩
  behind := by
    rw [List.flatMap_append, List.append_assoc, ← List.append_assoc before.batcher.queue]
    have hbehind := (List.Sublist.refl (frames.flatMap messagesOf)).append hrest.behind
    rw [← List.append_assoc (frames.flatMap messagesOf) between.batcher.queue] at hbehind
    exact hbehind.trans (h.behind.append (List.Sublist.refl last))
  whole := by
    rcases h.whole with hbroken | hwhole
    · exact .inl (hrest.broken hbroken)
    · refine hrest.whole.imp_right fun hwhole' => ?_
      rw [List.flatMap_append, List.append_assoc, hwhole', ← List.append_assoc, hwhole,
        List.append_assoc]
  broken hbroken := hrest.broken (h.broken hbroken)
  first hlasting := by
    rcases h.whole with hbroken | hwhole
    · -- nothing is accepted after the refusal
      rw [hrest.silent hlasting hbroken, List.append_nil, ← List.append_assoc]
      exact (h.first hlasting).trans (List.prefix_append _ _)
    · rw [List.flatMap_append, ← List.append_assoc, ← hwhole, List.append_assoc]
      exact (List.prefix_append_right_inj _).mpr (hrest.first hlasting)
  silent hlasting hbroken := by
    rw [h.silent hlasting hbroken, hrest.silent hlasting (h.broken hbroken), List.append_nil]

/-- Messages are lost only if a frame was refused. -/
theorem lose (h : before.Passes accepted first frames after) (hbroken : Broken after.transport)
    (lost : List Bytes) : before.Passes accepted (first ++ lost) frames after := by
  obtain ⟨hsound, hlimit, haccepted, hreadable, hbehind, -, hkept, hfirst, hsilent⟩ := h
  have hmore : before.batcher.queue ++ first <+: before.batcher.queue ++ (first ++ lost) :=
    ⟨lost, List.append_assoc _ _ _⟩
  exact ⟨hsound, hlimit, haccepted, hreadable, hbehind.trans hmore.sublist, .inl hbroken, hkept,
    fun hlasting => (hfirst hlasting).trans hmore, hsilent⟩

/-- Only the batcher and the transport matter, before and after. -/
theorem congr {before' after' : Session A T} (h : before.Passes accepted messages frames after)
    (hbatcher : before'.batcher = before.batcher)
    (htransport : before'.transport = before.transport)
    (hbatcher' : after'.batcher = after.batcher)
    (htransport' : after'.transport = after.transport) :
    before'.Passes accepted messages frames after' := by
  obtain ⟨hsound, hlimit, haccepted, hreadable, hbehind, hwhole, hkept, hfirst, hsilent⟩ := h
  constructor <;> simpa only [hbatcher, htransport, hbatcher', htransport']

end Passes

namespace Takes

variable {action : SessionAction A T α}

theorem ok {value : α} (h : action before = .ok value after) (hconn : after.conn = before.conn)
    (hpasses : before.Passes accepted messages frames after) :
    Takes accepted action before messages := by
  have hafter : action.after before = after := after_ok h
  exact ⟨hafter ▸ hconn, ⟨frames, hafter ▸ hpasses⟩, .inr ⟨value, after, h⟩⟩

/-- Another action that does the same from a session of other counters. -/
theorem of_same {other : SessionAction A T α} (h : Takes accepted action before messages)
    (haction : other session = action before) (hconn : before.conn = session.conn)
    (hbatcher : session.batcher = before.batcher)
    (htransport : session.transport = before.transport) :
    Takes accepted other session messages := by
  have hafter : other.after session = action.after before := by
    simp only [SessionAction.after, haction]
  obtain ⟨frames, hpasses⟩ := h.passes
  refine ⟨?_, ⟨frames, ?_⟩, ?_⟩
  · rw [hafter, h.conn, hconn]
  · rw [hafter]
    exact hpasses.congr hbatcher htransport rfl rfl
  · rw [hafter]
    refine h.succeeds.imp_right fun ⟨value, final, hfinal⟩ => ⟨value, final, ?_⟩
    rw [haction, hfinal]

/-- An action and what follows on it. -/
theorem bind {next : α → SessionAction A T β} (h : Takes accepted action before first)
    (hnext : ∀ {value between}, action before = .ok value between →
      Takes accepted (next value) between last) :
    Takes accepted (action >>= next) before (first ++ last) := by
  obtain ⟨hconn, ⟨frames, hpasses⟩, hsucceeds⟩ := h
  cases hrun : action before with
  | ok value between =>
      obtain ⟨hconn', ⟨rest, hrest⟩, hlast⟩ := hnext hrun
      have hsame : (action >>= next) before = next value between := Step.bind_ok hrun
      have hafter : (action >>= next).after before = (next value).after between := by
        simp only [SessionAction.after, hsame]
      rw [after_ok hrun] at hconn hpasses
      refine ⟨?_, ⟨frames ++ rest, ?_⟩, ?_⟩
      · rw [hafter, hconn', hconn]
      · rw [hafter]
        exact hpasses.trans hrest
      · rw [hafter]
        refine hlast.imp_right fun ⟨found, final, hfound⟩ => ⟨found, final, ?_⟩
        rw [hsame, hfound]
  | error cause between =>
      -- a frame was refused, and what would have followed is lost
      rw [after_error hrun] at hconn hpasses hsucceeds
      have hafter : (action >>= next).after before = between := after_error (Step.bind_error hrun)
      have hbroken : Broken between.transport := by
        rcases hsucceeds with hbroken | ⟨value, final, hfound⟩
        · exact hbroken
        · cases hrun.symm.trans hfound
      rw [← hafter] at hconn hpasses hbroken
      exact ⟨hconn, ⟨frames, hpasses.lose hbroken last⟩, .inl hbroken⟩

/-- Counting a failure does not matter. -/
theorem orCount (h : Takes accepted action before messages)
    (change : SessionStats → SessionStats) :
    Takes accepted (action.orCount change) before messages := by
  obtain ⟨hconn, ⟨frames, hpasses⟩, hsucceeds⟩ := h
  cases hrun : action before with
  | ok value between =>
      rw [after_ok hrun] at hconn hpasses
      exact .ok (orCount_ok hrun change) hconn hpasses
  | error cause between =>
      rw [after_error hrun] at hconn hpasses hsucceeds
      have hafter := after_error (orCount_error hrun change)
      refine ⟨hafter ▸ hconn, ⟨frames, hafter ▸ hpasses.congr rfl rfl rfl rfl⟩, ?_⟩
      rcases hsucceeds with hbroken | ⟨value, final, hfound⟩
      · rw [hafter]
        exact .inl hbroken
      · cases hrun.symm.trans hfound

end Takes

/-- A session is ready for what comes next. -/
theorem Ready.next (h : before.Ready (first ++ last))
    (hpasses : before.Passes accepted first frames after) : after.Ready last := by
  have hqueue : (after.batcher.queue ++ last).Sublist
      (before.batcher.queue ++ (first ++ last)) := by
    rw [← List.append_assoc]
    exact ((List.sublist_append_right _ _).trans hpasses.behind).append (List.Sublist.refl last)
  exact ⟨hpasses.sound, hpasses.limit ▸ h.packable.sublist hqueue,
    fun message hmem => h.plain message (hqueue.subset hmem)⟩

/-! ### Frames -/

theorem write_ok {transport : T} {frame : Bytes}
    (h : Transport.sendRaw session.transport frame = (.ok (), transport)) :
    ∃ next, write frame session = .ok () next ∧ next.conn = session.conn ∧
      next.batcher = session.batcher ∧ next.transport = transport := by
  unfold write
  rw [h]
  exact ⟨_, rfl, rfl, rfl, rfl⟩

theorem write_error {transport : T} {frame : Bytes} {cause : TransportError}
    (h : Transport.sendRaw session.transport frame = (.error cause, transport)) :
    ∃ next, write frame session = .error (.transport cause) next ∧ next.conn = session.conn ∧
      next.batcher = session.batcher ∧ next.transport = transport := by
  unfold write
  rw [h]
  exact ⟨_, rfl, rfl, rfl, rfl⟩

/-- What is left of frames that are handed to the transport one after the other. -/
structure Writes (accepted : T → List Bytes) (before : Session A T) (frames written : List Bytes)
    (after : Session A T) : Prop where
  conn : after.conn = before.conn
  batcher : after.batcher = before.batcher
  accepted : accepted after.transport = accepted before.transport ++ written
  first : written <+: frames
  all : Broken after.transport ∨ written = frames
  broken : Broken before.transport → Broken after.transport
  silent : Lasting T → Broken before.transport → written = []

/-- Frames are written up to the first that is refused. -/
theorem writeAll_written (hrecords : Transport.Records accepted) (frames : List Bytes) :
    ∀ session : Session A T, ∃ written,
      session.Writes accepted frames written ((writeAll frames).after session) ∧
      (Broken ((writeAll frames).after session).transport ∨
        (writeAll frames).Succeeds session) := by
  induction frames with
  | nil =>
      intro session
      exact ⟨[], ⟨rfl, rfl, (List.append_nil _).symm, List.nil_prefix, .inr rfl, id,
        fun _ _ => rfl⟩, .inr ⟨(), session, rfl⟩⟩
  | cons frame rest ih =>
      intro session
      rcases hsend : Transport.sendRaw session.transport frame with ⟨cause | ⟨⟩, transport⟩
      · obtain ⟨failed, hwrite, hconn, hbatcher, htransport⟩ := write_error hsend
        have hcounted := orCount_error hwrite fun stats =>
          { stats with framesDiscarded := stats.framesDiscarded + rest.length }
        have hafter : (writeAll (frame :: rest)).after session = _ :=
          after_error (Step.bind_error hcounted)
        have hbroken : Broken failed.transport := htransport ▸ .refused hsend
        have haccepted : accepted failed.transport = accepted session.transport ++ [] := by
          rw [htransport, hrecords.error hsend, List.append_nil]
        rw [hafter]
        exact ⟨[], ⟨hconn, hbatcher, haccepted, List.nil_prefix, .inl hbroken, fun _ => hbroken,
          fun _ _ => rfl⟩, .inl hbroken⟩
      · obtain ⟨next, hwrite, hconn, hbatcher, htransport⟩ := write_ok hsend
        have hcounted := orCount_ok hwrite fun stats =>
          { stats with framesDiscarded := stats.framesDiscarded + rest.length }
        have hsame : writeAll (frame :: rest) session = writeAll rest next :=
          Step.bind_ok hcounted
        have hafter : (writeAll (frame :: rest)).after session = (writeAll rest).after next := by
          simp only [SessionAction.after, hsame]
        obtain ⟨written, hwrites, hsucceeds⟩ := ih next
        rw [hafter]
        refine ⟨frame :: written, ?_, ?_⟩
        · refine ⟨hwrites.conn.trans hconn, hwrites.batcher.trans hbatcher, ?_, ?_, ?_, ?_, ?_⟩
          · rw [hwrites.accepted, htransport, hrecords.ok hsend, List.append_assoc]
            rfl
          · exact (List.prefix_cons_inj frame).mpr hwrites.first
          · exact hwrites.all.imp_right (congrArg (frame :: ·))
          · exact fun hbroken => hwrites.broken (htransport ▸ .later hbroken hsend)
          · intro hlasting hbroken
            obtain ⟨cause, other, hrefused⟩ := hlasting hbroken frame
            cases hsend.symm.trans hrefused
        · refine hsucceeds.imp_right fun ⟨value, final, hfinal⟩ => ⟨value, final, ?_⟩
          rw [hsame, hfinal]

/-- **Frames that the batcher gave are written.** -/
theorem writeAll_takes (hrecords : Transport.Records accepted) {batcher : Batcher}
    (h : session.batcher.Gives messages frames batcher) {action : SessionAction A T Unit}
    (haction : action session = writeAll frames { session with batcher }) :
    Takes accepted action session messages := by
  obtain ⟨written, hwrites, hsucceeds⟩ :=
    writeAll_written hrecords frames { session with batcher }
  have hafter : action.after session = (writeAll frames).after { session with batcher } := by
    simp only [SessionAction.after, haction]
  rw [← hafter] at hwrites hsucceeds
  obtain ⟨hconn, hbatcher, haccepted, hfirst, hall, hbroken, hsilent⟩ := hwrites
  have hmessages := hfirst.flatMap messagesOf
  refine ⟨hconn, ⟨written, ?_⟩, hsucceeds.imp_right fun ⟨value, final, hfinal⟩ => ?_⟩
  · constructor
    · exact hbatcher ▸ h.sound
    · exact hbatcher ▸ h.limit
    · exact haccepted
    · exact fun frame hframe => h.readable frame (hfirst.subset hframe)
    · rw [← h.whole, hbatcher]
      exact hmessages.sublist.append (List.Sublist.refl _)
    · refine hall.imp_right fun hall => ?_
      rw [hall, hbatcher]
      exact h.whole
    · exact hbroken
    · intro _
      rw [← h.whole]
      exact hmessages.trans (List.prefix_append _ _)
    · exact hsilent
  · exact ⟨value, final, haction.trans hfinal⟩

/-! ### Messages -/

/-- **One message is taken over.** -/
theorem push_takes (hrecords : Transport.Records accepted) {message : Outbound}
    (hready : session.Ready [message.bytes]) :
    Takes accepted (push message) session [message.bytes] := by
  obtain ⟨frames, batcher, hpush, hgives⟩ := hready.sound.push hready.packable hready.plain
  exact writeAll_takes hrecords hgives (Step.bind_ok (onBatcher_ok hpush))

/-- **All messages are taken over.** -/
theorem pushAll_takes (hrecords : Transport.Records accepted) (outbox : List Outbound) :
    ∀ {session : Session A T}, session.Ready (outbox.map (·.bytes)) →
      Takes accepted (pushAll outbox) session (outbox.map (·.bytes)) := by
  induction outbox with
  | nil => exact fun hready => .ok rfl rfl (.nothing rfl rfl hready.sound)
  | cons message rest ih =>
      intro session hready
      -- the message is counted before it is pushed
      have hready : (session.count fun stats =>
          { stats with messagesSent := stats.messagesSent + 1 }).Ready
          ([message.bytes] ++ rest.map (·.bytes)) := ⟨hready.sound, hready.packable, hready.plain⟩
      have hfirst := (push_takes hrecords (hready.sublist (List.sublist_append_left _ _))).orCount
        fun stats => { stats with messagesDiscarded := stats.messagesDiscarded + rest.length }
      refine (hfirst.bind fun hrun => ih ?_).of_same rfl rfl rfl rfl
      obtain ⟨frames, hpasses⟩ := hfirst.passes
      exact hready.next (after_ok hrun ▸ hpasses)

/-! ### Other frames -/

/-- One frame is written as the only one of several. -/
theorem write_eq (frame : Bytes) (session : Session A T) :
    write frame session = writeAll [frame] session := by
  rcases hsend : Transport.sendRaw session.transport frame with ⟨cause | ⟨⟩, transport⟩
  · obtain ⟨failed, hwrite, -⟩ := write_error hsend
    have hcounted := orCount_error hwrite fun stats =>
      { stats with framesDiscarded := stats.framesDiscarded + ([] : List Bytes).length }
    exact hwrite.trans (Step.bind_error hcounted).symm
  · obtain ⟨next, hwrite, -⟩ := write_ok hsend
    have hcounted := orCount_ok hwrite fun stats =>
      { stats with framesDiscarded := stats.framesDiscarded + ([] : List Bytes).length }
    exact hwrite.trans (Step.bind_ok hcounted).symm

/-- **A flush writes the queue.** -/
theorem flush_takes (hrecords : Transport.Records accepted) (hready : session.Ready []) :
    Takes accepted flush session [] := by
  have hpack := hready.packable
  have hplain := hready.plain
  rw [List.append_nil] at hpack hplain
  obtain ⟨frame, hflush, hreadable, hmessages⟩ := hready.sound.flush hpack hplain
  have hgives : session.batcher.Gives [] frame.toList (.new session.batcher.maxFrameBytes) := by
    refine ⟨Batcher.sound_new _, rfl, hreadable, ?_⟩
    rw [hmessages]
    rfl
  refine writeAll_takes hrecords hgives ((Step.bind_ok (onBatcher_ok hflush)).trans ?_)
  cases frame with
  | none => rfl
  | some frame => exact write_eq frame _

/-- A tick writes the queue as well. -/
theorem tick_takes (hrecords : Transport.Records accepted) (hready : session.Ready []) :
    Takes accepted tick session [] := by
  have hflush := flush_takes hrecords hready
  obtain ⟨frames, hpasses⟩ := hflush.passes
  exact hflush.bind fun hrun => .ok rfl rfl (.nothing rfl rfl (after_ok hrun ▸ hpasses).sound)

/-- The advertisement holds no message. -/
theorem start_takes (hrecords : Transport.Records accepted) (hsound : session.batcher.Sound) :
    Takes accepted start session [] := by
  have hrun : start session = (if session.started then return ()
      else do
        set { session with started := true }
        write session.bandwidth.advertisement : SessionAction A T Unit) session := rfl
  by_cases hstarted : session.started = true
  · rw [if_pos hstarted] at hrun
    exact .ok hrun rfl (.nothing rfl rfl hsound)
  · rw [if_neg hstarted] at hrun
    obtain ⟨hreadable, hmessages⟩ := readable_of_unpack (unpack_advert session.bandwidth.localCap)
    have hgives : { session with started := true }.batcher.Gives []
        [session.bandwidth.advertisement] session.batcher := by
      refine ⟨hsound, rfl, ?_, ?_⟩
      · intro frame hframe
        rw [List.mem_singleton.mp hframe]
        exact hreadable
      · rw [List.flatMap_singleton, Bandwidth.advertisement, hmessages, List.append_nil]
        rfl
    have hwritten := writeAll_takes hrecords hgives
      (write_eq session.bandwidth.advertisement { session with started := true })
    exact hwritten.of_same hrun rfl rfl rfl

/-! ### Empty queues -/

/-- Writing does not touch the batcher. -/
theorem write_batcher {frame : Bytes} (h : write frame before = .ok () after) :
    after.batcher = before.batcher := by
  rcases hsend : Transport.sendRaw before.transport frame with ⟨cause | ⟨⟩, transport⟩
  · obtain ⟨failed, hwrite, -⟩ := write_error hsend
    cases hwrite.symm.trans h
  · obtain ⟨next, hwrite, -, hbatcher, -⟩ := write_ok hsend
    cases hwrite.symm.trans h
    exact hbatcher

theorem writeAll_batcher (frames : List Bytes) : ∀ {before : Session A T},
    writeAll frames before = .ok () after → after.batcher = before.batcher := by
  induction frames with
  | nil =>
      intro before h
      cases h
      rfl
  | cons frame rest ih =>
      intro before h
      obtain ⟨⟨⟩, between, hwrite, hrest⟩ := Step.of_bind_ok h
      rw [ih hrest, write_batcher (of_orCount_ok hwrite)]

/-- A flush that succeeds leaves nothing in the queue. -/
theorem flush_empties (h : flush before = .ok () after) : after.batcher.queue = [] := by
  obtain ⟨frame, between, hflush, hwrite⟩ := Step.of_bind_ok h
  have hempty : between.batcher.queue = [] := by
    rw [onBatcher_batcher hflush]
    rfl
  cases frame with
  | none =>
      cases hwrite
      exact hempty
  | some frame => rw [write_batcher hwrite, hempty]

theorem tick_empties (h : tick before = .ok () after) : after.batcher.queue = [] := by
  obtain ⟨⟨⟩, between, hflush, hsettle⟩ := Step.of_bind_ok h
  cases hsettle
  show between.batcher.queue = []
  exact flush_empties hflush

/-- An urgent message at the end leaves nothing in the queue. -/
theorem pushAll_empties (outbox : List Outbound) {message : Outbound}
    (hurgent : message.priority = .urgent) : ∀ {before : Session A T},
    pushAll (outbox ++ [message]) before = .ok () after → after.batcher.queue = [] := by
  induction outbox with
  | nil =>
      intro before h
      obtain ⟨⟨⟩, counted, hcounted, h⟩ := Step.of_bind_ok h
      cases hcounted
      obtain ⟨⟨⟩, between, hpush, hnone⟩ := Step.of_bind_ok h
      cases hnone
      obtain ⟨frames, given, hgiven, hwrite⟩ := Step.of_bind_ok (of_orCount_ok hpush)
      rw [writeAll_batcher frames hwrite, onBatcher_batcher hgiven]
      exact Batcher.queue_push _ hurgent
  | cons first rest ih =>
      intro before h
      obtain ⟨⟨⟩, counted, -, h⟩ := Step.of_bind_ok h
      obtain ⟨⟨⟩, between, -, hrest⟩ := Step.of_bind_ok h
      exact ih hrest

end Session

end PathWire

/-
The batcher loses nothing.

A batcher gives out what was pushed into it in order: the frames that it has given, taken apart
again, followed by its queue.  As long as a frame may not outgrow its fields this needs nothing of
the messages but that their own tags tell them apart from the other frames, since the size of the
container that the queue would make is known all the time.
-/
import PathWire.Proofs.Frame.Container

namespace PathWire

/-! ### Frames -/

namespace Session

/-- What a frame holds. -/
def unpack (frame : Bytes) : Except SessionError (List Bytes) :=
  if frameTag? frame = some batchTag then splitBatch frame
  else if frameTag? frame = some bandwidthTag then (decodeAdvert frame).map fun _ => []
  else .ok [frame]

/-- The messages in a frame; none if it cannot be read. -/
def messagesOf (frame : Bytes) : List Bytes := (unpack frame).toOption.getD []

/-- A frame that can be read. -/
def Readable (frame : Bytes) : Prop := unpack frame = .ok (messagesOf frame)

/-- A message that can travel alone: it is no other frame. -/
def Plain (message : Bytes) : Prop :=
  frameTag? message ≠ some batchTag ∧ frameTag? message ≠ some bandwidthTag

variable {frame : Bytes} {messages : List Bytes}

theorem readable_of_unpack (h : unpack frame = .ok messages) :
    Readable frame ∧ messagesOf frame = messages := by
  have hmessages : messagesOf frame = messages := by
    rw [messagesOf, h]
    rfl
  exact ⟨h.trans (congrArg Except.ok hmessages.symm), hmessages⟩

theorem Plain.unpack (h : Plain frame) : Session.unpack frame = .ok [frame] := by
  unfold Session.unpack
  rw [if_neg h.1, if_neg h.2]

theorem unpack_container (hcount : messages.length < 2 ^ 32)
    (hlengths : ∀ message ∈ messages, message.length ≤ maxLengthField)
    (h : Batcher.container messages = .ok frame) : unpack frame = .ok messages := by
  obtain ⟨htag, hsplit⟩ := splitBatch_container hcount hlengths h
  unfold unpack
  rw [if_pos htag, hsplit]

theorem unpack_advert (cap : UInt32) : unpack (encodeAdvert cap) = .ok [] := by
  have htag : frameTag? (encodeAdvert cap) = some bandwidthTag := by
    rw [encodeAdvert_eq]
    exact frameTag?_bytes (by decide) _
  have hother : ¬ (some bandwidthTag = some batchTag) := by decide
  unfold unpack
  rw [htag, if_neg hother, if_pos rfl, decodeAdvert_encodeAdvert]
  rfl

end Session

namespace Batcher

open Session

/-! ### A batcher in order -/

/-- The size of the container of the queue is known, and it does not outgrow the limit. -/
structure Sound (batcher : Batcher) : Prop where
  entries : batcher.entriesLength = (batcher.queue.map fun message =>
    entryLength message.length).sum
  fits : 2 ≤ batcher.queue.length →
    containerLength batcher.queue.length batcher.entriesLength ≤ batcher.maxFrameBytes

/-- Frames of messages that keep a limit can say what they hold. -/
structure Packable (limit : Nat) (messages : List Bytes) : Prop where
  /-- The limit keeps their number small, or there are not so many of them. -/
  count : limit ≤ maxLengthField ∨ messages.length ≤ maxLengthField
  /-- None of them is too long for its length field but those that travel alone. -/
  lengths : ∀ message ∈ messages, message.length ≤ limit → message.length ≤ maxLengthField

/-- A limit within the length field is enough. -/
theorem Packable.of_limit {limit : Nat} (h : limit ≤ maxLengthField) (messages : List Bytes) :
    Packable limit messages :=
  ⟨.inl h, fun _ _ hshort => Nat.le_trans hshort h⟩

theorem sound_new (limit : Nat) : (new limit).Sound := ⟨rfl, nofun⟩

theorem Packable.sublist {limit : Nat} {messages some : List Bytes} (h : Packable limit messages)
    (hsub : some.Sublist messages) : Packable limit some where
  count := h.count.imp_right (Nat.le_trans hsub.length_le)
  lengths message hmem := h.lengths message (hsub.subset hmem)

/-- An entry is at least one byte longer than its message. -/
theorem lt_entryLength (length : Nat) : length < entryLength length := by
  unfold entryLength Varint.unsignedLength
  omega

theorem length_le_entries (messages : List Bytes) :
    messages.length ≤ (messages.map fun message => entryLength message.length).sum ∧
      ∀ message ∈ messages,
        message.length ≤ (messages.map fun message => entryLength message.length).sum := by
  induction messages with
  | nil => exact ⟨Nat.le_refl _, nofun⟩
  | cons message rest ih =>
      obtain ⟨hcount, hlengths⟩ := ih
      have hmessage := lt_entryLength message.length
      rw [List.map_cons, List.sum_cons, List.length_cons]
      refine ⟨by omega, List.forall_mem_cons.mpr ⟨by omega, fun other hother => ?_⟩⟩
      have hother := hlengths other hother
      omega

variable {batcher : Batcher}

/-- The queue fits the fields of a container. -/
theorem Sound.fields (h : batcher.Sound) (hpack : Packable batcher.maxFrameBytes batcher.queue)
    (htwo : 2 ≤ batcher.queue.length) : batcher.queue.length < 2 ^ 32 ∧
      ∀ message ∈ batcher.queue, message.length ≤ maxLengthField := by
  have hfield : maxLengthField < 2 ^ 32 := by decide
  obtain ⟨hcount, hlengths⟩ := length_le_entries batcher.queue
  have hsize := h.fits htwo
  rw [h.entries] at hsize
  unfold containerLength at hsize
  refine ⟨?_, fun message hmem => hpack.lengths message hmem ?_⟩
  · rcases hpack.count with hlimit | hfew <;> omega
  · have hmessage := hlengths message hmem
    omega

/-- **A flush gives the queue as one frame.** -/
theorem Sound.flush (h : batcher.Sound) (hpack : Packable batcher.maxFrameBytes batcher.queue)
    (hplain : ∀ message ∈ batcher.queue, Plain message) :
    ∃ frame : Option Bytes, batcher.flush = (.ok frame, new batcher.maxFrameBytes) ∧
      (∀ one ∈ frame.toList, Readable one) ∧
      frame.toList.flatMap messagesOf = batcher.queue := by
  unfold Batcher.flush
  rcases hqueue : batcher.queue with _ | ⟨first, _ | ⟨second, rest⟩⟩
  · exact ⟨none, rfl, nofun, rfl⟩
  · have hfirst : Plain first := hplain first (by rw [hqueue]; exact List.mem_singleton_self first)
    obtain ⟨hreadable, hmessages⟩ := readable_of_unpack hfirst.unpack
    refine ⟨some first, rfl, ?_, ?_⟩
    · intro one hone
      rwa [List.mem_singleton.mp hone]
    · simp only [Option.toList_some, List.flatMap_singleton, hmessages]
  · have htwo : 2 ≤ batcher.queue.length := by rw [hqueue]; simp
    obtain ⟨hcount, hlengths⟩ := h.fields hpack htwo
    rw [hqueue] at hcount hlengths
    obtain ⟨frame, hcontainer⟩ : ∃ frame, container (first :: second :: rest) = .ok frame :=
      ⟨_, container_eq hlengths⟩
    obtain ⟨hreadable, hmessages⟩ :=
      readable_of_unpack (unpack_container hcount hlengths hcontainer)
    have hframe : frameOf (first :: second :: rest) = .ok (some frame) := by
      show (container (first :: second :: rest) >>= fun frame => return some frame) = _
      rw [Result.bind_ok hcontainer]
      rfl
    refine ⟨some frame, ?_, ?_, ?_⟩
    · rw [hframe]
      rfl
    · intro one hone
      rwa [List.mem_singleton.mp hone]
    · simp only [Option.toList_some, List.flatMap_singleton, hmessages]

/-! ### Pushing -/

/-- What a step of a batcher gives: frames that can be read, and with the queue behind them
nothing but what was queued before and what came. -/
structure Gives (batcher : Batcher) (messages : List Bytes) (frames : List Bytes)
    (after : Batcher) : Prop where
  sound : after.Sound
  limit : after.maxFrameBytes = batcher.maxFrameBytes
  readable : ∀ frame ∈ frames, Readable frame
  whole : frames.flatMap messagesOf ++ after.queue = batcher.queue ++ messages

/-- A step that writes behind frames that were given. -/
theorem Gives.append {between after : Batcher} {first last frames rest : List Bytes}
    (h : batcher.Gives first frames between) (hrest : between.Gives last rest after) :
    batcher.Gives (first ++ last) (frames ++ rest) after where
  sound := hrest.sound
  limit := hrest.limit.trans h.limit
  readable := List.forall_mem_append.mpr ⟨h.readable, hrest.readable⟩
  whole := by
    rw [List.flatMap_append, List.append_assoc, hrest.whole, ← List.append_assoc, h.whole,
      List.append_assoc]

/-- A flush behind other frames. -/
theorem Sound.flushAfter (h : batcher.Sound)
    (hpack : Packable batcher.maxFrameBytes batcher.queue)
    (hplain : ∀ message ∈ batcher.queue, Plain message) (frames : List Bytes) :
    ∃ flushed, Batcher.flushAfter frames batcher
        = (.ok (frames ++ flushed), new batcher.maxFrameBytes) ∧
      batcher.Gives [] flushed (new batcher.maxFrameBytes) := by
  obtain ⟨frame, hflush, hreadable, hmessages⟩ := h.flush hpack hplain
  refine ⟨frame.toList, ?_, sound_new _, rfl, hreadable, ?_⟩
  · unfold Batcher.flushAfter
    rw [hflush]
  · rw [hmessages]
    rfl

/-- A message that fits is queued. -/
theorem Sound.enqueue (h : batcher.Sound) {message : Bytes}
    (hfits : batcher.overflows message = false) :
    batcher.Gives [message] [] (batcher.enqueue message) where
  sound := by
    constructor
    · simp [Batcher.enqueue, h.entries]
    · intro htwo
      unfold overflows at hfits
      simp only [Batcher.enqueue, List.length_append, List.length_singleton] at htwo ⊢
      have hopen : batcher.queue.isEmpty = false := by
        cases hqueue : batcher.queue with
        | nil => simp [hqueue] at htwo
        | cons first rest => rfl
      simpa [hopen] using hfits
  limit := rfl
  readable := nofun
  whole := rfl

variable {message : Outbound}

/-- What pushing a message that fits gives. -/
theorem Sound.pushFitting (h : batcher.Sound) (hfits : batcher.overflows message.bytes = false)
    (hpack : Packable batcher.maxFrameBytes (batcher.queue ++ [message.bytes]))
    (hplain : ∀ one ∈ batcher.queue ++ [message.bytes], Plain one) (frames : List Bytes) :
    ∃ given after, Batcher.pushFitting frames batcher message = (.ok (frames ++ given), after) ∧
      batcher.Gives [message.bytes] given after := by
  have hqueued := h.enqueue hfits
  unfold Batcher.pushFitting
  cases message.priority with
  | normal => exact ⟨[], _, by simp, hqueued⟩
  | urgent =>
      obtain ⟨flushed, hflush, hgives⟩ := hqueued.sound.flushAfter hpack hplain frames
      exact ⟨flushed, _, hflush, hqueued.append hgives⟩

/-- **What pushing a message gives**: frames that hold what was queued and the message, as far as
they do not stay in the queue. -/
theorem Sound.push (h : batcher.Sound)
    (hpack : Packable batcher.maxFrameBytes (batcher.queue ++ [message.bytes]))
    (hplain : ∀ one ∈ batcher.queue ++ [message.bytes], Plain one) :
    ∃ frames after, batcher.push message = (.ok frames, after) ∧
      batcher.Gives [message.bytes] frames after := by
  have hqueue : batcher.queue.Sublist (batcher.queue ++ [message.bytes]) :=
    List.sublist_append_left _ _
  obtain ⟨flushed, hflush, hflushed⟩ := h.flushAfter (hpack.sublist hqueue)
    (fun one hone => hplain one (hqueue.subset hone)) []
  rw [List.nil_append] at hflush
  have hlone : Plain message.bytes := hplain _ (by simp)
  unfold Batcher.push
  by_cases hlong : batcher.maxFrameBytes < message.bytes.length
  · obtain ⟨hreadable, hmessages⟩ := readable_of_unpack hlone.unpack
    have hgiven : (new batcher.maxFrameBytes).Gives [message.bytes] [message.bytes]
        (new batcher.maxFrameBytes) := by
      refine ⟨sound_new _, rfl, ?_, ?_⟩
      · intro one hone
        rwa [List.mem_singleton.mp hone]
      · simp [hmessages, new]
    rw [if_pos hlong, hflush]
    -- behind the queue, and alone
    exact ⟨_, _, rfl, hflushed.append hgiven⟩
  · rw [if_neg hlong]
    by_cases hover : batcher.overflows message.bytes = true
    · -- the queue goes first, and an empty one has room for any message
      have hfits : (new batcher.maxFrameBytes).overflows message.bytes = false := rfl
      have hpacked : Packable batcher.maxFrameBytes [message.bytes] :=
        hpack.sublist (List.sublist_append_right _ _)
      obtain ⟨given, after, hpush, hgives⟩ := (sound_new batcher.maxFrameBytes).pushFitting hfits
        hpacked (fun one hone => hplain one (List.mem_append_right _ hone)) flushed
      rw [if_pos hover, hflush]
      exact ⟨_, after, hpush, hflushed.append hgives⟩
    · obtain ⟨given, after, hpush, hgives⟩ :=
        h.pushFitting (Bool.eq_false_iff.mpr hover) hpack hplain []
      rw [if_neg hover]
      rw [List.nil_append] at hpush
      exact ⟨given, after, hpush, hgives⟩

/-! ### Empty queues -/

theorem queue_flushAfter (frames : List Bytes) (batcher : Batcher) :
    (Batcher.flushAfter frames batcher).2.queue = [] := by
  have hempty : batcher.flush.2.queue = [] := rfl
  unfold Batcher.flushAfter
  split <;> rename_i hflush <;> rwa [hflush] at hempty

/-- **An urgent message leaves nothing in the queue**, nor does one that is longer than a frame. -/
theorem queue_push (batcher : Batcher) (hurgent : message.priority = .urgent) :
    (batcher.push message).2.queue = [] := by
  have hfitting : ∀ frames batcher, (Batcher.pushFitting frames batcher message).2.queue = [] := by
    intro frames batcher
    simp only [Batcher.pushFitting, hurgent]
    exact queue_flushAfter _ _
  have hflushed := queue_flushAfter [] batcher
  unfold Batcher.push
  split
  · split <;> rename_i hflush <;> rwa [hflush] at hflushed
  · split
    · split
      · exact hfitting _ _
      · rename_i hflush
        rwa [hflush] at hflushed
    · exact hfitting [] batcher

end Batcher

end PathWire

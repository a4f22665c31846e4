/-
How long the frames of a batcher are.

A batcher knows the size of the frame that its queue would make without making it: the entries are
added up as they come, and the header of a container is as long as its number of messages says.  So
the size it answers is the length of the frame that a flush gives, and no frame outgrows the limit
but a single message that does.

What carries this through all calls is that the sum is that of the queue and that the size keeps the
limit: the only calls that add to the queue are those whose message fits with it, or alone.  Calls
that fail empty the queue, so they keep it too; a call fails exactly if it flushes several messages
one of which is too long for its length field in a container.
-/
import PathWire.Proofs.Frame.Parsing

namespace PathWire

theorem Result.of_map_ok {ε α β : Type} {first : Except ε α} {f : α → β} {answer : β}
    (h : first.map f = .ok answer) : ∃ value, first = .ok value ∧ f value = answer := by
  cases first with
  | error cause => cases h
  | ok value => exact ⟨value, rfl, Except.ok.inj h⟩

theorem Result.map_ok_iff {ε α β : Type} {first : Except ε α} {f : α → β} :
    (∃ answer, first.map f = .ok answer) ↔ ∃ value, first = .ok value := by
  constructor
  · rintro ⟨answer, h⟩
    obtain ⟨value, hfirst, -⟩ := of_map_ok h
    exact ⟨value, hfirst⟩
  · rintro ⟨value, rfl⟩
    exact ⟨f value, rfl⟩

/-- A call on a batcher. -/
inductive BatcherCall where
  | push (message : Outbound)
  | flush

namespace BatcherCall

/-- What is pushed by a call. -/
def messages : BatcherCall → List Bytes
  | push message => [message.bytes]
  | flush => []

/-- The frames that a call gives, and the batcher behind it. -/
def run : BatcherCall → Batcher → Except SessionError (List Bytes) × Batcher
  | push message, batcher => batcher.push message
  | flush, batcher => Batcher.flushAfter [] batcher

/-- The messages that a call flushes together. -/
def flushed (batcher : Batcher) : BatcherCall → List Bytes
  | push message =>
    if batcher.maxFrameBytes < message.bytes.length ∨ batcher.overflows message.bytes = true then
      batcher.queue
    else if message.priority = .normal then []
    else batcher.queue ++ [message.bytes]
  | flush => batcher.queue

end BatcherCall

namespace Batcher

/-- The batcher behind some calls. -/
def after (batcher : Batcher) (calls : List BatcherCall) : Batcher :=
  calls.foldl (fun batcher call => (call.run batcher).2) batcher

/-- The size of the container of some messages. -/
def containerSize (messages : List Bytes) : Nat :=
  containerLength messages.length (messages.map fun message => entryLength message.length).sum

/-! ### The size of a container -/

/-- The entries of a container are as long as was counted. -/
theorem length_entries_eq (messages : List Bytes) : (messages.flatMap Encoder.counted).length
    = (messages.map fun message => entryLength message.length).sum := by
  induction messages with
  | nil => rfl
  | cons message rest ih =>
      rw [List.flatMap_cons, List.length_append, ih, List.map_cons, List.sum_cons,
        Encoder.counted, List.length_append, Varint.length_putUnsigned]
      rfl

/-- A container says how many messages it has in 32 bits. -/
theorem length_container {messages : List Bytes} {frame : Bytes}
    (h : container messages = .ok frame) : frame.length
      = containerLength (messages.length % 2 ^ 32)
        (messages.map fun message => entryLength message.length).sum := by
  have hframe := (container_eq (container_ok_iff.mp ⟨frame, h⟩)).symm.trans h
  cases hframe
  have hnumber : (UInt32.ofNat messages.length).toNat = messages.length % 2 ^ 32 :=
    UInt32.toNat_ofNat'
  rw [List.length_append, List.length_append, Bytes.length_bigEndian, length_entries_eq,
    Varint.putU32, hnumber, Varint.length_putUnsigned, containerLength, Nat.add_assoc]
  rfl

theorem length_container_eq {messages : List Bytes} {frame : Bytes}
    (hcount : messages.length < 2 ^ 32) (h : container messages = .ok frame) :
    frame.length = containerSize messages := by
  rw [length_container h, Nat.mod_eq_of_lt hcount, containerSize]

theorem unsignedLength_mono {small large : Nat} (h : small ≤ large) :
    Varint.unsignedLength small ≤ Varint.unsignedLength large := by
  have hdigits : Varint.bitLength small ≤ Varint.bitLength large :=
    (Nat.pow_le_pow_iff_right (by decide)).mp (Reader.bound_mono h)
  unfold Varint.unsignedLength
  omega

/-- More messages need a longer container. -/
theorem containerSize_le_append (messages more : List Bytes) :
    containerSize messages ≤ containerSize (messages ++ more) := by
  have hnumber := unsignedLength_mono (Nat.le_add_right messages.length more.length)
  unfold containerSize containerLength
  rw [List.length_append, List.map_append, List.sum_append]
  omega

/-- A container is longer than each of its messages. -/
theorem length_lt_containerSize {messages : List Bytes} {message : Bytes}
    (h : message ∈ messages) : message.length < containerSize messages := by
  have hmessage := (length_le_entries messages).2 message h
  unfold containerSize containerLength tagBytes
  omega

/-- A number of messages that wraps around makes a container no longer. -/
theorem length_container_le {messages : List Bytes} {frame : Bytes}
    (h : container messages = .ok frame) : frame.length ≤ containerSize messages := by
  have hnumber := unsignedLength_mono (Nat.mod_le messages.length (2 ^ 32))
  rw [length_container h]
  unfold containerSize containerLength
  omega

/-! ### A batcher that keeps count -/

/-- The sum of the entries is known, and the queue keeps the limit. -/
structure Tallied (batcher : Batcher) : Prop where
  entries : batcher.entriesLength = (batcher.queue.map fun message =>
    entryLength message.length).sum
  within : batcher.frameLength ≤ batcher.maxFrameBytes

theorem tallied_new (limit : Nat) : (new limit).Tallied := ⟨rfl, Nat.zero_le limit⟩

variable {batcher : Batcher}

/-- The size of a queue of several messages is that of a container. -/
theorem frameLength_eq (h : 2 ≤ batcher.queue.length) : batcher.frameLength
    = containerLength batcher.queue.length batcher.entriesLength := by
  unfold frameLength
  rcases hqueue : batcher.queue with _ | ⟨first, _ | ⟨second, rest⟩⟩
  · simp [hqueue] at h
  · simp [hqueue] at h
  · rfl

theorem Tallied.sound (h : batcher.Tallied) : batcher.Sound where
  entries := h.entries
  fits htwo := frameLength_eq htwo ▸ h.within

/-- Several queued messages have fewer bytes than the limit, and are fewer. -/
theorem Tallied.bounds (h : batcher.Tallied) :
    (batcher.queue.length ≤ 1 ∨ batcher.queue.length + 4 ≤ batcher.maxFrameBytes) ∧
      ∀ message ∈ batcher.queue, message.length ≤ batcher.maxFrameBytes := by
  have hwithin := h.within
  by_cases htwo : 2 ≤ batcher.queue.length
  · obtain ⟨hcount, hlengths⟩ := length_le_entries batcher.queue
    rw [frameLength_eq htwo, h.entries, containerLength, tagBytes] at hwithin
    exact ⟨.inr (by omega), fun message hmem => Nat.le_trans (hlengths message hmem) (by omega)⟩
  · refine ⟨.inl (by omega), fun message hmem => ?_⟩
    rcases hqueue : batcher.queue with _ | ⟨first, _ | ⟨second, rest⟩⟩
    · simp [hqueue] at hmem
    · obtain rfl : message = first := by simpa [hqueue] using hmem
      simpa [frameLength, hqueue] using hwithin
    · simp [hqueue] at htwo

/-- The container of the queue and one more message would have fields for both. -/
theorem Tallied.container (h : batcher.Tallied) {message : Bytes}
    (hpack : Packable batcher.maxFrameBytes (batcher.queue ++ [message]))
    (hshort : message.length ≤ batcher.maxFrameBytes) :
    ∃ frame, Batcher.container (batcher.queue ++ [message]) = .ok frame ∧
      frame.length = containerSize (batcher.queue ++ [message]) := by
  have hfield : maxLengthField < 2 ^ 32 := by decide
  obtain ⟨hqueued, hwithin⟩ := h.bounds
  have hlengths : ∀ one ∈ batcher.queue ++ [message], one.length ≤ maxLengthField :=
    fun one hone => hpack.lengths one hone (List.forall_mem_append.mpr
      ⟨hwithin, List.forall_mem_singleton.mpr hshort⟩ one hone)
  have hcount : (batcher.queue ++ [message]).length < 2 ^ 32 := by
    have hfew := hpack.count
    rw [List.length_append, List.length_singleton] at hfew ⊢
    omega
  exact ⟨_, container_eq hlengths, length_container_eq hcount (container_eq hlengths)⟩

/-! ### Flushing -/

/-- A frame of a flush is one message or the container of several. -/
theorem flush_cases {frame : Bytes} (h : batcher.flush.1 = .ok (some frame)) :
    batcher.queue = [frame] ∨
      2 ≤ batcher.queue.length ∧ Batcher.container batcher.queue = .ok frame := by
  rcases hqueue : batcher.queue with _ | ⟨first, _ | ⟨second, rest⟩⟩
  · simp only [Batcher.flush, hqueue] at h
    cases h
  · simp only [Batcher.flush, hqueue] at h
    cases h
    exact .inl rfl
  · have htwo : 2 ≤ batcher.queue.length := by rw [hqueue]; simp
    exact .inr ⟨hqueue ▸ htwo, hqueue ▸ (flush_eq_ok htwo).mp h⟩

theorem flush_ne_none (h : 2 ≤ batcher.queue.length) : batcher.flush.1 ≠ .ok none := by
  rcases hqueue : batcher.queue with _ | ⟨first, _ | ⟨second, rest⟩⟩
  · simp [hqueue] at h
  · simp [hqueue] at h
  · simp only [Batcher.flush, hqueue, frameOf]
    cases Batcher.container (first :: second :: rest) <;> simp [Except.mapError]

theorem flush_nil (h : batcher.queue = []) : batcher.flush.1 = .ok none := by
  simp only [Batcher.flush, h]
  rfl

theorem flush_singleton {message : Bytes} (h : batcher.queue = [message]) :
    batcher.flush.1 = .ok (some message) := by
  simp only [Batcher.flush, h]
  rfl

/-- Messages that a flush can give as one frame: no more than one, or a container has a length
field for each. -/
def Framable (messages : List Bytes) : Prop :=
  messages.length ≤ 1 ∨ ∀ message ∈ messages, message.length ≤ maxLengthField

/-- **A flush fails exactly if one of several messages is too long for its length field.** -/
theorem flush_ok_iff :
    (∃ frame, batcher.flush.1 = .ok frame) ↔ Framable batcher.queue := by
  by_cases htwo : 2 ≤ batcher.queue.length
  · have hsome : (∃ frame, batcher.flush.1 = .ok frame) ↔
        ∃ frame, Batcher.container batcher.queue = .ok frame := by
      simp only [← flush_eq_ok htwo]
      constructor
      · rintro ⟨_ | frame, hflush⟩
        · exact absurd hflush (flush_ne_none htwo)
        · exact ⟨frame, hflush⟩
      · rintro ⟨frame, hflush⟩
        exact ⟨some frame, hflush⟩
    rw [hsome, container_ok_iff, Framable, or_iff_right (Nat.not_le.mpr htwo)]
  · have hfew : batcher.queue.length ≤ 1 := by omega
    refine ⟨fun _ => .inl hfew, fun _ => ?_⟩
    rcases hqueue : batcher.queue with _ | ⟨first, _ | ⟨second, rest⟩⟩
    · exact ⟨none, flush_nil hqueue⟩
    · exact ⟨some first, flush_singleton hqueue⟩
    · simp [hqueue] at hfew

/-- No frame of a flush is longer than the size that was kept within the limit. -/
theorem Tallied.flush_le (h : batcher.Tallied) {frame : Bytes}
    (hflush : batcher.flush.1 = .ok (some frame)) : frame.length ≤ batcher.maxFrameBytes := by
  rcases flush_cases hflush with hqueue | ⟨htwo, hcontainer⟩
  · simpa [frameLength, hqueue] using h.within
  · have hwithin := h.within
    rw [frameLength_eq htwo, h.entries] at hwithin
    exact Nat.le_trans (length_container_le hcontainer) hwithin

/-- **The size is the length of the frame that a flush gives**, unless there are more messages than
a container can count. -/
theorem Tallied.flush (h : batcher.Tallied)
    (hcount : batcher.queue.length ≤ maxLengthField ∨ batcher.maxFrameBytes ≤ maxLengthField)
    {frame : Option Bytes} (hflush : batcher.flush.1 = .ok frame) :
    batcher.frameLength = (frame.getD []).length := by
  by_cases htwo : 2 ≤ batcher.queue.length
  · have hfew : batcher.queue.length < 2 ^ 32 := by
      have hfield : maxLengthField < 2 ^ 32 := by decide
      have hbounds := h.bounds.1
      omega
    cases frame with
    | none => exact absurd hflush (flush_ne_none htwo)
    | some frame =>
        rw [frameLength_eq htwo, h.entries, Option.getD_some,
          length_container_eq hfew ((flush_eq_ok htwo).mp hflush), containerSize]
  · rcases hqueue : batcher.queue with _ | ⟨first, _ | ⟨second, rest⟩⟩
    · obtain rfl := Except.ok.inj ((flush_nil hqueue).symm.trans hflush)
      simp [frameLength, hqueue]
    · obtain rfl := Except.ok.inj ((flush_singleton hqueue).symm.trans hflush)
      simp [frameLength, hqueue]
    · simp [hqueue] at htwo

/-- The size is zero for an empty queue, and for one empty message. -/
theorem frameLength_eq_zero : batcher.frameLength = 0 ↔
    batcher.flush.1 = .ok none ∨
      batcher.queue = [[]] ∧ batcher.flush.1 = .ok (some []) := by
  rcases hqueue : batcher.queue with _ | ⟨first, _ | ⟨second, rest⟩⟩
  · simp [frameLength, hqueue, flush_nil hqueue]
  · simp [frameLength, hqueue, flush_singleton hqueue]
  · have hsome : batcher.flush.1 ≠ .ok none := flush_ne_none (by simp [hqueue])
    simp [frameLength, hqueue, containerLength, tagBytes, hsome]

theorem flushAfter_eq (frames : List Bytes) (batcher : Batcher) :
    flushAfter frames batcher
      = (batcher.flush.1.map fun queued => frames ++ queued.toList, new batcher.maxFrameBytes) := by
  have hflush : batcher.flush = (batcher.flush.1, new batcher.maxFrameBytes) := rfl
  unfold flushAfter
  rw [hflush]
  cases batcher.flush.1 <;> rfl

/-! ### Pushing -/

variable {message : Outbound}

theorem push_long (h : batcher.maxFrameBytes < message.bytes.length) : batcher.push message
    = (batcher.flush.1.map fun queued => queued.toList ++ [message.bytes],
      new batcher.maxFrameBytes) := by
  unfold push
  rw [if_pos h, flushAfter_eq]
  cases batcher.flush.1 <;> rfl

theorem push_over (hshort : message.bytes.length ≤ batcher.maxFrameBytes)
    (hover : batcher.overflows message.bytes = true) {queued : Option Bytes}
    (hflush : batcher.flush.1 = .ok queued) :
    batcher.push message = pushFitting queued.toList (new batcher.maxFrameBytes) message := by
  unfold push
  rw [if_neg (Nat.not_lt.mpr hshort), if_pos hover, flushAfter_eq, hflush]
  rfl

theorem push_over_error (hshort : message.bytes.length ≤ batcher.maxFrameBytes)
    (hover : batcher.overflows message.bytes = true) {cause : SessionError}
    (hflush : batcher.flush.1 = .error cause) :
    batcher.push message = (.error cause, new batcher.maxFrameBytes) := by
  unfold push
  rw [if_neg (Nat.not_lt.mpr hshort), if_pos hover, flushAfter_eq, hflush]
  rfl

theorem push_fits (hshort : message.bytes.length ≤ batcher.maxFrameBytes)
    (hfits : batcher.overflows message.bytes = false) :
    batcher.push message = pushFitting [] batcher message := by
  unfold push
  rw [if_neg (Nat.not_lt.mpr hshort), if_neg (Bool.eq_false_iff.mp hfits)]

/-- Behind the frames already to be written, a message that fits is queued or flushed. -/
theorem pushFitting_eq (frames : List Bytes) (batcher : Batcher) (message : Outbound) :
    pushFitting frames batcher message = if message.priority = .normal
      then (.ok frames, batcher.enqueue message.bytes)
      else flushAfter frames (batcher.enqueue message.bytes) := by
  unfold pushFitting
  cases message.priority <;> rfl

/-- A batcher that keeps count tells whether the container of its queue and a message would be
too long. -/
theorem Tallied.overflows_iff (h : batcher.Tallied) {message : Bytes} :
    batcher.overflows message = true ↔
      batcher.queue ≠ [] ∧ batcher.maxFrameBytes < containerSize (batcher.queue ++ [message]) := by
  simp [overflows, containerSize, h.entries]

/-- A message that fits alone and with the queue is queued. -/
theorem Tallied.enqueue (h : batcher.Tallied) {message : Bytes}
    (hshort : message.length ≤ batcher.maxFrameBytes)
    (hfits : batcher.overflows message = false) : (batcher.enqueue message).Tallied where
  entries := by simp [Batcher.enqueue, h.entries]
  within := by
    unfold overflows at hfits
    cases hqueue : batcher.queue with
    | nil => simpa [Batcher.enqueue, frameLength, hqueue] using hshort
    | cons first rest =>
        have htwo : 2 ≤ (batcher.enqueue message).queue.length := by
          simp [Batcher.enqueue, hqueue]
        rw [frameLength_eq htwo]
        simpa [Batcher.enqueue, hqueue] using hfits

/-- What a step of a batcher leaves: count is kept, and the limit is the same. -/
def Keeps (batcher after : Batcher) : Prop :=
  after.Tallied ∧ after.maxFrameBytes = batcher.maxFrameBytes

theorem keeps_new (batcher : Batcher) : batcher.Keeps (new batcher.maxFrameBytes) :=
  ⟨tallied_new _, rfl⟩

theorem Tallied.pushFitting (h : batcher.Tallied)
    (hshort : message.bytes.length ≤ batcher.maxFrameBytes)
    (hfits : batcher.overflows message.bytes = false) (frames : List Bytes) :
    batcher.Keeps (Batcher.pushFitting frames batcher message).2 := by
  rw [pushFitting_eq]
  by_cases hnormal : message.priority = .normal
  · rw [if_pos hnormal]
    exact ⟨h.enqueue hshort hfits, rfl⟩
  · rw [if_neg hnormal, flushAfter_eq]
    exact keeps_new batcher

theorem Tallied.push (h : batcher.Tallied) (message : Outbound) :
    batcher.Keeps (batcher.push message).2 := by
  by_cases hlong : batcher.maxFrameBytes < message.bytes.length
  · rw [push_long hlong]
    exact keeps_new batcher
  · have hshort := Nat.le_of_not_lt hlong
    cases hover : batcher.overflows message.bytes with
    | false =>
        rw [push_fits hshort hover]
        exact h.pushFitting hshort hover []
    | true =>
        cases hflush : batcher.flush.1 with
        | error cause =>
            rw [push_over_error hshort hover hflush]
            exact keeps_new batcher
        | ok queued =>
            rw [push_over hshort hover hflush]
            exact (tallied_new batcher.maxFrameBytes).pushFitting hshort rfl _

/-! ### Calls -/

/-- Every call keeps count. -/
theorem Tallied.run (h : batcher.Tallied) (call : BatcherCall) :
    batcher.Keeps (call.run batcher).2 := by
  cases call with
  | push message => exact h.push message
  | flush =>
      rw [BatcherCall.run, flushAfter_eq]
      exact keeps_new batcher

/-- And so do all calls together. -/
theorem Tallied.after (calls : List BatcherCall) :
    ∀ {batcher : Batcher}, batcher.Tallied → batcher.Keeps (batcher.after calls) := by
  induction calls with
  | nil => exact fun h => ⟨h, rfl⟩
  | cons call rest ih =>
      intro batcher h
      obtain ⟨hrun, hlimit⟩ := h.run call
      obtain ⟨hrest, hkept⟩ := ih hrun
      exact ⟨hrest, hkept.trans hlimit⟩

/-- What the size that a batcher answers is worth. -/
structure Measured (batcher : Batcher) : Prop where
  within : batcher.frameLength ≤ batcher.maxFrameBytes
  /-- The size is zero if and only if nothing is flushed, or a single empty message. -/
  zero : batcher.frameLength = 0 ↔
    batcher.flush.1 = .ok none ∨ batcher.queue = [[]] ∧ batcher.flush.1 = .ok (some [])
  /-- The size is that of the frame that is flushed next, unless there are more messages than a
  container can count. -/
  exact : batcher.queue.length ≤ maxLengthField ∨ batcher.maxFrameBytes ≤ maxLengthField →
    ∀ frame : Option Bytes, batcher.flush.1 = .ok frame →
      batcher.frameLength = (frame.getD []).length

theorem Tallied.measured (h : batcher.Tallied) : batcher.Measured :=
  ⟨h.within, frameLength_eq_zero, fun hcount _ => h.flush hcount⟩

/-- What the frames are that a call gives. -/
structure Emits (batcher : Batcher) (call : BatcherCall) (frames : List Bytes) : Prop where
  /-- No frame is longer than the limit, but a message that is so itself. -/
  small : ∀ frame ∈ frames, frame.length ≤ batcher.maxFrameBytes ∨
    ∃ message, call = .push message ∧ frame = message.bytes ∧
      batcher.maxFrameBytes < message.bytes.length
  /-- Such a message travels alone, right behind what was queued before it. -/
  lone : ∀ message, call = .push message → batcher.maxFrameBytes < message.bytes.length →
    ∃ queued : Option Bytes, batcher.flush.1 = .ok queued ∧
      frames = queued.toList ++ [message.bytes]
  /-- Another one that is not urgent gives frames only if the queue has no room for it. -/
  normal : ∀ message, call = .push message → message.priority = .normal → frames ≠ [] →
    batcher.maxFrameBytes < message.bytes.length ∨
      batcher.maxFrameBytes < containerSize (batcher.queue ++ [message.bytes])

/-- The frames of a flush keep the limit. -/
theorem Tallied.flushAfter_le (h : batcher.Tallied) {frames given : List Bytes}
    (hrun : (flushAfter frames batcher).1 = .ok given)
    (hframes : ∀ frame ∈ frames, frame.length ≤ batcher.maxFrameBytes) :
    ∀ frame ∈ given, frame.length ≤ batcher.maxFrameBytes := by
  rw [flushAfter_eq] at hrun
  obtain ⟨queued, hflush, rfl⟩ := Result.of_map_ok hrun
  refine List.forall_mem_append.mpr ⟨hframes, fun frame hframe => ?_⟩
  obtain rfl := Option.mem_toList.mp hframe
  exact h.flush_le hflush

/-- So do those of a message that fits. -/
theorem Tallied.pushFitting_le (h : batcher.Tallied)
    (hshort : message.bytes.length ≤ batcher.maxFrameBytes)
    (hfits : batcher.overflows message.bytes = false) {frames given : List Bytes}
    (hrun : (Batcher.pushFitting frames batcher message).1 = .ok given)
    (hframes : ∀ frame ∈ frames, frame.length ≤ batcher.maxFrameBytes) :
    ∀ frame ∈ given, frame.length ≤ batcher.maxFrameBytes := by
  rw [pushFitting_eq] at hrun
  by_cases hnormal : message.priority = .normal
  · rw [if_pos hnormal] at hrun
    exact Except.ok.inj hrun ▸ hframes
  · rw [if_neg hnormal] at hrun
    exact (h.enqueue hshort hfits).flushAfter_le hrun hframes

theorem Tallied.emits_push_long (h : batcher.Tallied)
    (hlong : batcher.maxFrameBytes < message.bytes.length) {frames : List Bytes}
    (hrun : (batcher.push message).1 = .ok frames) : batcher.Emits (.push message) frames := by
  rw [push_long hlong] at hrun
  obtain ⟨queued, hflush, rfl⟩ := Result.of_map_ok hrun
  refine ⟨List.forall_mem_append.mpr ⟨fun frame hframe => .inl ?_, ?_⟩, ?_, ?_⟩
  · obtain rfl := Option.mem_toList.mp hframe
    exact h.flush_le hflush
  · exact List.forall_mem_singleton.mpr (.inr ⟨message, rfl, rfl, hlong⟩)
  · rintro message ⟨⟩ -
    exact ⟨queued, hflush, rfl⟩
  · rintro message ⟨⟩ - -
    exact .inl hlong

theorem Tallied.emits_push_short (h : batcher.Tallied)
    (hshort : message.bytes.length ≤ batcher.maxFrameBytes) {frames : List Bytes}
    (hrun : (batcher.push message).1 = .ok frames) : batcher.Emits (.push message) frames := by
  have hlone : ∀ other, BatcherCall.push message = .push other →
      batcher.maxFrameBytes < other.bytes.length → ∃ queued : Option Bytes,
        batcher.flush.1 = .ok queued ∧ frames = queued.toList ++ [other.bytes] := by
    rintro message ⟨⟩ hlong
    omega
  cases hover : batcher.overflows message.bytes with
  | false =>
      rw [push_fits hshort hover] at hrun
      refine ⟨fun frame hframe => .inl ?_, hlone, ?_⟩
      · exact h.pushFitting_le hshort hover hrun nofun frame hframe
      · rintro message ⟨⟩ hnormal hframes
        -- a message that has room gives nothing before it is flushed
        rw [pushFitting_eq, if_pos hnormal] at hrun
        exact absurd (Except.ok.inj hrun).symm hframes
  | true =>
      obtain ⟨-, hsize⟩ := h.overflows_iff.mp hover
      refine ⟨fun frame hframe => .inl ?_, hlone, ?_⟩
      · cases hflush : batcher.flush.1 with
        | error cause =>
            rw [push_over_error hshort hover hflush] at hrun
            cases hrun
        | ok queued =>
            rw [push_over hshort hover hflush] at hrun
            refine (tallied_new batcher.maxFrameBytes).pushFitting_le hshort rfl hrun
              (fun first hfirst => ?_) frame hframe
            obtain rfl := Option.mem_toList.mp hfirst
            exact h.flush_le hflush
      · rintro message ⟨⟩ - -
        exact .inr hsize

/-- **What a call gives.** -/
theorem Tallied.emits (h : batcher.Tallied) {call : BatcherCall} {frames : List Bytes}
    (hrun : (call.run batcher).1 = .ok frames) : batcher.Emits call frames := by
  cases call with
  | flush =>
      exact ⟨fun frame hframe => .inl (h.flushAfter_le hrun nofun frame hframe), nofun, nofun⟩
  | push message =>
      by_cases hlong : batcher.maxFrameBytes < message.bytes.length
      · exact h.emits_push_long hlong hrun
      · exact h.emits_push_short (Nat.le_of_not_lt hlong) hrun

/-! ### Calls that succeed -/

theorem flushAfter_ok_iff (frames : List Bytes) (batcher : Batcher) :
    (∃ given, (flushAfter frames batcher).1 = .ok given) ↔ Framable batcher.queue := by
  rw [flushAfter_eq, Result.map_ok_iff, flush_ok_iff]

theorem pushFitting_ok_iff (frames : List Bytes) (batcher : Batcher) (message : Outbound) :
    (∃ given, (Batcher.pushFitting frames batcher message).1 = .ok given) ↔
      message.priority = .normal ∨ Framable (batcher.queue ++ [message.bytes]) := by
  rw [pushFitting_eq]
  by_cases hnormal : message.priority = .normal
  · simp [hnormal]
  · rw [if_neg hnormal, flushAfter_ok_iff, or_iff_right hnormal]
    rfl

/-- **A call fails exactly if it flushes messages that are no frame.** -/
theorem run_ok_iff (batcher : Batcher) (call : BatcherCall) :
    (∃ frames, (call.run batcher).1 = .ok frames) ↔ Framable (call.flushed batcher) := by
  cases call with
  | flush => exact flushAfter_ok_iff [] batcher
  | push message =>
      rw [BatcherCall.run, BatcherCall.flushed]
      by_cases hlong : batcher.maxFrameBytes < message.bytes.length
      · rw [push_long hlong, if_pos (.inl hlong), Result.map_ok_iff, flush_ok_iff]
      · have hshort := Nat.le_of_not_lt hlong
        cases hover : batcher.overflows message.bytes with
        | false =>
            have hfits : ¬ (batcher.maxFrameBytes < message.bytes.length ∨ false = true) := by
              simp [hlong]
            rw [push_fits hshort hover, pushFitting_ok_iff, if_neg hfits]
            by_cases hnormal : message.priority = .normal
            · simp [hnormal, Framable]
            · rw [if_neg hnormal, or_iff_right hnormal]
        | true =>
            rw [if_pos (.inr rfl), ← flush_ok_iff]
            cases hflush : batcher.flush.1 with
            | error cause => simp [push_over_error hshort hover hflush]
            | ok queued =>
                -- the message is alone in the queue then, so flushing it cannot fail
                rw [push_over hshort hover hflush, pushFitting_ok_iff]
                exact ⟨fun _ => ⟨queued, rfl⟩, fun _ => .inr (.inl (Nat.le_refl 1))⟩

/-- Messages that keep the limit are a frame if a container can say what it holds. -/
theorem Packable.framable {limit : Nat} {messages : List Bytes} (h : Packable limit messages)
    (hshort : ∀ message ∈ messages, message.length ≤ limit) : Framable messages :=
  .inr fun message hmem => h.lengths message hmem (hshort message hmem)

theorem Tallied.framable (h : batcher.Tallied) {call : BatcherCall}
    (hpack : Packable batcher.maxFrameBytes (batcher.queue ++ call.messages)) :
    Framable (call.flushed batcher) := by
  have hqueue : Framable batcher.queue :=
    (hpack.sublist (List.sublist_append_left _ _)).framable h.bounds.2
  cases call with
  | flush => exact hqueue
  | push message =>
      rw [BatcherCall.flushed]
      split
      · exact hqueue
      · rename_i hfits
        have hshort := Nat.le_of_not_lt (not_or.mp hfits).1
        split
        · exact .inl (Nat.zero_le 1)
        · exact hpack.framable (List.forall_mem_append.mpr
            ⟨h.bounds.2, List.forall_mem_singleton.mpr hshort⟩)

/-- A call succeeds if the containers can say what they would hold. -/
theorem Tallied.run_ok (h : batcher.Tallied) {call : BatcherCall}
    (hpack : Packable batcher.maxFrameBytes (batcher.queue ++ call.messages)) :
    ∃ frames, (call.run batcher).1 = .ok frames :=
  (run_ok_iff batcher call).mpr (h.framable hpack)

/-! ### Messages that wait -/

/-- A message that is not urgent waits if its container with the queue keeps the limit. -/
theorem Tallied.push_waits (h : batcher.Tallied) (message : Outbound)
    (hnormal : message.priority = .normal)
    (hsize : containerSize (batcher.queue ++ [message.bytes]) ≤ batcher.maxFrameBytes) :
    batcher.push message = (.ok [], batcher.enqueue message.bytes) ∧
      (batcher.enqueue message.bytes).Tallied := by
  have hlength : message.bytes.length < containerSize (batcher.queue ++ [message.bytes]) :=
    length_lt_containerSize (by simp)
  have hshort : message.bytes.length ≤ batcher.maxFrameBytes := by omega
  have hfits : batcher.overflows message.bytes = false := by
    rw [Bool.eq_false_iff]
    intro hover
    exact absurd hsize (Nat.not_le.mpr (h.overflows_iff.mp hover).2)
  refine ⟨?_, h.enqueue hshort hfits⟩
  rw [push_fits hshort hfits, pushFitting_eq, if_pos hnormal]

/-- The batcher after two messages that wait for a flush. -/
def ofPair (limit : Nat) (first second : Bytes) : Batcher :=
  (new limit).after [.push ⟨first, .normal⟩, .push ⟨second, .normal⟩]

theorem containerSize_pair (first second : Bytes) : containerSize [first, second]
    = 5 + entryLength first.length + entryLength second.length := by
  have hcount : Varint.unsignedLength 2 = 1 := by decide
  simp only [containerSize, containerLength, tagBytes, List.length_cons, List.length_nil,
    List.map_cons, List.map_nil, List.sum_cons, List.sum_nil, hcount]
  omega

/-- Two messages whose container keeps the limit wait together. -/
theorem queue_ofPair {limit : Nat} {first second : Bytes}
    (h : containerSize [first, second] ≤ limit) :
    (ofPair limit first second).queue = [first, second] := by
  have hone : containerSize [first] ≤ limit :=
    Nat.le_trans (containerSize_le_append [first] [second]) h
  obtain ⟨hfirst, htallied⟩ := (tallied_new limit).push_waits ⟨first, .normal⟩ rfl hone
  obtain ⟨hsecond, -⟩ := htallied.push_waits ⟨second, .normal⟩ rfl h
  simp only [ofPair, after, List.foldl_cons, List.foldl_nil, BatcherCall.run, hfirst, hsecond]
  rfl

/-! ### The account of a batcher -/

/-- What holds of a batcher and the next call on it. -/
structure Accounts (limit : Nat) (batcher : Batcher) (call : BatcherCall) : Prop where
  limited : batcher.maxFrameBytes = limit
  measured : batcher.Measured
  /-- The next flush gives something unless one of several messages is too long for its length
  field. -/
  flushes : (∃ frame, batcher.flush.1 = .ok frame) ↔ Framable batcher.queue
  emits : ∀ frames, (call.run batcher).1 = .ok frames → batcher.Emits call frames
  /-- A call fails only for the same reason. -/
  succeeds : (∃ frames, (call.run batcher).1 = .ok frames) ↔ Framable (call.flushed batcher)
  /-- This cannot happen as long as the containers can say what they would hold. -/
  framable : Packable limit (batcher.queue ++ call.messages) →
    Framable batcher.queue ∧ Framable (call.flushed batcher)
  /-- The size that a message was found too long for is that of a container. -/
  sized : ∀ message, call = .push message → message.bytes.length ≤ limit →
    Packable limit (batcher.queue ++ [message.bytes]) →
    ∃ frame, Batcher.container (batcher.queue ++ [message.bytes]) = .ok frame ∧
      frame.length = containerSize (batcher.queue ++ [message.bytes])

theorem Tallied.accounts (h : batcher.Tallied) (call : BatcherCall) :
    Accounts batcher.maxFrameBytes batcher call where
  limited := rfl
  measured := h.measured
  flushes := flush_ok_iff
  emits _ := h.emits
  succeeds := run_ok_iff batcher call
  framable hpack :=
    ⟨(hpack.sublist (List.sublist_append_left _ _)).framable h.bounds.2, h.framable hpack⟩
  sized _ _ hshort hpack := h.container hpack hshort

/-- **The sizes of a batcher are accounted for.**  After all calls, whatever was pushed, the size
that it answers keeps the limit, is zero for no frame and for an empty one, and is that of the frame
that a flush gives next.  All frames that a call gives keep the limit but a longer message, which
travels alone right behind the queue; and one that is not urgent gives frames only if it is too long
or the container of the queue and the message would be.  A call fails if it would put a message into
a container whose length does not fit a field of 32 bits, and only then. -/
theorem sizes_accounted (limit : Nat) (calls : List BatcherCall) (call : BatcherCall) :
    Accounts limit ((new limit).after calls) call := by
  obtain ⟨htallied, hlimit⟩ := (tallied_new limit).after calls
  have haccounts := htallied.accounts call
  rwa [hlimit] at haccounts

/-- Two messages, one of them empty, whose container is as long as a frame may be. -/
def brimful : Batcher := (new 8).after [.push ⟨[7], .normal⟩, .push ⟨[], .normal⟩]

/-- A message of one byte more than a frame may have goes behind their container. -/
theorem brimful_accounted : brimful.frameLength = 8 ∧
    brimful.flush.1 = .ok (some [0, 0, 0, 1, 2, 1, 7, 0]) ∧
    ∃ frames : List Bytes,
      ((BatcherCall.push ⟨List.replicate 9 5, .normal⟩).run brimful).1 = .ok frames ∧
      frames = [[0, 0, 0, 1, 2, 1, 7, 0], List.replicate 9 5] := by
  have haccounts := sizes_accounted 8 [.push ⟨[7], .normal⟩, .push ⟨[], .normal⟩]
    (.push ⟨List.replicate 9 5, .normal⟩)
  have hflush : brimful.flush.1 = .ok (some [0, 0, 0, 1, 2, 1, 7, 0]) := by decide +kernel
  obtain ⟨frames, hrun⟩ := haccounts.succeeds.mpr
    (haccounts.framable (.of_limit (by decide) _)).2
  obtain ⟨queued, hqueued, hframes⟩ := (haccounts.emits frames hrun).lone _ rfl (by decide)
  obtain rfl : some _ = queued := Except.ok.inj (hflush.symm.trans hqueued)
  exact ⟨by decide, hflush, frames, hrun, hframes⟩

/-! A message that is too long for its length field, in a frame that may be longer. -/

/-- A message of one byte more than a length field can say. -/
def vast : Bytes := List.replicate 4294967296 0

/-- An empty message waits behind it. -/
def vastQueue : Batcher := ofPair 8589934592 vast []

/-- The size is that of their container, but no flush gives it. -/
theorem vastQueue_not_flushed :
    ¬ (∀ limit calls, ∃ frame : Option Bytes, ((new limit).after calls).flush.1 = .ok frame ∧
      ((new limit).after calls).frameLength = (frame.getD []).length) ∧
      vastQueue.frameLength = 4294967307 ∧
      vastQueue.flush.1 = .error (.codec (.blockTooLong 4294967296 4294967295)) := by
  have hvast : vast.length = 4294967296 := List.length_replicate
  have hsize : containerSize [vast, []] = 4294967307 := by
    rw [containerSize_pair, hvast]
    decide +kernel
  have hqueue : vastQueue.queue = [] ++ vast :: [[]] := queue_ofPair (by rw [hsize]; decide)
  have htwo : 2 ≤ vastQueue.queue.length := by simp [hqueue]
  have hflush : vastQueue.flush.1
      = .error (.codec (.blockTooLong 4294967296 4294967295)) := by
    rw [flush_eq_error hqueue htwo nofun (by rw [hvast]; decide), hvast]
    rfl
  refine ⟨fun hall => ?_, ?_, hflush⟩
  · obtain ⟨frame, hframe, -⟩ := hall 8589934592 [.push ⟨vast, .normal⟩, .push ⟨[], .normal⟩]
    cases hflush.symm.trans hframe
  · obtain ⟨htallied, -⟩ := (tallied_new 8589934592).after
      [.push ⟨vast, .normal⟩, .push ⟨[], .normal⟩]
    have htallied : vastQueue.Tallied := htallied
    rw [frameLength_eq htwo, htallied.entries, hqueue]
    exact hsize

end Batcher

end PathWire

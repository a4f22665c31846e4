/-
Which frames are containers, and of what.

A container is its tag, the number of its messages, and the messages, each behind its length;
nothing follows.  The numbers may be spelled in more groups than they need.  The reader takes
exactly such frames: each of its steps takes exactly the bytes of a part, and so do the parts in a
row.  Its check of the number against the bytes that are left refuses no container, because every
message takes a byte at least, even an empty one.
-/
import PathWire.Proofs.Codec.Grammar
import PathWire.Proofs.Codec.Taken
import PathWire.Proofs.Frame.Batcher

namespace PathWire

/-! ### The grammar -/

/-- Bytes of a length field: a number below `2 ^ 32` in at most five groups. -/
structure Varint.Spells (bytes : Bytes) (number : Nat) : Prop where
  terminated : Terminated bytes
  short : bytes.length ≤ 5
  value : combined bytes = number
  small : number < 2 ^ 32

open Varint (Spells)

/-- Messages one behind the other, each behind its length. -/
inductive Entries : Bytes → List Bytes → Prop
  | none : Entries [] []
  | more {field message rest : Bytes} {messages : List Bytes}
      (hfield : Spells field message.length) (hrest : Entries rest messages) :
      Entries (field ++ message ++ rest) (message :: messages)

/-- A frame that is the container of some messages. -/
def Contains (frame : Bytes) (messages : List Bytes) : Prop :=
  ∃ field entries, frame = Bytes.bigEndian 4 batchTag ++ (field ++ entries) ∧
    Spells field messages.length ∧ Entries entries messages

namespace Varint

theorem Terminated.length_pos {bytes : Bytes} (h : Terminated bytes) : 0 < bytes.length := by
  cases h <;> simp

/-- The length field of a number is read as this number. -/
theorem getU32_eq_ok {bytes rest : Bytes} {value : UInt32} : getU32 bytes = .ok value rest ↔
    ∃ taken, bytes = taken ++ rest ∧ Spells taken value.toNat := by
  refine (Format.exact_u32.reads bytes value rest).trans (exists_congr fun taken => ?_)
  refine and_congr_right fun _ => ?_
  constructor
  · rintro ⟨hterminated, hshort, hvalue⟩
    exact ⟨hterminated, hshort, Nat.cast_inj.mp hvalue, value.toNat_lt⟩
  · rintro ⟨hterminated, hshort, hvalue, -⟩
    exact ⟨hterminated, hshort, congrArg Nat.cast hvalue⟩

end Varint

/-- Every message takes one byte more than its own. -/
theorem Entries.length_le {entries : Bytes} {messages : List Bytes} (h : Entries entries messages) :
    messages.length + (messages.map List.length).sum ≤ entries.length := by
  induction h with
  | none => exact Nat.le_refl _
  | more hfield _ ih =>
      have hpos := hfield.terminated.length_pos
      simp only [List.length_cons, List.map_cons, List.sum_cons, List.length_append]
      omega

/-- A container has room for its tag, its number and more than its messages. -/
theorem Contains.length_le {frame : Bytes} {messages : List Bytes} (h : Contains frame messages) :
    messages.length + (messages.map List.length).sum + 5 ≤ frame.length := by
  obtain ⟨field, entries, rfl, hfield, hentries⟩ := h
  have hpos := hfield.terminated.length_pos
  have hroom := hentries.length_le
  simp only [List.length_append, Bytes.length_bigEndian]
  omega

/-! ### Exact readers -/

namespace FrameReader

variable {α : Type}

/-- A reader that takes exactly the bytes of a grammar. -/
def Parses (read : FrameReader α) (grammar : Bytes → α → Prop) : Prop :=
  ∀ bytes value after, read (.ofBytes bytes) = .ok value after ↔
    ∃ taken rest, bytes = taken ++ rest ∧ grammar taken value ∧ after = .ofBytes rest

theorem Parses.of_ok {read : FrameReader α} {grammar : Bytes → α → Prop}
    (h : Parses read grammar) {bytes : Bytes} {value : α} {after : Decoder}
    (hread : read (.ofBytes bytes) = .ok value after) :
    ∃ taken rest, bytes = taken ++ rest ∧ grammar taken value ∧ after = .ofBytes rest :=
  (h bytes value after).mp hread

theorem Parses.ok {read : FrameReader α} {grammar : Bytes → α → Prop}
    (h : Parses read grammar) {taken : Bytes} {value : α} (hvalue : grammar taken value)
    (rest : Bytes) : read (.ofBytes (taken ++ rest)) = .ok value (.ofBytes rest) :=
  (h _ _ _).mpr ⟨taken, rest, rfl, hvalue, rfl⟩

end FrameReader

theorem Decoder.plain_ofBytes (bytes : Bytes) : (ofBytes bytes).Plain := ⟨rfl, Nat.zero_lt_succ 7⟩

namespace FrameReader

theorem parses_u32 : Parses Reader.u32.inFrame
    fun taken value => taken = Bytes.bigEndian 4 value.toNat := by
  intro bytes value after
  constructor
  · intro h
    have h := Step.adapt_ok.mp h
    by_cases hshort : bytes.length < 4
    · rw [Reader.u32_short hshort] at h
      cases h
    · have hfour : (bytes.take 4).length = 4 := List.length_take_of_le (Nat.le_of_not_lt hshort)
      have hread := Reader.u32_long hfour (bytes.drop 4)
      rw [List.take_append_drop, h] at hread
      cases hread
      have hsize : Bytes.toNat (bytes.take 4) < 2 ^ 32 := by
        have hlt := Bytes.toNat_lt (bytes.take 4)
        rw [hfour] at hlt
        exact Nat.lt_of_lt_of_eq hlt (by decide)
      have hback : bytes.take 4
          = Bytes.bigEndian 4 (UInt32.ofNat (Bytes.toNat (bytes.take 4))).toNat := by
        have hsame := Bytes.bigEndian_toNat (bytes.take 4)
        rw [hfour] at hsame
        rw [UInt32.toNat_ofNat_of_lt' hsize, hsame]
      exact ⟨bytes.take 4, bytes.drop 4, (List.take_append_drop 4 bytes).symm, hback, rfl⟩
  · rintro ⟨taken, rest, rfl, rfl, rfl⟩
    exact Step.adapt_ok.mpr (Reader.u32_bytes value rest)

theorem parses_expectTag {tag : Nat} (htag : tag < 2 ^ 32) :
    Parses (expectTag tag) fun taken _ => taken = Bytes.bigEndian 4 tag := by
  intro bytes value after
  constructor
  · intro h
    obtain ⟨found, between, hfound, hcheck⟩ := Step.of_bind_ok h
    obtain ⟨taken, rest, rfl, rfl, rfl⟩ := parses_u32.of_ok hfound
    by_cases hsame : found.toNat = tag
    · simp only [hsame, bne_self_eq_false, Bool.false_eq_true, if_false] at hcheck
      cases hcheck
      exact ⟨_, rest, rfl, by rw [hsame], rfl⟩
    · have hother : (found.toNat != tag) = true := bne_iff_ne.mpr hsame
      simp only [hother, if_true] at hcheck
      cases hcheck
  · rintro ⟨taken, rest, rfl, rfl, rfl⟩
    exact expectTag_bytes htag rest

theorem parses_varU32 :
    Parses Reader.varU32.inFrame fun taken value => Spells taken value.toNat := by
  intro bytes value after
  constructor
  · intro h
    have hread := Reader.aligned_ok (Decoder.plain_ofBytes bytes) (Step.adapt_ok.mp h)
    obtain ⟨hstep, hafter⟩ := Reader.onBytes_of_ok hread
    obtain ⟨taken, hbytes, hspells⟩ := Varint.getU32_eq_ok.mp hstep
    exact ⟨taken, after.rest, hbytes, hspells, hafter⟩
  · rintro ⟨taken, rest, rfl, hspells, rfl⟩
    exact Step.adapt_ok.mpr
      (Reader.onBytes_ok (Varint.getU32_eq_ok.mpr ⟨taken, rfl, hspells⟩))

/-- A message is read behind its length. -/
theorem parses_byteBlock (limit : Nat) : Parses (Reader.byteBlock limit).inFrame
    fun taken message => ∃ field, taken = field ++ message ∧ Spells field message.length ∧
      message.length ≤ limit := by
  intro bytes message after
  constructor
  · intro h
    have hread := Reader.aligned_ok (Decoder.plain_ofBytes bytes) (Step.adapt_ok.mp h)
    obtain ⟨length, between, hlength, hrest⟩ := Step.of_bind_ok hread
    obtain ⟨hstep, hbetween⟩ := Reader.onBytes_of_ok hlength
    obtain ⟨field, hbytes, hspells⟩ := Varint.getU32_eq_ok.mp hstep
    by_cases hlong : limit < length.toNat
    · rw [if_pos hlong] at hrest
      cases hrest
    · rw [if_neg hlong] at hrest
      obtain ⟨hcount, hdata, hafter⟩ := Reader.take_ok hrest
      refine ⟨field ++ message, after.rest, ?_, ⟨field, rfl, ?_, ?_⟩, ?_⟩
      · rw [List.append_assoc, ← hdata]
        exact hbytes
      · rwa [hcount]
      · omega
      · rw [hafter, hbetween]
        rfl
  · rintro ⟨taken, rest, rfl, ⟨field, rfl, hspells, hlimit⟩, rfl⟩
    have hlength : (UInt32.ofNat message.length).toNat = message.length :=
      UInt32.toNat_ofNat_of_lt' hspells.small
    have hfield : Varint.getU32 (field ++ (message ++ rest))
        = .ok (UInt32.ofNat message.length) (message ++ rest) :=
      Varint.getU32_eq_ok.mpr ⟨field, rfl, by rwa [hlength]⟩
    have hcounted : Reader.counted limit .blockTooLong (.ofBytes (field ++ (message ++ rest)))
        = .ok message (.ofBytes rest) := by
      refine (Step.bind_ok rfl).trans ((Step.bind_ok (Reader.onBytes_ok hfield)).trans ?_)
      rw [hlength, if_neg (Nat.not_lt.mpr hlimit)]
      exact Reader.take_append message rest [] none
    rw [List.append_assoc]
    exact Step.adapt_ok.mpr hcounted

theorem parses_entries (limit : Nat) : ∀ count, Parses (entries limit count)
    fun taken messages => messages.length = count ∧ Entries taken messages ∧
      ∀ message ∈ messages, message.length ≤ limit := by
  intro count
  induction count with
  | zero =>
      intro bytes messages after
      constructor
      · intro h
        cases h
        exact ⟨[], bytes, rfl, ⟨rfl, .none, nofun⟩, rfl⟩
      · rintro ⟨taken, rest, rfl, ⟨hcount, hentries, -⟩, rfl⟩
        obtain rfl := List.length_eq_zero_iff.mp hcount
        cases hentries
        rfl
  | succ count ih =>
      intro bytes messages after
      constructor
      · intro h
        obtain ⟨message, between, hmessage, hrest⟩ := Step.of_bind_ok h
        obtain ⟨taken, behind, rfl, ⟨field, rfl, hfield, hlimit⟩, rfl⟩ :=
          (parses_byteBlock limit).of_ok hmessage
        obtain ⟨others, final, hothers, hreturn⟩ := Step.of_bind_ok hrest
        obtain ⟨tail, rest, rfl, ⟨hcount, hentries, hlimits⟩, rfl⟩ := ih.of_ok hothers
        cases hreturn
        refine ⟨field ++ message ++ tail, rest, (List.append_assoc _ _ _).symm, ⟨?_, ?_, ?_⟩, rfl⟩
        · rw [List.length_cons, hcount]
        · exact .more hfield hentries
        · exact List.forall_mem_cons.mpr ⟨hlimit, hlimits⟩
      · rintro ⟨taken, rest, rfl, ⟨hcount, hentries, hlimits⟩, rfl⟩
        cases hentries with
        | none => cases hcount
        | @more field message tail others hfield hothers =>
            obtain ⟨hlimit, hlimits⟩ := List.forall_mem_cons.mp hlimits
            have hfirst := (parses_byteBlock limit).ok ⟨field, rfl, hfield, hlimit⟩ (tail ++ rest)
            have hrest := ih.ok ⟨Nat.succ.inj hcount, hothers, hlimits⟩ rest
            rw [List.append_assoc]
            exact (Step.bind_ok hfirst).trans (Step.bind_ok hrest)

theorem finish_ok {dec after : Decoder} {done : Unit} (h : finish dec = .ok done after) :
    dec.rest = [] ∧ after = dec := by
  obtain ⟨same, between, hget, hcheck⟩ := Step.of_bind_ok h
  cases hget
  by_cases hleft : dec.remaining = 0
  · simp only [hleft, bne_self_eq_false, Bool.false_eq_true, if_false] at hcheck
    cases hcheck
    exact ⟨List.length_eq_zero_iff.mp hleft, rfl⟩
  · simp only [bne_iff_ne.mpr hleft, if_true] at hcheck
    cases hcheck

/-- What the reader of containers accepts is one. -/
theorem contains_of_container {limit : Nat} {frame : Bytes} {messages : List Bytes}
    {after : Decoder} (h : container limit (.ofBytes frame) = .ok messages after) :
    Contains frame messages := by
  obtain ⟨⟨⟩, behindTag, htag, h⟩ := Step.of_bind_ok h
  obtain ⟨taken, rest, rfl, rfl, rfl⟩ := (parses_expectTag (by decide)).of_ok htag
  obtain ⟨count, behindCount, hcount, h⟩ := Step.of_bind_ok h
  obtain ⟨field, behind, rfl, hfield, rfl⟩ := parses_varU32.of_ok hcount
  obtain ⟨place, same, hplace, h⟩ := Step.of_bind_ok h
  cases hplace
  by_cases hclaim : (Decoder.ofBytes behind).remaining < count.toNat
  · rw [if_pos hclaim] at h
    cases h
  · rw [if_neg hclaim] at h
    obtain ⟨found, behindEntries, hread, h⟩ := Step.of_bind_ok h
    obtain ⟨entries, left, rfl, ⟨hlength, hentries, -⟩, rfl⟩ := (parses_entries limit _).of_ok hread
    obtain ⟨⟨⟩, final, hfinish, hreturn⟩ := Step.of_bind_ok h
    cases hreturn
    obtain ⟨hleft, -⟩ := finish_ok hfinish
    obtain rfl : left = [] := hleft
    rw [List.append_nil]
    exact ⟨field, entries, rfl, by rwa [hlength], hentries⟩

/-- And it accepts every container whose messages are not too long for it. -/
theorem container_of_contains {limit : Nat} {frame : Bytes} {messages : List Bytes}
    (h : Contains frame messages) (hlimit : ∀ message ∈ messages, message.length ≤ limit) :
    container limit (.ofBytes frame) = .ok messages (.ofBytes []) := by
  obtain ⟨field, entries, rfl, hfield, hentries⟩ := h
  have hcount : (UInt32.ofNat messages.length).toNat = messages.length :=
    UInt32.toNat_ofNat_of_lt' hfield.small
  have htag : expectTag batchTag (.ofBytes (Bytes.bigEndian 4 batchTag ++ (field ++ entries)))
      = .ok () (.ofBytes (field ++ entries)) := expectTag_bytes (by decide) _
  have hnumber : Reader.varU32.inFrame (.ofBytes (field ++ entries))
      = .ok (UInt32.ofNat messages.length) (.ofBytes entries) :=
    parses_varU32.ok (by rwa [hcount]) entries
  have hplace : (get : FrameReader Decoder) (.ofBytes entries)
      = .ok (.ofBytes entries) (.ofBytes entries) := rfl
  have hclaim : ¬ (Decoder.ofBytes entries).remaining < messages.length :=
    Nat.not_lt.mpr (Nat.le_trans (Nat.le_add_right _ _) hentries.length_le)
  have hread := (parses_entries limit messages.length).ok ⟨rfl, hentries, hlimit⟩ []
  rw [List.append_nil] at hread
  unfold container
  rw [Step.bind_ok htag, Step.bind_ok hnumber, Step.bind_ok hplace, hcount, if_neg hclaim]
  exact (Step.bind_ok hread).trans (Step.bind_ok finish_nil)

end FrameReader

/-! ### Taking a frame apart -/

/-- **A frame is taken apart if and only if it is a container**, into the messages that it
contains. -/
theorem splitBatch_eq_ok {frame : Bytes} {messages : List Bytes} :
    splitBatch frame = .ok messages ↔ Contains frame messages := by
  constructor
  · intro h
    unfold splitBatch FrameReader.run at h
    cases hread : FrameReader.container frame.length (.ofBytes frame) with
    | ok found after =>
        simp only [hread, Except.ok.injEq] at h
        subst h
        exact FrameReader.contains_of_container hread
    | error cause after => simp [hread] at h
  · intro h
    refine FrameReader.run_ok (FrameReader.container_of_contains h fun message hmem => ?_)
    have hsum := List.single_le_sum (fun _ _ => Nat.zero_le _) _
      (List.mem_map_of_mem (f := List.length) hmem)
    have hroom := h.length_le
    omega

theorem splitBatch_eq_error {frame : Bytes} (h : ∀ messages, ¬ Contains frame messages) :
    ∃ cause, splitBatch frame = .error cause := by
  cases hsplit : splitBatch frame with
  | ok messages => exact absurd (splitBatch_eq_ok.mp hsplit) (h messages)
  | error cause => exact ⟨cause, rfl⟩

/-! ### Flushed containers -/

namespace Batcher

/-- A message whose length fits no field stops the entries. -/
theorem lengths_of_writeEntries (messages : List Bytes) : ∀ {enc after : Encoder},
    writeEntries messages enc = .ok after →
      ∀ message ∈ messages, message.length ≤ maxLengthField := by
  induction messages with
  | nil => exact fun _ => nofun
  | cons message rest ih =>
      intro enc after h
      obtain ⟨between, hwrite, hrest⟩ := Result.of_bind_ok h
      by_cases hlength : message.length ≤ maxLengthField
      · exact List.forall_mem_cons.mpr ⟨hlength, ih hrest⟩
      · unfold Encoder.writeByteBlock at hwrite
        rw [if_neg hlength] at hwrite
        cases hwrite

theorem container_ok_iff {messages : List Bytes} : (∃ frame, container messages = .ok frame) ↔
    ∀ message ∈ messages, message.length ≤ maxLengthField := by
  constructor
  · rintro ⟨frame, h⟩
    obtain ⟨after, hentries, -⟩ := Result.of_bind_ok h
    exact lengths_of_writeEntries messages hentries
  · exact fun h => ⟨_, container_eq h⟩

/-- The first message that is too long for its length field stops the entries. -/
theorem writeEntries_error {message : Bytes} (hlong : maxLengthField < message.length)
    (rest first : List Bytes) : ∀ enc, (∀ one ∈ first, one.length ≤ maxLengthField) →
      writeEntries (first ++ message :: rest) enc
        = .error (.blockTooLong message.length maxLengthField) := by
  induction first with
  | nil =>
      intro enc _
      have hwrite : enc.writeByteBlock message
          = .error (.blockTooLong message.length maxLengthField) := if_neg (Nat.not_le.mpr hlong)
      show (enc.writeByteBlock message >>= writeEntries rest) = _
      rw [hwrite]
      rfl
  | cons one others ih =>
      intro enc hfirst
      obtain ⟨hone, hothers⟩ := List.forall_mem_cons.mp hfirst
      have hwrite : enc.writeByteBlock one
          = .ok ((enc.record .byteBlock).append (Encoder.counted one)) := if_pos hone
      exact (Result.bind_ok hwrite).trans (ih _ hothers)

/-- A queue of several messages is flushed as their container. -/
theorem flush_eq {batcher : Batcher} (h : 2 ≤ batcher.queue.length) :
    batcher.flush.1 = ((container batcher.queue).map some).mapError .codec := by
  have hframe : frameOf batcher.queue = (container batcher.queue).map some := by
    rcases hqueue : batcher.queue with _ | ⟨first, _ | ⟨second, rest⟩⟩
    · simp [hqueue] at h
    · simp [hqueue] at h
    · show (container (first :: second :: rest) >>= fun frame => return some frame) = _
      cases container (first :: second :: rest) <;> rfl
  rw [flush, hframe]

theorem flush_eq_ok {batcher : Batcher} (h : 2 ≤ batcher.queue.length) {frame : Bytes} :
    batcher.flush.1 = .ok (some frame) ↔ container batcher.queue = .ok frame := by
  rw [flush_eq h]
  cases container batcher.queue with
  | ok found => simp [Except.map, Except.mapError]
  | error cause => simp [Except.map, Except.mapError]

/-- A flush fails at the first of several messages that is too long for its length field. -/
theorem flush_eq_error {batcher : Batcher} {first rest : List Bytes} {message : Bytes}
    (hqueue : batcher.queue = first ++ message :: rest) (htwo : 2 ≤ batcher.queue.length)
    (hfirst : ∀ one ∈ first, one.length ≤ maxLengthField)
    (hlong : maxLengthField < message.length) :
    batcher.flush.1 = .error (.codec (.blockTooLong message.length maxLengthField)) := by
  have hcontainer : container batcher.queue
      = .error (.blockTooLong message.length maxLengthField) := by
    show (writeEntries batcher.queue ((Encoder.empty.writeU32 (UInt32.ofNat batchTag)).writeVarU32
      (UInt32.ofNat batcher.queue.length)) >>= fun enc => return enc.bytes) = _
    rw [hqueue, writeEntries_error hlong rest first _ hfirst]
    rfl
  rw [flush_eq htwo, hcontainer]
  rfl

end Batcher

end PathWire

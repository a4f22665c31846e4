/-
What a frame holds is found in it again.

A frame is a container, an advertisement or one message, and a reader tells which by the first
four bytes alone.  The messages of a container stand one behind the other, each behind its length,
so taking a container apart is an induction on them.
-/
import PathWire.Frame.Advert
import PathWire.Proofs.Codec.RoundTrip
import PathWire.Proofs.Peer.Receive
import PathWire.Session.Basic

namespace PathWire

/-! ### Whole bytes -/

/-- A field of whole bytes is read from the bytes that it was written in. -/
theorem Mirrors.on_bytes {ε α : Type} {read : EStateM ε Decoder α} {value : α} {op : Op}
    {bytes : Bytes} (h : Mirrors read value .empty ((Encoder.empty.record op).append bytes))
    (rest : Bytes) : read (.ofBytes (bytes ++ rest)) = .ok value (.ofBytes rest) := by
  refine h.from_start (.aligned rfl ?_)
  rw [Encoder.done_append]
  rfl

namespace Reader

theorem u32_bytes (number : UInt32) (rest : Bytes) :
    u32 (.ofBytes (Bytes.bigEndian 4 number.toNat ++ rest)) = .ok number (.ofBytes rest) :=
  (mirrors_machineWord .u32 .u32 .empty number).on_bytes rest

/-- Any four bytes are a number. -/
theorem u32_long {bytes : Bytes} (h : bytes.length = 4) (rest : Bytes) :
    u32 (.ofBytes (bytes ++ rest)) = .ok (UInt32.ofNat (Bytes.toNat bytes)) (.ofBytes rest) := by
  have htake := take_append bytes rest [] none
  rw [h] at htake
  have hword : word .u32 4 (.ofBytes (bytes ++ rest))
      = .ok (Bytes.toNat bytes) (.ofBytes rest) := by
    unfold word
    exact Step.bind_ok htake
  exact Step.bind_ok hword

/-- Fewer bytes are none. -/
theorem u32_short {bytes : Bytes} (h : bytes.length < 4) :
    u32 (.ofBytes bytes) = .error (.unexpectedEof 4 bytes.length) (.ofBytes bytes) := by
  have hensure : ensure 4 (.ofBytes bytes)
      = .error (.unexpectedEof 4 bytes.length) (.ofBytes bytes) := by
    show (if bytes.length < 4 then throw (.unexpectedEof 4 bytes.length)
      else pure () : Reader Unit) (.ofBytes bytes) = _
    rw [if_pos h]
    rfl
  have htake : take 4 (.ofBytes bytes)
      = .error (.unexpectedEof 4 bytes.length) (.ofBytes bytes) := Step.bind_error hensure
  have hword : word .u32 4 (.ofBytes bytes)
      = .error (.unexpectedEof 4 bytes.length) (.ofBytes bytes) := by
    have hexpect : expect .u32 (.ofBytes bytes) = .ok () (.ofBytes bytes) := rfl
    have halign : align (.ofBytes bytes) = .ok () (.ofBytes bytes) := rfl
    unfold word
    rw [Step.bind_ok hexpect, Step.bind_ok halign, Step.bind_error htake]
  exact Step.bind_error hword

theorem varU32_bytes (number : UInt32) (rest : Bytes) :
    varU32 (.ofBytes (Varint.putU32 number ++ rest)) = .ok number (.ofBytes rest) :=
  (mirrors_varint .varU32 (Varint.getU32_putU32 number) .empty).on_bytes rest

theorem byteBlock_bytes {data : Bytes} {limit : Nat} (hfield : data.length ≤ maxLengthField)
    (hlimit : data.length ≤ limit) (rest : Bytes) :
    byteBlock limit (.ofBytes (Encoder.counted data ++ rest)) = .ok data (.ofBytes rest) :=
  (mirrors_byteBlock (if_pos hfield) hlimit).on_bytes rest

end Reader

namespace FrameReader

theorem expectTag_bytes {tag : Nat} (htag : tag < 2 ^ 32) (rest : Bytes) :
    expectTag tag (.ofBytes (Bytes.bigEndian 4 tag ++ rest)) = .ok () (.ofBytes rest) := by
  have hfield : (UInt32.ofNat tag).toNat = tag := UInt32.toNat_ofNat_of_lt' htag
  have hread : Reader.u32.inFrame _ = _ :=
    Step.adapt_ok.mpr (Reader.u32_bytes (UInt32.ofNat tag) rest)
  rw [hfield] at hread
  unfold expectTag
  rw [Step.bind_ok hread]
  simp only [hfield, bne_self_eq_false, Bool.false_eq_true, if_false]
  rfl

theorem finish_nil : finish (.ofBytes []) = .ok () (.ofBytes []) := rfl

theorem run_ok {α : Type} {step : FrameReader α} {value : α} {frame : Bytes} {after : Decoder}
    (h : step (.ofBytes frame) = .ok value after) : step.run frame = .ok value := by
  simp only [run, h]

end FrameReader

/-! ### Tags -/

namespace Session

/-- A frame that starts with a tag has it. -/
theorem frameTag?_bytes {tag : Nat} (htag : tag < 2 ^ 32) (rest : Bytes) :
    frameTag? (Bytes.bigEndian 4 tag ++ rest) = some tag := by
  have hlength : (Bytes.bigEndian 4 tag).length = tagBytes := Bytes.length_bigEndian 4 tag
  have hroom : tagBytes ≤ (Bytes.bigEndian 4 tag ++ rest).length := by
    rw [List.length_append, hlength]
    exact Nat.le_add_right _ _
  have htake : (Bytes.bigEndian 4 tag ++ rest).take tagBytes = Bytes.bigEndian 4 tag :=
    List.take_left' hlength
  rw [frameTag?, if_pos hroom, htake, Bytes.toNat_bigEndian_of_lt (by omega)]

/-- A message's own tag is the tag of the frame that is this message. -/
theorem frameTag?_message {message : Bytes} {tag : Nat} (h : messageTag? message = some tag) :
    frameTag? message = some tag := by
  unfold messageTag? at h
  by_cases hroom : tagBytes ≤ message.length
  · have hlength : (message.take tagBytes).length = tagBytes := by
      rw [List.length_take, Nat.min_eq_left hroom]
    have hsize : Bytes.toNat (message.take tagBytes) < 2 ^ 32 := by
      have hlt := Bytes.toNat_lt (message.take tagBytes)
      rw [hlength] at hlt
      exact Nat.lt_of_lt_of_eq hlt (by decide)
    have hread := Reader.u32_long hlength (message.drop tagBytes)
    rw [List.take_append_drop] at hread
    simp only [hread, UInt32.toNat_ofNat_of_lt' hsize] at h
    rw [frameTag?, if_pos hroom, h]
  · simp only [Reader.u32_short (Nat.lt_of_not_le hroom)] at h
    cases h

end Session

/-! ### Advertisements -/

theorem encodeAdvert_eq (cap : UInt32) : encodeAdvert cap
    = Bytes.bigEndian 4 bandwidthTag ++ Varint.putU32 cap := by
  have htag : (UInt32.ofNat bandwidthTag).toNat = bandwidthTag := rfl
  simp [encodeAdvert, Encoder.writeU32, Encoder.writeVarU32, Encoder.append, Encoder.bytes,
    Encoder.rollingBytes, Encoder.record, Encoder.empty, htag]

/-- **An advertised cap is read back.** -/
theorem decodeAdvert_encodeAdvert (cap : UInt32) : decodeAdvert (encodeAdvert cap) = .ok cap := by
  have hvalue : Reader.varU32.inFrame _ = _ := Step.adapt_ok.mpr (Reader.varU32_bytes cap [])
  rw [List.append_nil] at hvalue
  have hadvert : FrameReader.advert (.ofBytes (encodeAdvert cap)) = .ok cap (.ofBytes []) := by
    rw [encodeAdvert_eq]
    unfold FrameReader.advert
    rw [Step.bind_ok (FrameReader.expectTag_bytes (by decide) _), Step.bind_ok hvalue,
      Step.bind_ok FrameReader.finish_nil]
    rfl
  exact FrameReader.run_ok hadvert

/-! ### Containers -/

namespace Batcher

/-- The entries of a container are written one behind the other. -/
theorem writeEntries_ok (messages : List Bytes) : ∀ {enc : Encoder},
    (∀ message ∈ messages, message.length ≤ maxLengthField) → enc.rolling = [] →
    ∃ after, writeEntries messages enc = .ok after ∧
      after.bytes = enc.bytes ++ messages.flatMap Encoder.counted := by
  induction messages with
  | nil =>
      intro enc _ _
      exact ⟨enc, rfl, (List.append_nil _).symm⟩
  | cons message rest ih =>
      intro enc hlengths hrolling
      obtain ⟨hmessage, hrest⟩ := List.forall_mem_cons.mp hlengths
      have hwrite : enc.writeByteBlock message
          = .ok ((enc.record .byteBlock).append (Encoder.counted message)) := if_pos hmessage
      have hrolled : ((enc.record .byteBlock).append (Encoder.counted message)).rolling = [] := rfl
      obtain ⟨after, hafter, hbytes⟩ := ih hrest hrolled
      refine ⟨after, (Result.bind_ok hwrite).trans hafter, ?_⟩
      rw [hbytes, List.flatMap_cons, ← List.append_assoc]
      simp [Encoder.append, Encoder.bytes, Encoder.record, Encoder.rollingBytes, hrolling]

/-- The bytes of a container. -/
theorem container_eq {messages : List Bytes}
    (h : ∀ message ∈ messages, message.length ≤ maxLengthField) :
    container messages = .ok (Bytes.bigEndian 4 batchTag
      ++ (Varint.putU32 (UInt32.ofNat messages.length) ++ messages.flatMap Encoder.counted)) := by
  have htag : (UInt32.ofNat batchTag).toNat = batchTag := rfl
  have hrolled : ((Encoder.empty.writeU32 (UInt32.ofNat batchTag)).writeVarU32
      (UInt32.ofNat messages.length)).rolling = [] := rfl
  obtain ⟨after, hentries, hbytes⟩ := writeEntries_ok messages h hrolled
  unfold container
  rw [Result.bind_ok hentries, hbytes]
  simp [Encoder.writeU32, Encoder.writeVarU32, Encoder.append, Encoder.bytes,
    Encoder.rollingBytes, Encoder.record, Encoder.empty, htag]
  rfl

end Batcher

theorem Encoder.length_counted (data : Bytes) : data.length < (Encoder.counted data).length := by
  have hfield : 0 < (Varint.putUnsigned data.length).length := by
    unfold Varint.putUnsigned
    split <;> simp
  unfold Encoder.counted
  rw [List.length_append]
  omega

namespace FrameReader

/-- The entries of a container are read one after the other. -/
theorem entries_bytes {limit : Nat} (rest : Bytes) (messages : List Bytes) :
    (∀ message ∈ messages, message.length ≤ maxLengthField ∧ message.length ≤ limit) →
    entries limit messages.length (.ofBytes (messages.flatMap Encoder.counted ++ rest))
      = .ok messages (.ofBytes rest) := by
  induction messages with
  | nil => exact fun _ => rfl
  | cons message others ih =>
      intro h
      obtain ⟨⟨hfield, hlimit⟩, hothers⟩ := List.forall_mem_cons.mp h
      have hread : (Reader.byteBlock limit).inFrame _ = _ := Step.adapt_ok.mpr
        (Reader.byteBlock_bytes hfield hlimit (others.flatMap Encoder.counted ++ rest))
      rw [List.flatMap_cons, List.length_cons, List.append_assoc]
      unfold entries
      rw [Step.bind_ok hread, Step.bind_ok (ih hothers)]
      rfl

end FrameReader

/-- Every entry is longer than its message, and there are as many as messages. -/
theorem length_entries (messages : List Bytes) :
    messages.length ≤ (messages.flatMap Encoder.counted).length ∧
      ∀ message ∈ messages, message.length ≤ (messages.flatMap Encoder.counted).length := by
  induction messages with
  | nil => exact ⟨Nat.le_refl _, nofun⟩
  | cons message rest ih =>
      obtain ⟨hcount, hlengths⟩ := ih
      have hmessage := Encoder.length_counted message
      rw [List.flatMap_cons, List.length_append, List.length_cons]
      refine ⟨by omega, List.forall_mem_cons.mpr ⟨by omega, fun other hother => ?_⟩⟩
      have hother := hlengths other hother
      omega

namespace FrameReader

/-- A container is read up to the number of messages that it says it has. -/
theorem container_entries {limit : Nat} {count : UInt32} {entries : Bytes}
    (hroom : count.toNat ≤ entries.length) : container limit (.ofBytes (Bytes.bigEndian 4 batchTag
      ++ (Varint.putU32 count ++ entries))) = (do
        let messages ← FrameReader.entries limit count.toNat
        finish
        return messages : FrameReader (List Bytes)) (.ofBytes entries) := by
  have hnumber : Reader.varU32.inFrame _ = _ :=
    Step.adapt_ok.mpr (Reader.varU32_bytes count entries)
  have hplace : (get : FrameReader Decoder) (.ofBytes entries)
      = .ok (.ofBytes entries) (.ofBytes entries) := rfl
  have hfits : ¬ (Decoder.ofBytes entries).remaining < count.toNat := Nat.not_lt.mpr hroom
  unfold container
  rw [Step.bind_ok (expectTag_bytes (by decide) _), Step.bind_ok hnumber, Step.bind_ok hplace,
    if_neg hfits]

/-- A container is read up to its end. -/
theorem container_bytes {messages : List Bytes} {limit : Nat} (hcount : messages.length < 2 ^ 32)
    (h : ∀ message ∈ messages, message.length ≤ maxLengthField ∧ message.length ≤ limit) :
    container limit (.ofBytes (Bytes.bigEndian 4 batchTag
      ++ (Varint.putU32 (UInt32.ofNat messages.length) ++ messages.flatMap Encoder.counted)))
      = .ok messages (.ofBytes []) := by
  have hfield : (UInt32.ofNat messages.length).toNat = messages.length :=
    UInt32.toNat_ofNat_of_lt' hcount
  have hentries := entries_bytes [] messages h
  rw [List.append_nil] at hentries
  rw [container_entries (by rw [hfield]; exact (length_entries messages).1), hfield]
  exact (Step.bind_ok hentries).trans (Step.bind_ok finish_nil)

end FrameReader

/-- **The messages of a container are found in it again**, if their number and their lengths fit
their fields. -/
theorem splitBatch_container {messages : List Bytes} {frame : Bytes}
    (hcount : messages.length < 2 ^ 32)
    (hlengths : ∀ message ∈ messages, message.length ≤ maxLengthField)
    (h : Batcher.container messages = .ok frame) :
    Session.frameTag? frame = some batchTag ∧ splitBatch frame = .ok messages := by
  obtain rfl := Except.ok.inj ((Batcher.container_eq hlengths).symm.trans h)
  refine ⟨Session.frameTag?_bytes (by decide) _, FrameReader.run_ok
    (FrameReader.container_bytes hcount fun message hmem => ⟨hlengths message hmem, ?_⟩)⟩
  have hmessage := (length_entries messages).2 message hmem
  simp only [List.length_append]
  omega

end PathWire

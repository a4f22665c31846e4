/-
What a read takes off.

A read that goes well takes some bits off the front of what is unread, and says which value they
stand for.  Fields of bits take exactly the bits their number is written in.  An aligned read drops
what is left of the rolling byte and takes whole bytes, which may be more than the field is written
in if it starts with a number of variable size.
-/
import PathWire.Proofs.Basic
import PathWire.Proofs.Codec.BitString

namespace PathWire

/-! ### What a read takes off -/

namespace Decoder

/-- Everything not yet read. -/
def unread (dec : Decoder) : List Bool := dec.rolling ++ Bytes.bits dec.rest

/-- A decoder that follows no log, with less than a byte in its rolling byte. -/
def Plain (dec : Decoder) : Prop := dec.check = none ∧ dec.rolling.length < 8

/-- The unread bits of the rolling byte are zero. -/
def Padded (dec : Decoder) : Prop := ∀ bit ∈ dec.rolling, bit = false

end Decoder

namespace Reader

theorem expect_plain {dec : Decoder} (h : dec.Plain) (op : Op) : expect op dec = .ok () dec := by
  obtain ⟨rest, rolling, check⟩ := dec
  obtain ⟨rfl, -⟩ := h
  rfl

/-- A field of bits looks at the log and goes on with the rolling byte. -/
theorem expect_ok {α : Type} {op : Op} {read : Reader α} {dec after : Decoder} {value : α}
    (hplain : dec.Plain) (h : (do expect op; read : Reader α) dec = .ok value after) :
    read dec = .ok value after := by
  obtain ⟨_, _, hexpect, hrest⟩ := Step.of_bind_ok h
  rw [expect_plain hplain] at hexpect
  cases hexpect
  exact hrest

theorem pullBit_ok {dec after : Decoder} {bit : Bool} (hplain : dec.Plain)
    (h : pullBit dec = .ok bit after) : after.Plain ∧ dec.unread = bit :: after.unread := by
  obtain ⟨rest, rolling, check⟩ := dec
  obtain ⟨hcheck, hshort⟩ := hplain
  cases rolling with
  | cons first others =>
      cases h
      exact ⟨⟨hcheck, Nat.lt_of_succ_lt hshort⟩, rfl⟩
  | nil =>
      cases rest with
      | nil => cases h
      | cons byte others =>
          cases h
          refine ⟨⟨hcheck, ?_⟩, ?_⟩
          · simp [Byte.bits]
          · rfl

theorem pullBits_ok {width : Nat} : ∀ {acc value : Nat} {dec after : Decoder}, dec.Plain →
    pullBits acc width dec = .ok value after → after.Plain ∧
      ∃ taken, taken.length = width ∧ dec.unread = taken ++ after.unread ∧
        value = taken.foldl Bits.shiftIn acc := by
  induction width with
  | zero =>
      intro acc value dec after hplain h
      cases h
      exact ⟨hplain, [], rfl, rfl, rfl⟩
  | succ width ih =>
      intro acc value dec after hplain h
      obtain ⟨bit, between, hbit, hrest⟩ := Step.of_bind_ok h
      obtain ⟨hbetween, hfirst⟩ := pullBit_ok hplain hbit
      obtain ⟨hafter, taken, hlength, hunread, hvalue⟩ := ih hbetween hrest
      refine ⟨hafter, bit :: taken, by rw [List.length_cons, hlength], ?_, hvalue⟩
      rw [hfirst, hunread, List.cons_append]

/-- The bits a number was read from are those it is written in. -/
theorem pullNumber_ok {width value : Nat} {dec after : Decoder} (hplain : dec.Plain)
    (h : pullBits 0 width dec = .ok value after) :
    after.Plain ∧ value < Bits.bound width ∧
      dec.unread = Bits.ofNat width value ++ after.unread := by
  obtain ⟨hafter, taken, rfl, hunread, hvalue⟩ := pullBits_ok hplain h
  have hnumber : value = Bits.toNat taken := hvalue
  rw [hnumber]
  refine ⟨hafter, Bits.toNat_lt taken, ?_⟩
  rw [Bits.ofNat_toNat, hunread]

theorem take_ok {count : Nat} {dec after : Decoder} {data : Bytes}
    (h : take count dec = .ok data after) :
    data.length = count ∧ dec.rest = data ++ after.rest ∧
      after = { dec with rest := after.rest } := by
  obtain ⟨_, between, hensure, hrest⟩ := Step.of_bind_ok h
  by_cases hroom : count ≤ dec.remaining
  · rw [ensure_ok hroom] at hensure
    cases hensure
    cases hrest
    exact ⟨List.length_take_of_le hroom, (List.take_append_drop count dec.rest).symm, rfl⟩
  · rw [ensure_short (Nat.lt_of_not_le hroom)] at hensure
    cases hensure

theorem onBytes_of_ok {α : Type} {step : ByteReader α} {dec after : Decoder} {value : α}
    (h : onBytes step dec = .ok value after) :
    step dec.rest = .ok value after.rest ∧ after = { dec with rest := after.rest } := by
  unfold onBytes at h
  cases hstep : step dec.rest with
  | ok found rest =>
      simp only [hstep] at h
      cases h
      exact ⟨rfl, rfl⟩
  | error cause rest =>
      simp only [hstep] at h
      cases h

/-- An aligned read went well: what it took off is written as `written`, and `short` says
whether it was the same. -/
structure Took (dec after : Decoder) (written : Bytes) (short : Prop) : Prop where
  plain : after.Plain
  rolling : after.rolling = []
  bytes : ∃ taken, dec.rest = taken ++ after.rest ∧ Bytes.Least written taken ∧
    (short ↔ written = taken)

/-- An aligned read looks at the log, drops the rolling byte and goes on with whole bytes. -/
theorem aligned_ok {α : Type} {op : Op} {read : Reader α} {dec after : Decoder} {value : α}
    (hplain : dec.Plain) (h : (do expect op; align; read : Reader α) dec = .ok value after) :
    read { dec with rolling := [] } = .ok value after := by
  obtain ⟨_, _, halign, hrest⟩ := Step.of_bind_ok (expect_ok hplain h)
  cases halign
  exact hrest

theorem word_ok {op : Op} {count value : Nat} {dec after : Decoder} (hplain : dec.Plain)
    (h : word op count dec = .ok value after) :
    value < 256 ^ count ∧ Took dec after (Bytes.bigEndian count value) True := by
  obtain ⟨data, between, htake, hvalue⟩ := Step.of_bind_ok (aligned_ok hplain h)
  obtain ⟨rfl, hbytes, hafter⟩ := take_ok htake
  cases hvalue
  rw [Bytes.bigEndian_toNat]
  refine ⟨Bytes.toNat_lt data, ⟨?_, ?_, data, hbytes, .refl data, by simp⟩⟩
  · rw [hafter]
    exact ⟨hplain.1, by simp⟩
  · rw [hafter]

theorem varint_ok {α : Type} {op : Op} {step : ByteReader α} {put : α → Bytes}
    (hcanonical : Varint.Canonical step put) {dec after : Decoder} {value : α}
    (hplain : dec.Plain) (h : varint op step dec = .ok value after) :
    Took dec after (put value) (Varint.Shortest step dec.rest) := by
  obtain ⟨hstep, hafter⟩ := onBytes_of_ok (aligned_ok hplain h)
  obtain ⟨taken, hbytes, hleast⟩ := hcanonical.least hstep
  refine ⟨?_, ?_, taken, hbytes, hleast, ?_⟩
  · rw [hafter]
    exact ⟨hplain.1, by simp⟩
  · rw [hafter]
  · have hread : step (taken ++ after.rest) = .ok value after.rest := by
      rw [← hbytes]
      exact hstep
    have hsame : dec.rest = taken ++ after.rest := hbytes
    rw [hsame]
    exact hcanonical.shortest_iff hread

theorem counted_ok {limit : Nat} {tooLong : Nat → Nat → CodecError} {dec after : Decoder}
    {data : Bytes} (hplain : dec.Plain) (h : counted limit tooLong dec = .ok data after) :
    data.length ≤ limit ∧ data.length < Nat.pow 2 32 ∧
      Took dec after (Encoder.counted data) (Varint.Shortest Varint.getU32 dec.rest) := by
  obtain ⟨_, _, halign, hrest⟩ := Step.of_bind_ok h
  cases halign
  obtain ⟨length, between, hlength, hrest⟩ := Step.of_bind_ok hrest
  obtain ⟨hstep, hbetween⟩ := onBytes_of_ok hlength
  by_cases hlong : limit < length.toNat
  · rw [if_pos hlong] at hrest
    cases hrest
  · rw [if_neg hlong] at hrest
    obtain ⟨hcount, hbytes, hafter⟩ := take_ok hrest
    obtain ⟨taken, hfront, hleast⟩ := Varint.canonical_u32.least hstep
    have hput : Varint.putU32 length = Varint.putUnsigned data.length := by
      rw [Varint.putU32, hcount]
    have hread : Varint.getU32 (taken ++ between.rest) = .ok length between.rest := by
      rw [← hfront]
      exact hstep
    have hwhole : dec.rest = taken ++ between.rest := hfront
    rw [hput] at hleast
    refine ⟨by omega, by rw [hcount]; exact length.toNat_lt, ?_, ?_, taken ++ data, ?_,
      hleast.append data, ?_⟩
    · rw [hafter, hbetween]
      exact ⟨hplain.1, by simp⟩
    · rw [hafter, hbetween]
    · rw [hwhole, hbytes, List.append_assoc]
    · rw [hwhole, Varint.canonical_u32.shortest_iff hread, hput, Encoder.counted,
        List.append_cancel_right_eq]

theorem text_ok {limit : Nat} {dec after : Decoder} {content : String} (hplain : dec.Plain)
    (h : text limit dec = .ok content after) :
    content.utf8ByteSize ≤ limit ∧ content.utf8ByteSize < Nat.pow 2 32 ∧
      Took dec after (Encoder.counted (Bytes.ofString content))
        (Varint.Shortest Varint.getU32 dec.rest) := by
  obtain ⟨data, between, hdata, hrest⟩ := Step.of_bind_ok h
  cases hdecode : Utf8.decode data with
  | error fault =>
      simp only [hdecode] at hrest
      cases hrest
  | ok found =>
      simp only [hdecode] at hrest
      cases hrest
      have hbytes := Utf8.ofString_decode hdecode
      rw [← Bytes.length_ofString, hbytes]
      exact counted_ok hplain hdata

end Reader

end PathWire

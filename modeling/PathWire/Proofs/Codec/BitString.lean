/-
Bytes as strings of bits.

What was read and what is written for it are compared bit by bit, so here are the bits of some
bytes, the bits an encoder has written, and how two strings of bits compare of which one is written
for the other: it is never longer, and it ends at the same place inside a byte.
-/
import PathWire.Proofs.Codec.Layout
import PathWire.Proofs.Codec.Shortest

namespace PathWire

/-! ### The bits of some bytes -/

theorem Byte.bits_injective : Function.Injective Byte.bits := by
  intro one other h
  have hnumber : ∀ byte : UInt8, Bits.toNat (Byte.bits byte) = byte.toNat := fun byte =>
    Bits.toNat_ofNat_of_lt byte.toNat_lt
  rw [← UInt8.toNat_inj, ← hnumber one, ← hnumber other, h]

namespace Bytes

/-- The bits of some bytes, in order. -/
def bits (bytes : Bytes) : List Bool := bytes.flatMap Byte.bits

@[simp] theorem bits_nil : bits [] = [] := rfl

@[simp] theorem bits_cons (byte : UInt8) (rest : Bytes) :
    bits (byte :: rest) = Byte.bits byte ++ bits rest := rfl

@[simp] theorem bits_append (one other : Bytes) : bits (one ++ other) = bits one ++ bits other :=
  List.flatMap_append

@[simp] theorem length_bits (bytes : Bytes) : (bits bytes).length = 8 * bytes.length := by
  induction bytes with
  | nil => rfl
  | cons byte rest ih =>
      rw [bits_cons, List.length_append, ih, Byte.bits, Bits.length_ofNat, List.length_cons]
      omega

theorem bits_injective : Function.Injective bits := by
  intro one
  induction one with
  | nil =>
      intro other h
      have hlength := congrArg List.length h
      rw [length_bits, length_bits] at hlength
      exact (List.length_eq_zero_iff.mp (by simpa using hlength.symm)).symm
  | cons byte rest ih =>
      intro other h
      rcases other with _ | ⟨first, others⟩
      · have hlength := congrArg List.length h
        rw [length_bits, length_bits] at hlength
        simp at hlength
      · rw [bits_cons, bits_cons] at h
        obtain ⟨hbyte, hrest⟩ := List.append_inj h (by simp [Byte.bits])
        rw [Byte.bits_injective hbyte, ih hrest]

/-- Bytes that end with others start with what they have more. -/
theorem bits_take {bytes rest : Bytes} {front : List Bool}
    (h : bits bytes = front ++ bits rest) :
    bits (bytes.take (bytes.length - rest.length)) = front := by
  have hlength := congrArg List.length h
  rw [List.length_append, length_bits, length_bits] at hlength
  have hsplit : bits bytes = bits (bytes.take (bytes.length - rest.length)) ++
      bits (bytes.drop (bytes.length - rest.length)) := by
    rw [← bits_append, List.take_append_drop]
  rw [h] at hsplit
  refine (List.append_inj hsplit.symm ?_).1
  rw [length_bits, List.length_take]
  omega

end Bytes

/-! ### The bits of an encoder -/

namespace Encoder

/-- Everything written so far, without what would fill the rolling byte. -/
def bits (enc : Encoder) : List Bool := Bytes.bits enc.done.toList ++ enc.rolling

/-- What would fill the rolling byte. -/
def padding (enc : Encoder) : List Bool := List.replicate ((8 - enc.rolling.length) % 8) false

theorem bits_rollingBytes {enc : Encoder} (h : enc.Short) :
    Bytes.bits (rollingBytes enc.rolling) = enc.rolling ++ enc.padding := by
  have hshort : enc.rolling.length < 8 := h
  by_cases hnil : enc.rolling = []
  · simp [rollingBytes, padding, hnil]
  · have hopen : enc.rolling.isEmpty = false := by simpa using hnil
    have hlength : 0 < enc.rolling.length := List.length_pos_of_ne_nil hnil
    have hcount : (8 - enc.rolling.length) % 8 = 8 - enc.rolling.length :=
      Nat.mod_eq_of_lt (by omega)
    simp [rollingBytes, padding, hopen, hcount, Byte.bits_ofBits (Nat.le_of_lt hshort)]

theorem bits_bytes {enc : Encoder} (h : enc.Short) :
    Bytes.bits enc.bytes = enc.bits ++ enc.padding := by
  rw [bytes, Bytes.bits_append, bits_rollingBytes h, bits, List.append_assoc]

theorem bits_append {enc : Encoder} (h : enc.Short) (data : Bytes) :
    (enc.append data).bits = enc.bits ++ (enc.padding ++ Bytes.bits data) := by
  have hrolling : (enc.append data).rolling = [] := rfl
  rw [bits, hrolling, done_append, Bytes.bits_append, Bytes.bits_append, bits_rollingBytes h, bits]
  simp

theorem bits_pushBit {enc : Encoder} (h : enc.Short) (bit : Bool) :
    (enc.pushBit bit).bits = enc.bits ++ [bit] := by
  rcases pushBit_cases h bit with hpush | ⟨hfull, hpush⟩
  · rw [bits, hpush, bits, List.append_assoc]
  · rw [bits, hpush, bits]
    simp [bits_ofBits_full hfull]

theorem bits_pushBits (more : List Bool) : ∀ {enc : Encoder}, enc.Short →
    (enc.pushBits more).bits = enc.bits ++ more := by
  induction more with
  | nil => intro enc _; exact (List.append_nil _).symm
  | cons bit rest ih =>
      intro enc h
      have hrest := ih (short_pushBit enc bit)
      rw [bits_pushBit h, List.append_assoc] at hrest
      exact hrest

end Encoder

/-- The bits of a piece behind a rolling byte that has so many bits left. -/
def Layout.Piece.bitsBehind (room : Nat) : Layout.Piece → List Bool
  | .run bits => bits
  | .whole data => List.replicate room false ++ Bytes.bits data

/-- A piece adds its bits. -/
theorem Encoder.bits_put {enc : Encoder} (h : enc.Short) (piece : Layout.Piece) :
    (enc.put piece).bits = enc.bits ++ piece.bitsBehind ((8 - enc.rolling.length) % 8) := by
  cases piece with
  | run bits => exact Encoder.bits_pushBits bits h
  | whole data => exact Encoder.bits_append h data

/-! ### Bits written for bits taken off -/

/-- Bits that are written for others: never more, as many up to whole bytes, and `same` says
whether they are the same. -/
structure Rewrites (written taken : List Bool) (same : Prop) : Prop where
  length_le : written.length ≤ taken.length
  length_mod : written.length % 8 = taken.length % 8
  iff : same ↔ written = taken

namespace Rewrites

variable {written taken : List Bool} {same : Prop}

theorem refl (bits : List Bool) : Rewrites bits bits True := ⟨Nat.le_refl _, rfl, by simp⟩

theorem congr {other : Prop} (h : Rewrites written taken same) (hiff : other ↔ same) :
    Rewrites written taken other :=
  ⟨h.length_le, h.length_mod, hiff.trans h.iff⟩

theorem append {written' taken' : List Bool} {same' : Prop} (h : Rewrites written taken same)
    (h' : Rewrites written' taken' same') :
    Rewrites (written ++ written') (taken ++ taken') (same ∧ same') := by
  obtain ⟨hle, hmod, hiff⟩ := h
  obtain ⟨hle', hmod', hiff'⟩ := h'
  refine ⟨?_, ?_, ?_⟩
  · simp only [List.length_append]
    omega
  · simp only [List.length_append]
    omega
  · rw [hiff, hiff']
    constructor
    · rintro ⟨rfl, rfl⟩
      rfl
    · intro h
      have hlength := congrArg List.length h
      simp only [List.length_append] at hlength
      exact List.append_inj h (by omega)

/-- Zeros in place of some bits. -/
theorem zeros (bits : List Bool) :
    Rewrites (List.replicate bits.length false) bits (∀ bit ∈ bits, bit = false) := by
  refine ⟨by simp, by simp, ?_⟩
  rw [eq_comm, List.eq_replicate_iff]
  simp

theorem of_least {least bytes : Bytes} (h : Bytes.Least least bytes) :
    Rewrites (Bytes.bits least) (Bytes.bits bytes) (least = bytes) := by
  have hle := h.1
  refine ⟨?_, ?_, Bytes.bits_injective.eq_iff.symm⟩
  · simp only [Bytes.length_bits]
    omega
  · simp only [Bytes.length_bits]
    omega

end Rewrites

end PathWire

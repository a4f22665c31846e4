/-
What a read takes off the front of the bytes.

A number in a variable number of bytes can be read from more bytes than it needs: groups of
zeros at its end change nothing.  So what is written is the shortest of all the byte strings that
are read as the same number, and it is the only one of its length.  For unsigned numbers this is an
induction on the groups the reader takes; a signed one adds its first byte, and the widths differ
only in the machine words that the numbers become.

A text and an identifier are told apart from other bytes by reading them, and what they are read
from is what they are written as.
-/
import PathWire.Proofs.Basic
import PathWire.Proofs.Codec.Lockstep

namespace PathWire

/-! ### Least byte strings -/

/-- `least` is no longer than `taken`, and only as long if they are the same. -/
def Bytes.Least (least taken : Bytes) : Prop :=
  least.length ≤ taken.length ∧ (taken.length = least.length → taken = least)

namespace Bytes.Least

variable {least taken : Bytes}

theorem refl (bytes : Bytes) : Least bytes bytes := ⟨Nat.le_refl _, fun _ => rfl⟩

theorem of_lt (h : least.length < taken.length) : Least least taken :=
  ⟨Nat.le_of_lt h, fun hsame => absurd hsame (Nat.ne_of_gt h)⟩

theorem cons (byte : UInt8) (h : Least least taken) : Least (byte :: least) (byte :: taken) := by
  refine ⟨Nat.succ_le_succ h.1, fun hsame => ?_⟩
  rw [h.2 (Nat.succ.inj hsame)]

theorem append (h : Least least taken) (more : Bytes) : Least (least ++ more) (taken ++ more) := by
  simp only [Least, List.length_append, Nat.add_le_add_iff_right, Nat.add_right_cancel_iff,
    List.append_cancel_right_eq]
  exact h

end Bytes.Least

namespace Varint

/-! ### Unsigned numbers -/

theorem nextByte_ok {bytes rest : Bytes} {byte : UInt8} (h : nextByte bytes = .ok byte rest) :
    bytes = byte :: rest := by
  cases bytes with
  | nil => cases h
  | cons first others => cases h; rfl

theorem length_putUnsigned_pos (value : Nat) : 0 < (putUnsigned value).length := by
  rw [putUnsigned]
  split <;> simp

/-- The groups a number was read from are no fewer than those it is written in. -/
theorem getGroups_ok {limit : Nat} : ∀ {left : Nat} {bytes rest : Bytes} {value : Nat},
    getGroups limit left bytes = .ok value rest →
      ∃ taken, bytes = taken ++ rest ∧ Bytes.Least (putUnsigned value) taken := by
  intro left
  induction left with
  | zero => intro bytes rest value h; cases h
  | succ left ih =>
      intro bytes rest value h
      obtain ⟨byte, others, hfirst, hrest⟩ := Step.of_bind_ok h
      obtain rfl := nextByte_ok hfirst
      by_cases hlast : byte.toNat < 128
      · rw [if_pos hlast] at hrest
        cases hrest
        refine ⟨[byte], rfl, ?_⟩
        rw [putUnsigned, if_pos hlast, UInt8.ofNat_toNat]
        exact .refl _
      · rw [if_neg hlast] at hrest
        obtain ⟨higher, after, hhigher, hvalue⟩ := Step.of_bind_ok hrest
        obtain ⟨taken, rfl, hleast⟩ := ih hhigher
        cases hvalue
        have hbyte : byte.toNat < 256 := byte.toNat_lt
        refine ⟨byte :: taken, rfl, ?_⟩
        by_cases hsmall : byte.toNat - 128 + 128 * higher < 128
        · have hpos := length_putUnsigned_pos higher
          have hle := hleast.1
          rw [putUnsigned, if_pos hsmall]
          refine .of_lt ?_
          simp only [List.length_cons, List.length_nil]
          omega
        · have hlow : (byte.toNat - 128 + 128 * higher) % 128 + 128 = byte.toNat := by omega
          have hhigh : (byte.toNat - 128 + 128 * higher) / 128 = higher := by omega
          rw [putUnsigned, if_neg hsmall, hlow, hhigh, UInt8.ofNat_toNat]
          exact hleast.cons byte

/-! ### Signed numbers -/

theorem magnitude_ofMagnitude (negative : Bool) (size : Nat) :
    magnitude (ofMagnitude negative size) = size ∧
      decide (ofMagnitude negative size < 0) = negative := by
  cases negative with
  | false => simp [magnitude, ofMagnitude]
  | true => 
      simp [magnitude, ofMagnitude]
      omega

/-- The bytes a flag and a magnitude were read from are no fewer than those of the number. -/
theorem getFolded_ok {limit : Nat} {bytes rest : Bytes} {negative : Bool} {size : Nat}
    (h : getFolded limit bytes = .ok (negative, size) rest) :
    ∃ taken, bytes = taken ++ rest ∧
      Bytes.Least (putSigned (ofMagnitude negative size)) taken := by
  obtain ⟨hsize, hsign⟩ := magnitude_ofMagnitude negative size
  obtain ⟨byte, others, hfirst, hrest⟩ := Step.of_bind_ok h
  obtain rfl := nextByte_ok hfirst
  have hbyte : byte.toNat < 256 := byte.toNat_lt
  have hflag : signFlag (decide (64 ≤ byte.toNat % 128)) = byte.toNat % 128 - byte.toNat % 64 := by
    by_cases hneg : 64 ≤ byte.toNat % 128 <;> simp [signFlag, hneg] <;> omega
  by_cases hlast : byte.toNat < 128
  · rw [if_pos hlast] at hrest
    cases hrest
    refine ⟨[byte], rfl, ?_⟩
    have hsum : byte.toNat % 64 + (byte.toNat % 128 - byte.toNat % 64) = byte.toNat := by omega
    simp only [putSigned, hsize, hsign, if_pos (Nat.mod_lt byte.toNat (show 0 < 64 by decide)),
      hflag, hsum, UInt8.ofNat_toNat]
    exact .refl _
  · rw [if_neg hlast] at hrest
    obtain ⟨higher, after, hhigher, hvalue⟩ := Step.of_bind_ok hrest
    obtain ⟨taken, rfl, hleast⟩ := getGroups_ok hhigher
    cases hvalue
    refine ⟨byte :: taken, rfl, ?_⟩
    simp only [putSigned, hsize, hsign, hflag]
    by_cases hsmall : byte.toNat % 64 + 64 * higher < 64
    · have hpos := length_putUnsigned_pos higher
      have hle := hleast.1
      rw [if_pos hsmall]
      refine .of_lt ?_
      simp only [List.length_cons, List.length_nil]
      omega
    · have hlow : (byte.toNat % 64 + 64 * higher) % 64 + (byte.toNat % 128 - byte.toNat % 64) + 128
          = byte.toNat := by omega
      have hhigh : (byte.toNat % 64 + 64 * higher) / 64 = higher := by omega
      rw [if_neg hsmall, hlow, hhigh, UInt8.ofNat_toNat]
      exact hleast.cons byte

/-! ### The shortest form -/

/-- No fewer bytes than those the step takes off `bytes` are read as the same value. -/
def Shortest {α : Type} (step : ByteReader α) (bytes : Bytes) : Prop :=
  ∀ value rest, step bytes = .ok value rest →
    ∀ other, step other = .ok value [] → bytes.length - rest.length ≤ other.length

/-- What `put` gives is read back by the step, and is the least of all that is read as the same
value. -/
structure Canonical {α : Type} (step : ByteReader α) (put : α → Bytes) : Prop where
  reads : ∀ value rest, step (put value ++ rest) = .ok value rest
  least : ∀ {bytes rest value}, step bytes = .ok value rest →
    ∃ taken, bytes = taken ++ rest ∧ Bytes.Least (put value) taken

/-- The shortest form is what is written. -/
theorem Canonical.shortest_iff {α : Type} {step : ByteReader α} {put : α → Bytes}
    (h : Canonical step put) {taken rest : Bytes} {value : α}
    (hread : step (taken ++ rest) = .ok value rest) :
    Shortest step (taken ++ rest) ↔ put value = taken := by
  have hcount : (taken ++ rest).length - rest.length = taken.length := by simp
  obtain ⟨same, hsame, hleast⟩ := h.least hread
  obtain rfl := List.append_cancel_right hsame
  constructor
  · intro hshortest
    have hback : step (put value) = .ok value [] := by
      have := h.reads value []
      rwa [List.append_nil] at this
    have hle := hshortest value rest hread (put value) hback
    exact (hleast.2 (by rw [hcount] at hle; exact Nat.le_antisymm hle hleast.1)).symm
  · rintro rfl found after hfound other hother
    rw [hread] at hfound
    cases hfound
    obtain ⟨others, hothers, hle, -⟩ := h.least hother
    rw [List.append_nil] at hothers
    rw [hcount, hothers]
    exact hle

theorem getUnsigned_ok {limit bound : Nat} {bytes rest : Bytes} {value : Nat}
    (h : getUnsigned limit bound bytes = .ok value rest) :
    value < bound ∧ ∃ taken, bytes = taken ++ rest ∧ Bytes.Least (putUnsigned value) taken := by
  obtain ⟨read, after, hgroups, hcheck⟩ := Step.of_bind_ok h
  by_cases hfits : read < bound
  · rw [if_pos hfits] at hcheck
    cases hcheck
    exact ⟨hfits, getGroups_ok hgroups⟩
  · rw [if_neg hfits] at hcheck
    cases hcheck

theorem getSigned_ok {limit bound : Nat} {bytes rest : Bytes} {value : Int}
    (h : getSigned limit bound bytes = .ok value rest) :
    Word.Signed bound value ∧
      ∃ taken, bytes = taken ++ rest ∧ Bytes.Least (putSigned value) taken := by
  obtain ⟨⟨negative, size⟩, after, hfolded, hcheck⟩ := Step.of_bind_ok h
  by_cases hfits : size < bound
  · simp only [if_pos hfits] at hcheck
    cases hcheck
    refine ⟨⟨?_, ?_⟩, getFolded_ok hfolded⟩
    · cases negative <;> simp only [ofMagnitude, if_true, Bool.false_eq_true, if_false] <;> omega
    · cases negative <;> simp only [ofMagnitude, if_true, Bool.false_eq_true, if_false] <;> omega
  · simp only [if_neg hfits] at hcheck
    cases hcheck

/-- A step that finds the numbers of words is canonical for the words. -/
theorem Canonical.of_word {α N : Type} {Fits : N → Prop} (word : Word α Fits)
    {step : ByteReader N} {put : N → Bytes}
    (hreads : ∀ (value : α) (rest : Bytes), (do return word.make (← step) : ByteReader α)
      (put (word.number value) ++ rest) = .ok value rest)
    (hleast : ∀ {bytes rest found}, step bytes = .ok found rest →
      Fits found ∧ ∃ taken, bytes = taken ++ rest ∧ Bytes.Least (put found) taken) :
    Canonical (do return word.make (← step)) fun value => put (word.number value) where
  reads := hreads
  least := by
    intro bytes rest value h
    obtain ⟨found, after, hread, hvalue⟩ := Step.of_bind_ok h
    obtain ⟨hfits, hfound⟩ := hleast hread
    cases hvalue
    rwa [word.number_make hfits]

section Words

variable {α : Type} {limit bound : Nat}

theorem canonical_unsigned (word : Word α (· < bound)) (hpos : 0 < limit)
    (hlimit : bound ≤ 128 ^ limit) : Canonical (do return word.make (← getUnsigned limit bound))
      fun value => putUnsigned (word.number value) :=
  .of_word word (getUnsigned_word word hpos hlimit) getUnsigned_ok

theorem canonical_signed (word : Word α (Word.Signed bound)) (hpos : 1 < limit)
    (hlimit : bound ≤ 64 * 128 ^ (limit - 1)) :
    Canonical (do return word.make (← getSigned limit bound))
      fun value => putSigned (word.number value) :=
  .of_word word (getSigned_word word hpos hlimit) getSigned_ok

end Words

theorem canonical_u32 : Canonical getU32 putU32 :=
  canonical_unsigned .u32 (by decide) (by decide)

theorem canonical_u64 : Canonical getU64 putU64 :=
  canonical_unsigned .u64 (by decide) (by decide)

theorem canonical_i32 : Canonical getI32 putI32 :=
  canonical_signed .i32 (by decide) (by decide)

theorem canonical_i64 : Canonical getI64 putI64 :=
  canonical_signed .i64 (by decide) (by decide)

end Varint

/-! ### Texts and identifiers -/

/-- A text that bytes were decoded to has these bytes. -/
theorem Utf8.ofString_decode {bytes : Bytes} {text : String} (h : decode bytes = .ok text) :
    Bytes.ofString text = bytes := by
  unfold decode at h
  by_cases hvalid : (ByteArray.mk bytes.toArray).IsValidUTF8
  · simp only [dif_pos hvalid] at h
    cases h
    rfl
  · simp only [dif_neg hvalid] at h
    cases h

namespace Identifier

theorem splitColon_eq {text before after : List Char} (h : splitColon text = some (before, after)) :
    text = before ++ ':' :: after := by
  induction text generalizing before with
  | nil => cases h
  | cons c rest ih =>
      rw [splitColon] at h
      by_cases hcolon : c = ':'
      · rw [if_pos hcolon] at h
        cases h
        rw [hcolon, List.nil_append]
      · rw [if_neg hcolon] at h
        cases hsplit : splitColon rest with
        | none => simp [hsplit] at h
        | some parts =>
            obtain ⟨first, last⟩ := parts
            simp only [hsplit, Option.map_some, Option.some.injEq, Prod.mk.injEq] at h
            obtain ⟨rfl, rfl⟩ := h
            rw [ih hsplit, List.cons_append]

/-- A text that stands for an identifier is its written form. -/
theorem display_parse {text : String} {id : Identifier} (h : parse text = .ok id) :
    id.display = text := by
  unfold parse at h
  cases hsplit : splitColon text.toList with
  | none => simp [hsplit] at h
  | some parts =>
      obtain ⟨ns, path⟩ := parts
      simp only [hsplit] at h
      unfold make at h
      split at h
      · split at h
        · cases h
          apply String.toList_injective
          simp [display, splitColon_eq hsplit]
        · cases h
      · cases h

end Identifier

end PathWire

/-
Reading a variable-length integer gives back what was written.

`putUnsigned` and `getGroups` both peel off the least significant seven bits, so the
unsigned case is an induction on the number of groups still allowed: a number below
`128 ^ left` is written in at most `left` groups.  A signed number adds a first byte with six
bits of magnitude, and its remaining groups are an unsigned number again.
-/
import PathWire.Proofs.Bytes
import PathWire.Codec.Varint

namespace PathWire.Varint

/-! ### Unsigned numbers -/

theorem nextByte_cons (byte : UInt8) (rest : Bytes) :
    nextByte (byte :: rest) = .ok byte rest := rfl

/-- A number that fits one group. -/
theorem getGroups_one {limit left value : Nat} (rest : Bytes) (h : value < 128) :
    getGroups limit (left + 1) (UInt8.ofNat value :: rest) = .ok value rest := by
  have hbyte : (UInt8.ofNat value).toNat = value :=
    UInt8.toNat_ofNat_of_lt' (Nat.lt_trans h (by decide))
  simp only [getGroups, bind, EStateM.bind, nextByte_cons, hbyte, if_pos h]
  rfl

/-- A group that another one follows. -/
theorem getGroups_more {limit left higher : Nat} {byte : UInt8} {rest after : Bytes}
    (h : ¬ byte.toNat < 128) (hrest : getGroups limit left rest = .ok higher after) :
    getGroups limit (left + 1) (byte :: rest)
      = .ok (byte.toNat - 128 + 128 * higher) after := by
  simp only [getGroups, bind, EStateM.bind, nextByte_cons, if_neg h, hrest]
  rfl

theorem getGroups_putUnsigned (limit : Nat) : ∀ (left value : Nat) (rest : Bytes),
    value < 128 ^ (left + 1) →
      getGroups limit (left + 1) (putUnsigned value ++ rest) = .ok value rest := by
  intro left
  induction left with
  | zero =>
      intro value rest h
      have hsmall : value < 128 := by simpa using h
      rw [putUnsigned, if_pos hsmall]
      exact getGroups_one rest hsmall
  | succ left ih =>
      intro value rest h
      rw [putUnsigned]
      by_cases hsmall : value < 128
      · rw [if_pos hsmall]
        exact getGroups_one rest hsmall
      · have hbyte : (UInt8.ofNat (value % 128 + 128)).toNat = value % 128 + 128 :=
          UInt8.toNat_ofNat_of_lt' (show value % 128 + 128 < 256 by omega)
        have hdiv : value / 128 < 128 ^ (left + 1) := by
          rw [Nat.pow_succ] at h
          exact Nat.div_lt_of_lt_mul (by omega)
        rw [if_neg hsmall, List.cons_append, getGroups_more (by omega) (ih _ rest hdiv), hbyte]
        congr 1
        omega

theorem getUnsigned_putUnsigned {limit bound value : Nat} (rest : Bytes) (hpos : 0 < limit)
    (hsize : value < 128 ^ limit) (hbound : value < bound) :
    getUnsigned limit bound (putUnsigned value ++ rest) = .ok value rest := by
  obtain ⟨left, rfl⟩ : ∃ left, limit = left + 1 := ⟨limit - 1, by omega⟩
  simp only [getUnsigned, bind, EStateM.bind, getGroups_putUnsigned _ left value rest hsize,
    if_pos hbound]
  rfl

/-! ### Signed numbers -/

/-- The flag and the magnitude give the number back. -/
theorem ofMagnitude_magnitude (value : Int) :
    ofMagnitude (decide (value < 0)) (magnitude value) = value := by
  unfold ofMagnitude magnitude
  by_cases h : value < 0
  · simp only [h, decide_true, if_true]
    omega
  · simp only [h, decide_false, if_false, Bool.false_eq_true]
    omega

/-- The sign flag and the low six bits can be told apart, whatever the continuation bit. -/
theorem first_digits {low : Nat} (negative : Bool) (h : low < 64) (more : Nat) :
    decide (64 ≤ (low + signFlag negative + 128 * more) % 128) = negative ∧
      (low + signFlag negative + 128 * more) % 64 = low := by
  cases negative with
  | false =>
      simp only [signFlag, Bool.false_eq_true, if_false, decide_eq_false_iff_not]
      omega
  | true =>
      simp only [signFlag, if_true, decide_eq_true_eq]
      omega

theorem signFlag_le (negative : Bool) : signFlag negative ≤ 64 := by
  cases negative <;> simp [signFlag]

/-- A signed number whose magnitude fits the first byte. -/
theorem getFolded_one {limit low : Nat} {negative : Bool} (rest : Bytes) (h : low < 64) :
    getFolded limit (UInt8.ofNat (low + signFlag negative) :: rest)
      = .ok (negative, low) rest := by
  have hflag := signFlag_le negative
  have hbyte : (UInt8.ofNat (low + signFlag negative)).toNat = low + signFlag negative :=
    UInt8.toNat_ofNat_of_lt' (show low + signFlag negative < 256 by omega)
  have hshort : low + signFlag negative < 128 := by
    cases negative <;> simp [signFlag] <;> omega
  obtain ⟨hneg, hlow⟩ := first_digits negative h 0
  simp only [Nat.mul_zero, Nat.add_zero] at hneg hlow
  simp only [getFolded, bind, EStateM.bind, nextByte_cons, hbyte, if_pos hshort, hneg, hlow]
  rfl

/-- A signed number with groups behind its first byte. -/
theorem getFolded_more {limit low higher : Nat} {negative : Bool} {rest after : Bytes}
    (h : low < 64) (hrest : getGroups limit (limit - 1) rest = .ok higher after) :
    getFolded limit (UInt8.ofNat (low + signFlag negative + 128) :: rest)
      = .ok (negative, low + 64 * higher) after := by
  have hflag := signFlag_le negative
  have hbyte : (UInt8.ofNat (low + signFlag negative + 128)).toNat
      = low + signFlag negative + 128 := by
    refine UInt8.toNat_ofNat_of_lt' (show low + signFlag negative + 128 < 256 from ?_)
    cases negative <;> simp [signFlag] <;> omega
  have hlong : ¬ low + signFlag negative + 128 < 128 := by omega
  obtain ⟨hneg, hlow⟩ := first_digits negative h 1
  simp only [Nat.mul_one] at hneg hlow
  simp only [getFolded, bind, EStateM.bind, nextByte_cons, hbyte, if_neg hlong, hrest, hneg,
    hlow]
  rfl

theorem getFolded_putSigned {limit : Nat} {value : Int} (rest : Bytes) (hlimit : 1 < limit)
    (hsize : magnitude value / 64 < 128 ^ (limit - 1)) :
    getFolded limit (putSigned value ++ rest)
      = .ok (decide (value < 0), magnitude value) rest := by
  unfold putSigned
  by_cases hsmall : magnitude value < 64
  · simp only [if_pos hsmall, List.singleton_append]
    exact getFolded_one rest hsmall
  · obtain ⟨left, hleft⟩ : ∃ left, limit - 1 = left + 1 := ⟨limit - 2, by omega⟩
    have hgroups : getGroups limit (limit - 1) (putUnsigned (magnitude value / 64) ++ rest)
        = .ok (magnitude value / 64) rest := by
      rw [hleft] at hsize ⊢
      exact getGroups_putUnsigned limit left _ rest hsize
    simp only [if_neg hsmall, List.cons_append]
    rw [getFolded_more (Nat.mod_lt _ (by decide)) hgroups, Nat.mod_add_div]

theorem getSigned_putSigned {limit bound : Nat} {value : Int} (rest : Bytes) (hlimit : 1 < limit)
    (hsize : magnitude value / 64 < 128 ^ (limit - 1)) (hbound : magnitude value < bound) :
    getSigned limit bound (putSigned value ++ rest) = .ok value rest := by
  simp only [getSigned, bind, EStateM.bind, getFolded_putSigned rest hlimit hsize,
    if_pos hbound, ofMagnitude_magnitude]
  rfl

/-- A number between `-bound` and `bound` has a magnitude below `bound`. -/
theorem magnitude_lt {value : Int} {bound : Nat} (h : Word.Signed bound value) :
    magnitude value < bound := by
  obtain ⟨hlow, hhigh⟩ := h
  unfold magnitude
  split <;> omega

/-! ### Machine words -/

section Words

variable {α : Type} {limit bound : Nat}

/-- A word whose number is read back is read back. -/
theorem get_put {N : Type} {Fits : N → Prop} (word : Word α Fits) {step : ByteReader N}
    {put : N → Bytes}
    (hreads : ∀ {found : N} (rest : Bytes), Fits found → step (put found ++ rest) = .ok found rest)
    (value : α) (rest : Bytes) :
    (do return word.make (← step) : ByteReader α) (put (word.number value) ++ rest)
      = .ok value rest := by
  simp only [bind, EStateM.bind, hreads rest (word.fits value)]
  show EStateM.Result.ok (word.make (word.number value)) rest = _
  rw [word.make_number]

theorem getUnsigned_word (word : Word α (· < bound)) (hpos : 0 < limit)
    (hlimit : bound ≤ 128 ^ limit) (value : α) (rest : Bytes) :
    (do return word.make (← getUnsigned limit bound) : ByteReader α)
      (putUnsigned (word.number value) ++ rest) = .ok value rest :=
  get_put word (fun rest h => getUnsigned_putUnsigned rest hpos (Nat.lt_of_lt_of_le h hlimit) h)
    value rest

theorem getSigned_word (word : Word α (Word.Signed bound)) (hpos : 1 < limit)
    (hlimit : bound ≤ 64 * 128 ^ (limit - 1)) (value : α) (rest : Bytes) :
    (do return word.make (← getSigned limit bound) : ByteReader α)
      (putSigned (word.number value) ++ rest) = .ok value rest := by
  refine get_put word (fun {found} rest h => ?_) value rest
  have hsize : magnitude found < bound := magnitude_lt h
  exact getSigned_putSigned rest hpos
    (Nat.div_lt_of_lt_mul (Nat.lt_of_lt_of_le hsize hlimit)) hsize

end Words

theorem getU32_putU32 (value : UInt32) (rest : Bytes) :
    getU32 (putU32 value ++ rest) = .ok value rest :=
  getUnsigned_word .u32 (by decide) (by decide) value rest

theorem getU64_putU64 (value : UInt64) (rest : Bytes) :
    getU64 (putU64 value ++ rest) = .ok value rest :=
  getUnsigned_word .u64 (by decide) (by decide) value rest

theorem getI32_putI32 (value : Int32) (rest : Bytes) :
    getI32 (putI32 value ++ rest) = .ok value rest :=
  getSigned_word .i32 (by decide) (by decide) value rest

theorem getI64_putI64 (value : Int64) (rest : Bytes) :
    getI64 (putI64 value ++ rest) = .ok value rest :=
  getSigned_word .i64 (by decide) (by decide) value rest

end PathWire.Varint

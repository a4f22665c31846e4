/-
Which bytes are a variable-length integer, and which one.

The grammar says it without a reader: a byte of 128 or more is followed by another one, the first
byte below ends the number, and what the bytes hold besides that bit are the digits of the number
in base 128.  The first byte of a signed number spends one more bit on the sign, and a negative
number is stored as its complement.

A reader of at most so many bytes can find three things in front of it: bytes that end a number in
time, too few bytes, or too many that go on.  `Cut` says that there is no fourth, so three
equations settle what a reader does with any bytes, and each outcome has its exact condition.
-/
import PathWire.Proofs.Codec.Shortest

namespace PathWire

namespace Varint

/-! ### The grammar -/

/-- A byte that another one follows. -/
def Continues (byte : UInt8) : Prop := 128 ≤ byte.toNat

/-- Bytes of which all but the last are followed by another one. -/
inductive Terminated : Bytes → Prop
  | last {byte : UInt8} (h : ¬ Continues byte) : Terminated [byte]
  | more {byte : UInt8} {rest : Bytes} (h : Continues byte) (hrest : Terminated rest) :
      Terminated (byte :: rest)

/-- The number whose groups of seven bits are in the bytes, the least significant group first. -/
def combined (bytes : Bytes) : Nat := Nat.ofDigits 128 (bytes.map fun byte => byte.toNat % 128)

/-- The sign flag and the magnitude in the bytes of a signed number: the first byte holds the flag
and six bits. -/
def folded : Bytes → Bool × Nat
  | [] => (false, 0)
  | first :: rest => (first.toNat.testBit 6, first.toNat % 64 + 64 * combined rest)

/-- The signed number in some bytes: a negative one is stored as its complement. -/
def unfolded (bytes : Bytes) : Int :=
  if (folded bytes).1 then .negSucc (folded bytes).2 else (folded bytes).2

/-! ### What a reader can find -/

/-- The bytes in front of a reader of at most `limit` bytes. -/
inductive Cut (limit : Nat) : Bytes → Prop
  | whole (taken rest : Bytes) (h : Terminated taken) (hshort : taken.length ≤ limit) :
      Cut limit (taken ++ rest)
  | ends {bytes : Bytes} (hshort : bytes.length < limit)
      (hmore : ∀ byte ∈ bytes, Continues byte) : Cut limit bytes
  | tooLong (taken rest : Bytes) (hlong : taken.length = limit)
      (hmore : ∀ byte ∈ taken, Continues byte) : Cut limit (taken ++ rest)

theorem cut (bytes : Bytes) : ∀ limit, Cut limit bytes := by
  induction bytes with
  | nil =>
      intro limit
      cases limit with
      | zero => exact .tooLong [] [] rfl nofun
      | succ limit => exact .ends (Nat.succ_pos limit) nofun
  | cons byte bytes ih =>
      intro limit
      cases limit with
      | zero => exact .tooLong [] _ rfl nofun
      | succ limit =>
          by_cases hmore : Continues byte
          · have hcons : ∀ {others : Bytes}, (∀ other ∈ others, Continues other) →
                ∀ other ∈ byte :: others, Continues other :=
              fun hothers => List.forall_mem_cons.mpr ⟨hmore, hothers⟩
            cases ih limit with
            | whole taken rest h hshort =>
                exact .whole (byte :: taken) rest (.more hmore h) (Nat.succ_le_succ hshort)
            | ends hshort hothers => exact .ends (Nat.succ_lt_succ hshort) (hcons hothers)
            | tooLong taken rest hlong hothers =>
                exact .tooLong (byte :: taken) rest (congrArg Nat.succ hlong) (hcons hothers)
          · exact .whole [byte] bytes (.last hmore) (by simp)

/-- A verdict on the bytes that were taken, with the bytes behind them left. -/
def settled {α : Type} (verdict : Except CodecError α) (rest : Bytes) :
    EStateM.Result CodecError Bytes α :=
  match verdict with
  | .ok value => .ok value rest
  | .error cause => .error cause rest

theorem settled_ok {α : Type} {result : Except CodecError α} {value : α} {rest after : Bytes}
    (h : settled result rest = .ok value after) : result = .ok value ∧ rest = after := by
  cases result with
  | ok found =>
      cases h
      exact ⟨rfl, rfl⟩
  | error cause => cases h

theorem settled_error {α : Type} {result : Except CodecError α} {cause : CodecError}
    {rest after : Bytes} (h : settled result rest = .error cause after) :
    result = .error cause ∧ rest = after := by
  cases result with
  | ok found => cases h
  | error own =>
      cases h
      exact ⟨rfl, rfl⟩

/-- A reader that takes bytes up to the end of a number, at most `limit`, and judges by them. -/
structure Scans {α : Type} (step : ByteReader α) (limit : Nat)
    (verdict : Bytes → Except CodecError α) : Prop where
  whole : ∀ {taken : Bytes} (rest : Bytes), Terminated taken → taken.length ≤ limit →
    step (taken ++ rest) = settled (verdict taken) rest
  ends : ∀ {bytes : Bytes}, bytes.length < limit → (∀ byte ∈ bytes, Continues byte) →
    step bytes = .error (.unexpectedEof 1 0) []
  tooLong : ∀ {taken : Bytes} (rest : Bytes), taken.length = limit →
    (∀ byte ∈ taken, Continues byte) → step (taken ++ rest) = .error (.varIntTooLong limit) rest

namespace Scans

variable {α β : Type} {step : ByteReader α} {limit : Nat}

/-- Judging by what was taken. -/
theorem judge {taking : Bytes → α} (h : Scans step limit fun taken => .ok (taking taken))
    (judgement : α → Except CodecError β) {next : α → ByteReader β}
    (hnext : ∀ found rest, next found rest = settled (judgement found) rest) :
    Scans (step >>= next) limit fun taken => judgement (taking taken) where
  whole rest hterminated hshort :=
    (Step.bind_ok (h.whole rest hterminated hshort)).trans (hnext _ rest)
  ends hshort hmore := Step.bind_error (h.ends hshort hmore)
  tooLong rest hlong hmore := Step.bind_error (h.tooLong rest hlong hmore)

theorem map {verdict : Bytes → Except CodecError α} (h : Scans step limit verdict) (f : α → β) :
    Scans (do return f (← step)) limit fun taken => (verdict taken).map f where
  whole := by
    intro taken rest hterminated hshort
    have hstep := h.whole rest hterminated hshort
    cases hverdict : verdict taken with
    | ok found =>
        rw [hverdict] at hstep
        exact Step.bind_ok hstep
    | error cause =>
        rw [hverdict] at hstep
        exact Step.bind_error hstep
  ends hshort hmore := Step.bind_error (h.ends hshort hmore)
  tooLong rest hlong hmore := Step.bind_error (h.tooLong rest hlong hmore)

end Scans

/-! ### Groups of seven bits -/

theorem combined_cons (byte : UInt8) (rest : Bytes) :
    combined (byte :: rest) = byte.toNat % 128 + 128 * combined rest := by
  rw [combined, List.map_cons, Nat.ofDigits_cons]
  rfl

theorem combined_singleton {byte : UInt8} (h : byte.toNat < 128) :
    combined [byte] = byte.toNat := by
  simp [combined, Nat.mod_eq_of_lt h]

theorem getGroups_last {limit left : Nat} {byte : UInt8} (rest : Bytes) (h : ¬ Continues byte) :
    getGroups limit (left + 1) (byte :: rest) = .ok byte.toNat rest := by
  have hread : getGroups limit (left + 1) (UInt8.ofNat byte.toNat :: rest)
      = .ok byte.toNat rest := getGroups_one rest (Nat.lt_of_not_le h)
  rwa [UInt8.ofNat_toNat] at hread

theorem getGroups_error {limit left : Nat} {byte : UInt8} {rest after : Bytes} {cause : CodecError}
    (h : Continues byte) (hrest : getGroups limit left rest = .error cause after) :
    getGroups limit (left + 1) (byte :: rest) = .error cause after := by
  have hmore : ¬ byte.toNat < 128 := Nat.not_lt.mpr h
  unfold getGroups
  rw [Step.bind_ok (nextByte_cons byte rest), if_neg hmore]
  exact Step.bind_error hrest

theorem getGroups_whole {limit : Nat} {taken : Bytes} (h : Terminated taken) (rest : Bytes) :
    ∀ {left : Nat}, taken.length ≤ left →
      getGroups limit left (taken ++ rest) = .ok (combined taken) rest := by
  induction h with
  | @last byte hlast =>
      intro left hshort
      obtain ⟨left, rfl⟩ := Nat.exists_eq_add_of_le' hshort
      rw [combined_singleton (Nat.lt_of_not_le hlast)]
      exact getGroups_last rest hlast
  | @more byte others hmore _ ih =>
      intro left hshort
      cases left with
      | zero => simp at hshort
      | succ left =>
          have hbyte : byte.toNat < 256 := byte.toNat_lt
          have hcontinues : 128 ≤ byte.toNat := hmore
          have hlow : byte.toNat % 128 = byte.toNat - 128 := by omega
          rw [List.cons_append, combined_cons, hlow]
          exact getGroups_more (Nat.not_lt.mpr hmore) (ih (Nat.le_of_succ_le_succ hshort))

theorem getGroups_ends {limit : Nat} {bytes : Bytes} : ∀ {left : Nat}, bytes.length < left →
    (∀ byte ∈ bytes, Continues byte) →
      getGroups limit left bytes = .error (.unexpectedEof 1 0) [] := by
  induction bytes with
  | nil =>
      intro left hshort _
      obtain ⟨left, rfl⟩ := Nat.exists_eq_add_of_le' hshort
      rfl
  | cons byte bytes ih =>
      intro left hshort hmore
      obtain ⟨hbyte, hbytes⟩ := List.forall_mem_cons.mp hmore
      cases left with
      | zero => simp at hshort
      | succ left => exact getGroups_error hbyte (ih (Nat.lt_of_succ_lt_succ hshort) hbytes)

theorem getGroups_tooLong {limit : Nat} {taken : Bytes} (rest : Bytes)
    (hmore : ∀ byte ∈ taken, Continues byte) :
    getGroups limit taken.length (taken ++ rest) = .error (.varIntTooLong limit) rest := by
  induction taken with
  | nil => rfl
  | cons byte others ih =>
      obtain ⟨hbyte, hothers⟩ := List.forall_mem_cons.mp hmore
      exact getGroups_error hbyte (ih hothers)

theorem scans_getGroups (limit : Nat) :
    Scans (getGroups limit limit) limit fun taken => .ok (combined taken) where
  whole rest h hshort := getGroups_whole h rest hshort
  ends hshort hmore := getGroups_ends hshort hmore
  tooLong := by
    rintro taken rest rfl hmore
    exact getGroups_tooLong rest hmore

/-! ### The first byte of a signed number -/

theorem flag_eq (byte : UInt8) : decide (64 ≤ byte.toNat % 128) = byte.toNat.testBit 6 := by
  rw [Nat.testBit_eq_decide_div_mod_eq]
  exact decide_eq_decide.mpr (by omega)

theorem getFolded_last {limit : Nat} {byte : UInt8} (rest : Bytes) (h : ¬ Continues byte) :
    getFolded limit (byte :: rest) = .ok (folded [byte]) rest := by
  have hlast : byte.toNat < 128 := Nat.lt_of_not_le h
  unfold getFolded
  rw [Step.bind_ok (nextByte_cons byte rest), if_pos hlast, flag_eq]
  rfl

theorem getFolded_groups {limit : Nat} {byte : UInt8} {taken rest after : Bytes}
    (h : Continues byte)
    (hrest : getGroups limit (limit - 1) rest = .ok (combined taken) after) :
    getFolded limit (byte :: rest) = .ok (folded (byte :: taken)) after := by
  have hmore : ¬ byte.toNat < 128 := Nat.not_lt.mpr h
  unfold getFolded
  rw [Step.bind_ok (nextByte_cons byte rest), if_neg hmore, Step.bind_ok hrest, flag_eq]
  rfl

theorem getFolded_error {limit : Nat} {byte : UInt8} {rest after : Bytes} {cause : CodecError}
    (h : Continues byte) (hrest : getGroups limit (limit - 1) rest = .error cause after) :
    getFolded limit (byte :: rest) = .error cause after := by
  have hmore : ¬ byte.toNat < 128 := Nat.not_lt.mpr h
  unfold getFolded
  rw [Step.bind_ok (nextByte_cons byte rest), if_neg hmore]
  exact Step.bind_error hrest

/-- Behind the first byte a signed number is made of groups, one less than it may have bytes. -/
theorem scans_getFolded {limit : Nat} (hpos : 0 < limit) :
    Scans (getFolded limit) limit fun taken => .ok (folded taken) where
  whole := by
    intro taken rest hterminated hshort
    cases hterminated with
    | last hlast => exact getFolded_last rest hlast
    | more hmore hothers =>
        exact getFolded_groups hmore (getGroups_whole hothers rest (Nat.le_sub_one_of_lt hshort))
  ends := by
    intro bytes hshort hmore
    cases bytes with
    | nil => rfl
    | cons byte others =>
        obtain ⟨hbyte, hothers⟩ := List.forall_mem_cons.mp hmore
        exact getFolded_error hbyte (getGroups_ends (Nat.lt_sub_of_add_lt hshort) hothers)
  tooLong := by
    intro taken rest hlong hmore
    cases taken with
    | nil => simp only [List.length_nil] at hlong; omega
    | cons byte others =>
        obtain ⟨hbyte, hothers⟩ := List.forall_mem_cons.mp hmore
        have hleft : limit - 1 = others.length := by rw [← hlong]; rfl
        refine getFolded_error hbyte ?_
        rw [hleft]
        exact getGroups_tooLong rest hothers

/-! ### Lengths -/

/-- A number is shorter by the binary digits that are cut off. -/
theorem bitLength_div (value digits : Nat) :
    bitLength (value / 2 ^ digits) = bitLength value - digits := by
  unfold bitLength
  by_cases hsmall : value < 2 ^ digits
  · rw [Nat.div_eq_of_lt hsmall, if_pos rfl]
    by_cases hzero : value = 0
    · simp [hzero]
    · have hlog := (Nat.log2_lt hzero).mpr hsmall
      rw [if_neg hzero]
      omega
  · have hpos : 0 < 2 ^ digits := Nat.two_pow_pos digits
    have hzero : value ≠ 0 := by omega
    have hlog : digits ≤ Nat.log 2 value :=
      Nat.le_log_of_pow_le (by decide) (Nat.le_of_not_lt hsmall)
    have hquotient : value / 2 ^ digits ≠ 0 := (Nat.div_pos (Nat.le_of_not_lt hsmall) hpos).ne'
    rw [if_neg hzero, if_neg hquotient, Nat.log2_eq_log_two, Nat.log2_eq_log_two,
      Nat.log_div_base_pow]
    omega

theorem bitLength_le {value digits : Nat} (h : value < 2 ^ digits) : bitLength value ≤ digits := by
  have hcut := bitLength_div value digits
  rw [Nat.div_eq_of_lt h] at hcut
  have hnone : bitLength 0 = 0 := rfl
  omega

theorem unsignedLength_small {value : Nat} (h : value < 128) : unsignedLength value = 1 := by
  have hdigits : bitLength value ≤ 7 := bitLength_le h
  unfold unsignedLength
  omega

theorem unsignedLength_more {value : Nat} (h : ¬ value < 128) :
    unsignedLength value = unsignedLength (value / 128) + 1 := by
  have hcut : bitLength (value / 128) = bitLength value - 7 := bitLength_div value 7
  have hdigits : bitLength (value / 128) ≠ 0 := by
    unfold bitLength
    rw [if_neg (by omega)]
    exact Nat.succ_ne_zero _
  unfold unsignedLength
  omega

/-- **The length of an unsigned number is known before it is written.** -/
theorem length_putUnsigned (value : Nat) :
    (putUnsigned value).length = unsignedLength value := by
  induction value using Nat.strong_induction_on with
  | _ value ih =>
      rw [putUnsigned]
      by_cases h : value < 128
      · rw [if_pos h, unsignedLength_small h, List.length_singleton]
      · rw [if_neg h, List.length_cons, ih (value / 128) (by omega), unsignedLength_more h]

theorem length_putSigned (value : Int) : (putSigned value).length = signedLength value := by
  have hcut : bitLength (magnitude value / 64) = bitLength (magnitude value) - 6 :=
    bitLength_div (magnitude value) 6
  unfold putSigned signedLength
  by_cases h : magnitude value < 64
  · have hdigits : bitLength (magnitude value) ≤ 6 := bitLength_le h
    simp only [if_pos h, List.length_singleton]
    omega
  · have hdigits : bitLength (magnitude value / 64) ≠ 0 := by
      unfold bitLength
      rw [if_neg (by omega)]
      exact Nat.succ_ne_zero _
    simp only [if_neg h, List.length_cons, length_putUnsigned, unsignedLength]
    omega

/-! ### Widths

What is read is checked against the width, and only then made a value. -/

/-- A number that is small enough. -/
def checked {α : Type} (bound size : Nat) (value : α) : Except CodecError α :=
  if size < bound then .ok value else .error .varIntOverflow

section Checked

variable {α β : Type} {bound size : Nat} {found : α} {make : α → β}

theorem checked_ok {value : β} :
    (checked bound size found).map make = .ok value ↔ size < bound ∧ make found = value := by
  unfold checked
  by_cases h : size < bound
  · simp [h, Except.map]
  · simp [h, Except.map]

theorem checked_error {cause : CodecError} :
    (checked bound size found).map make = .error cause ↔
      cause = .varIntOverflow ∧ ¬ size < bound := by
  unfold checked
  by_cases h : size < bound
  · simp [h, Except.map]
  · simp [h, Except.map, eq_comm]

end Checked

theorem scans_getUnsigned (limit bound : Nat) : Scans (getUnsigned limit bound) limit
    fun taken => checked bound (combined taken) (combined taken) := by
  refine (scans_getGroups limit).judge (fun found => checked bound found found) ?_
  intro found rest
  unfold checked
  by_cases h : found < bound
  · simp only [if_pos h]
    rfl
  · simp only [if_neg h]
    rfl

theorem scans_getSigned {limit : Nat} (hpos : 0 < limit) (bound : Nat) :
    Scans (getSigned limit bound) limit
      fun taken => checked bound (folded taken).2 (unfolded taken) := by
  have hsigned : ∀ taken, unfolded taken = ofMagnitude (folded taken).1 (folded taken).2 := by
    intro taken
    unfold unfolded ofMagnitude
    cases (folded taken).1 with
    | false => rfl
    | true => simp only [if_true]; omega
  simp only [hsigned]
  refine (scans_getFolded hpos).judge
    (fun found => checked bound found.2 (ofMagnitude found.1 found.2)) ?_
  intro found rest
  unfold checked
  by_cases h : found.2 < bound
  · simp only [if_pos h]
    rfl
  · simp only [if_neg h]
    rfl

/-- A number fits the width if its magnitude does. -/
theorem folded_lt_iff {bound : Nat} (taken : Bytes) : (folded taken).2 < bound ↔
    -(bound : Int) ≤ unfolded taken ∧ unfolded taken < bound := by
  unfold unfolded
  cases (folded taken).1 with
  | false => simp only [Bool.false_eq_true, if_false]; omega
  | true => simp only [if_true]; omega

/-! ### The four formats -/

/-- A kind of integer on the wire. -/
structure Format (α : Type) where
  get : ByteReader α
  put : α → Bytes
  /-- The most bytes of a number. -/
  limit : Nat
  /-- The number in some bytes. -/
  denoted : Bytes → Int
  /-- A value as a number. -/
  number : α → Int
  /-- The least number. -/
  low : Int
  /-- The number behind the largest. -/
  high : Int
  /-- How many bytes a value takes. -/
  length : α → Nat

namespace Format

variable {α : Type}

/-- Unsigned numbers below a bound. -/
def unsigned (get : ByteReader α) (put : α → Bytes) (limit bound : Nat) (toNat : α → Nat) :
    Format α where
  get := get
  put := put
  limit := limit
  denoted bytes := combined bytes
  number value := toNat value
  low := 0
  high := bound
  length value := unsignedLength (toNat value)

/-- Signed numbers between a bound and its negative. -/
def signed (get : ByteReader α) (put : α → Bytes) (limit bound : Nat) (toInt : α → Int) :
    Format α where
  get := get
  put := put
  limit := limit
  denoted := unfolded
  number := toInt
  low := -bound
  high := bound
  length value := signedLength (toInt value)

def u32 : Format UInt32 := unsigned getU32 putU32 5 (Bits.bound 32) UInt32.toNat

def u64 : Format UInt64 := unsigned getU64 putU64 10 (Bits.bound 64) UInt64.toNat

def i32 : Format Int32 := signed getI32 putI32 5 (Bits.bound 31) Int32.toInt

def i64 : Format Int64 := signed getI64 putI64 10 (Bits.bound 63) Int64.toInt

/-- What is promised of a format, for all bytes and all values. -/
structure Exact (format : Format α) : Prop where
  /-- The values are the numbers of a range. -/
  range : ∀ number, (∃ value, format.number value = number) ↔
    format.low ≤ number ∧ number < format.high
  /-- A value is read from its terminated bytes, if they are not too many. -/
  reads : ∀ bytes value rest, format.get bytes = .ok value rest ↔
    ∃ taken, bytes = taken ++ rest ∧ Terminated taken ∧ taken.length ≤ format.limit ∧
      format.denoted taken = format.number value
  ends : ∀ bytes needed remaining rest,
    format.get bytes = .error (.unexpectedEof needed remaining) rest ↔
      needed = 1 ∧ remaining = 0 ∧ rest = [] ∧ bytes.length < format.limit ∧
        ∀ byte ∈ bytes, Continues byte
  tooLong : ∀ bytes most rest, format.get bytes = .error (.varIntTooLong most) rest ↔
    most = format.limit ∧ ∃ taken, bytes = taken ++ rest ∧ taken.length = format.limit ∧
      ∀ byte ∈ taken, Continues byte
  overflows : ∀ bytes rest, format.get bytes = .error .varIntOverflow rest ↔
    ∃ taken, bytes = taken ++ rest ∧ Terminated taken ∧ taken.length ≤ format.limit ∧
      ¬ (format.low ≤ format.denoted taken ∧ format.denoted taken < format.high)
  /-- There is no other way to fail. -/
  fails : ∀ bytes cause rest, format.get bytes = .error cause rest →
    cause = .unexpectedEof 1 0 ∨ cause = .varIntTooLong format.limit ∨ cause = .varIntOverflow
  /-- What is written is accepted, whatever follows. -/
  written : ∀ value rest, format.get (format.put value ++ rest) = .ok value rest
  /-- Any other bytes of the same value are longer. -/
  shortest : ∀ value taken, format.get taken = .ok value [] → taken ≠ format.put value →
    (format.put value).length < taken.length
  length : ∀ value, (format.put value).length = format.length value

/-- A reader that checks what it found against a width, and makes a value of it, is exact. -/
theorem exact_of_scans {format : Format α} {β : Type} {bound : Nat} {size : Bytes → Nat}
    {found : Bytes → β} {make : β → α}
    (hscans : Scans format.get format.limit
      fun taken => (checked bound (size taken) (found taken)).map make)
    (hfits : ∀ taken, size taken < bound ↔
      format.low ≤ format.denoted taken ∧ format.denoted taken < format.high)
    (hmake : ∀ taken, size taken < bound →
      format.number (make (found taken)) = format.denoted taken)
    (hapart : Function.Injective format.number)
    (hrange : ∀ number, (∃ value, format.number value = number) ↔
      format.low ≤ number ∧ number < format.high)
    (hcanonical : Canonical format.get format.put)
    (hlength : ∀ value, (format.put value).length = format.length value) : format.Exact where
  range := hrange
  reads := by
    intro bytes value rest
    constructor
    · intro h
      cases cut bytes format.limit with
      | whole front behind hterminated hshort =>
          rw [hscans.whole behind hterminated hshort] at h
          obtain ⟨hverdict, rfl⟩ := settled_ok h
          obtain ⟨hsize, rfl⟩ := checked_ok.mp hverdict
          exact ⟨_, rfl, hterminated, hshort, (hmake _ hsize).symm⟩
      | ends hshort hmore => rw [hscans.ends hshort hmore] at h; cases h
      | tooLong front behind hlong hmore => rw [hscans.tooLong behind hlong hmore] at h; cases h
    · rintro ⟨taken, rfl, hterminated, hshort, hnumber⟩
      have hsize : size taken < bound := (hfits taken).mpr ((hrange _).mp ⟨value, hnumber.symm⟩)
      have hvalue : make (found taken) = value := hapart ((hmake taken hsize).trans hnumber)
      rw [hscans.whole rest hterminated hshort, checked_ok.mpr ⟨hsize, hvalue⟩]
      rfl
  ends := by
    intro bytes needed remaining rest
    constructor
    · intro h
      cases cut bytes format.limit with
      | whole front behind hterminated hshort =>
          rw [hscans.whole behind hterminated hshort] at h
          obtain ⟨hcause, -⟩ := checked_error.mp (settled_error h).1
          cases hcause
      | ends hshort hmore =>
          rw [hscans.ends hshort hmore] at h
          cases h
          exact ⟨rfl, rfl, rfl, hshort, hmore⟩
      | tooLong front behind hlong hmore => rw [hscans.tooLong behind hlong hmore] at h; cases h
    · rintro ⟨rfl, rfl, rfl, hshort, hmore⟩
      exact hscans.ends hshort hmore
  tooLong := by
    intro bytes most rest
    constructor
    · intro h
      cases cut bytes format.limit with
      | whole front behind hterminated hshort =>
          rw [hscans.whole behind hterminated hshort] at h
          obtain ⟨hcause, -⟩ := checked_error.mp (settled_error h).1
          cases hcause
      | ends hshort hmore => rw [hscans.ends hshort hmore] at h; cases h
      | tooLong front behind hlong hmore =>
          rw [hscans.tooLong behind hlong hmore] at h
          cases h
          exact ⟨rfl, _, rfl, hlong, hmore⟩
    · rintro ⟨rfl, taken, rfl, hlong, hmore⟩
      exact hscans.tooLong rest hlong hmore
  overflows := by
    intro bytes rest
    constructor
    · intro h
      cases cut bytes format.limit with
      | whole front behind hterminated hshort =>
          rw [hscans.whole behind hterminated hshort] at h
          obtain ⟨hverdict, rfl⟩ := settled_error h
          exact ⟨_, rfl, hterminated, hshort, (hfits _).not.mp (checked_error.mp hverdict).2⟩
      | ends hshort hmore => rw [hscans.ends hshort hmore] at h; cases h
      | tooLong front behind hlong hmore => rw [hscans.tooLong behind hlong hmore] at h; cases h
    · rintro ⟨taken, rfl, hterminated, hshort, hout⟩
      rw [hscans.whole rest hterminated hshort,
        checked_error.mpr ⟨rfl, (hfits taken).not.mpr hout⟩]
      rfl
  fails := by
    intro bytes cause rest h
    cases cut bytes format.limit with
    | whole front behind hterminated hshort =>
        rw [hscans.whole behind hterminated hshort] at h
        exact .inr (.inr (checked_error.mp (settled_error h).1).1)
    | ends hshort hmore =>
        rw [hscans.ends hshort hmore] at h
        cases h
        exact .inl rfl
    | tooLong front behind hlong hmore =>
        rw [hscans.tooLong behind hlong hmore] at h
        cases h
        exact .inr (.inl rfl)
  written := hcanonical.reads
  shortest := by
    intro value taken hread hother
    obtain ⟨same, hsame, hleast⟩ := hcanonical.least hread
    rw [List.append_nil] at hsame
    subst hsame
    exact Nat.lt_of_le_of_ne hleast.1 fun hlength => hother (hleast.2 hlength.symm)
  length := hlength

/-! The formats differ in the machine words that their numbers become. -/

section Words

variable {limit bound : Nat}

theorem exact_unsigned (word : Word α (· < bound)) (hpos : 0 < limit)
    (hlimit : bound ≤ 128 ^ limit) :
    (unsigned (do return word.make (← getUnsigned limit bound))
      (fun value => putUnsigned (word.number value)) limit bound word.number).Exact := by
  refine exact_of_scans ((scans_getUnsigned limit bound).map word.make) ?_ ?_ ?_ ?_
    (canonical_unsigned word hpos hlimit) fun _ => length_putUnsigned _
  · intro taken
    simp only [unsigned]
    omega
  · intro taken hfits
    exact congrArg Nat.cast (word.number_make hfits)
  · intro value other hsame
    exact word.number_injective (Nat.cast_inj.mp hsame)
  · intro number
    constructor
    · rintro ⟨value, rfl⟩
      exact ⟨Nat.cast_nonneg _, Nat.cast_lt.mpr (word.fits value)⟩
    · rintro ⟨hlow, hhigh⟩
      obtain ⟨size, rfl⟩ := Int.eq_ofNat_of_zero_le hlow
      exact ⟨word.make size, congrArg Nat.cast (word.number_make (Nat.cast_lt.mp hhigh))⟩

theorem exact_signed (word : Word α (Word.Signed bound)) (hpos : 1 < limit)
    (hlimit : bound ≤ 64 * 128 ^ (limit - 1)) :
    (signed (do return word.make (← getSigned limit bound))
      (fun value => putSigned (word.number value)) limit bound word.number).Exact :=
  exact_of_scans ((scans_getSigned (Nat.lt_trans Nat.zero_lt_one hpos) bound).map word.make)
    folded_lt_iff (fun taken hfits => word.number_make ((folded_lt_iff taken).mp hfits))
    word.number_injective (fun _ => word.exists_number_iff) (canonical_signed word hpos hlimit)
    fun _ => length_putSigned _

end Words

theorem exact_u32 : u32.Exact := exact_unsigned .u32 (by decide) (by decide)

theorem exact_u64 : u64.Exact := exact_unsigned .u64 (by decide) (by decide)

theorem exact_i32 : i32.Exact := exact_signed .i32 (by decide) (by decide)

theorem exact_i64 : i64.Exact := exact_signed .i64 (by decide) (by decide)

/-- **The four formats are exact**: which bytes are read as which value, why others are refused, and
that what is written is the shortest of all that is read as the same value. -/
theorem formats_exact : u32.Exact ∧ u64.Exact ∧ i32.Exact ∧ i64.Exact :=
  ⟨exact_u32, exact_u64, exact_i32, exact_i64⟩

/-! The last byte that may be taken is used in part only. -/

example : getU32 [255, 255, 255, 255, 15] = .ok 4294967295 [] ∧
    getU32 [255, 255, 255, 255, 16] = .error .varIntOverflow [] ∧
    getU32 [255, 255, 255, 255, 255] = .error (.varIntTooLong 5) [] := ⟨rfl, rfl, rfl⟩

end Format

end Varint

end PathWire

/-
Numbers, bits and bytes are each other's inverses.

A number is the fold of its digits from the left, so every fact here is an induction on the
digits with the number read so far as accumulator: the digits still to come scale it by a
power of the base and add what they denote themselves.
-/
import Mathlib
import PathWire.Bytes

namespace PathWire

/-! ### Numbers and their digits -/

namespace Digits

variable {δ : Type} {base : Nat} {shiftIn : Nat → δ → Nat} {denotes : δ → Nat}

/-- What the digits still to come do to the number read so far. -/
theorem foldl_shiftIn (hshift : ∀ acc digit, shiftIn acc digit = base * acc + denotes digit)
    (digits : List δ) : ∀ acc : Nat,
      digits.foldl shiftIn acc = acc * base ^ digits.length + digits.foldl shiftIn 0 := by
  induction digits with
  | nil => intro acc; simp
  | cons digit rest ih =>
      intro acc
      rw [List.foldl_cons, List.foldl_cons, ih (shiftIn acc digit), ih (shiftIn 0 digit),
        hshift, hshift, List.length_cons]
      ring

/-- The first digit of a number. -/
theorem foldl_cons (hshift : ∀ acc digit, shiftIn acc digit = base * acc + denotes digit)
    (digit : δ) (rest : List δ) : (digit :: rest).foldl shiftIn 0
      = denotes digit * base ^ rest.length + rest.foldl shiftIn 0 := by
  rw [List.foldl_cons, foldl_shiftIn hshift rest, hshift, Nat.mul_zero, Nat.zero_add]

end Digits

namespace Bits

/-! ### Numbers and their bits -/

@[simp] theorem length_ofNat : ∀ (width value : Nat), (ofNat width value).length = width
  | 0, _ => rfl
  | width + 1, value => by rw [ofNat, List.length_cons, length_ofNat width value]

theorem toNat_cons (bit : Bool) (rest : List Bool) :
    toNat (bit :: rest) = bit.toNat * 2 ^ rest.length + toNat rest :=
  Digits.foldl_cons (fun _ _ => rfl) bit rest

theorem toNat_lt (bits : List Bool) : toNat bits < 2 ^ bits.length := by
  induction bits with
  | nil => simp [toNat]
  | cons bit rest ih =>
      rw [toNat_cons, List.length_cons, Nat.pow_succ]
      have hbit : bit.toNat * 2 ^ rest.length ≤ 1 * 2 ^ rest.length :=
        Nat.mul_le_mul_right _ (Bool.toNat_le bit)
      omega

/-- Reading the low bits of a number gives it back modulo the bound. -/
theorem toNat_ofNat (width value : Nat) : toNat (ofNat width value) = value % 2 ^ width := by
  induction width with
  | zero => simp [ofNat, toNat, Nat.mod_one]
  | succ width ih =>
      rw [ofNat, toNat_cons, length_ofNat, ih, Nat.mod_pow_succ, Nat.toNat_testBit]
      ring

theorem toNat_ofNat_of_lt {width value : Nat} (h : value < bound width) :
    toNat (ofNat width value) = value := by
  rw [toNat_ofNat]
  exact Nat.mod_eq_of_lt h

/-- The low bits of a number depend on nothing above them. -/
theorem ofNat_two_pow_mul_add (width high low : Nat) :
    ofNat width (2 ^ width * high + low) = ofNat width low := by
  induction width generalizing high with
  | zero => rfl
  | succ width ih =>
      have hsplit : 2 ^ (width + 1) * high + low = 2 ^ width * (2 * high) + low := by ring
      have hbit : (2 ^ width * (2 * high) + low).testBit width = low.testBit width := by
        rw [Nat.testBit_mul_two_pow_add_eq]
        simp
      rw [ofNat, ofNat, hsplit, hbit, ih (2 * high)]

/-- The bits of the number some bits stand for are these bits. -/
theorem ofNat_toNat (bits : List Bool) : ofNat bits.length (toNat bits) = bits := by
  induction bits with
  | nil => rfl
  | cons bit rest ih =>
      rw [List.length_cons, ofNat, toNat_cons, Nat.mul_comm, ofNat_two_pow_mul_add, ih]
      congr 1
      rw [Nat.testBit_two_pow_mul_add _ (toNat_lt rest)]
      cases bit <;> simp

end Bits

/-! ### Bytes and their bits -/

namespace Byte

/-- A byte made from at most eight bits starts with them, and the rest of it is zero. -/
theorem bits_ofBits {leading : List Bool} (h : leading.length ≤ 8) :
    bits (ofBits leading) = leading ++ List.replicate (8 - leading.length) false := by
  have hpad : (leading ++ List.replicate 8 false).take 8
      = leading ++ List.replicate (8 - leading.length) false := by
    rw [List.take_append, List.take_of_length_le h, List.take_replicate]
    simp
  set padded := leading ++ List.replicate (8 - leading.length) false with hpadded
  have hlen : padded.length = 8 := by simp [hpadded]; omega
  have hlt : Bits.toNat padded < UInt8.size := by
    have := Bits.toNat_lt padded
    rwa [hlen] at this
  rw [bits, ofBits, hpad, UInt8.toNat_ofNat_of_lt' hlt]
  have hbits := Bits.ofNat_toNat padded
  rwa [hlen] at hbits

end Byte

/-! ### Numbers in several bytes -/

namespace Bytes

theorem bigEndian_succ (count value : Nat) : bigEndian (count + 1) value
    = UInt8.ofNat (value / 256 ^ count) :: bigEndian count value := rfl

@[simp] theorem length_bigEndian : ∀ (count value : Nat), (bigEndian count value).length = count
  | 0, _ => rfl
  | count + 1, value => by rw [bigEndian_succ, List.length_cons, length_bigEndian count value]

theorem toNat_cons (byte : UInt8) (rest : Bytes) :
    toNat (byte :: rest) = byte.toNat * 256 ^ rest.length + toNat rest :=
  Digits.foldl_cons (fun _ _ => rfl) byte rest

/-- Reading big-endian bytes gives the number back modulo what they can hold. -/
theorem toNat_bigEndian (count value : Nat) :
    toNat (bigEndian count value) = value % 256 ^ count := by
  induction count with
  | zero => simp [bigEndian, toNat, Nat.mod_one]
  | succ count ih =>
      rw [bigEndian_succ, toNat_cons, length_bigEndian, ih, Nat.mod_pow_succ, UInt8.toNat_ofNat']
      ring

theorem toNat_bigEndian_of_lt {count value : Nat} (h : value < 256 ^ count) :
    toNat (bigEndian count value) = value := by
  rw [toNat_bigEndian, Nat.mod_eq_of_lt h]

/-- The number in so many bytes is below the power. -/
theorem toNat_lt (bytes : Bytes) : toNat bytes < 256 ^ bytes.length := by
  induction bytes with
  | nil => simp [toNat]
  | cons byte rest ih =>
      have hbyte : byte.toNat + 1 ≤ 256 := byte.toNat_lt
      calc toNat (byte :: rest)
          = byte.toNat * 256 ^ rest.length + toNat rest := toNat_cons byte rest
        _ < byte.toNat * 256 ^ rest.length + 256 ^ rest.length := Nat.add_lt_add_left ih _
        _ = (byte.toNat + 1) * 256 ^ rest.length := by ring
        _ ≤ 256 * 256 ^ rest.length := Nat.mul_le_mul_right _ hbyte
        _ = 256 ^ (byte :: rest).length := by rw [List.length_cons, Nat.pow_succ, Nat.mul_comm]

/-- The low bytes of a number depend on nothing above them. -/
theorem bigEndian_pow_mul_add (count high low : Nat) :
    bigEndian count (256 ^ count * high + low) = bigEndian count low := by
  induction count generalizing high with
  | zero => rfl
  | succ count ih =>
      have hsplit : 256 ^ (count + 1) * high + low = 256 ^ count * (256 * high) + low := by ring
      have hfirst : (256 ^ count * (256 * high) + low) / 256 ^ count
          = 256 * high + low / 256 ^ count := Nat.mul_add_div (by positivity) _ _
      have hbyte : UInt8.ofNat (256 * high + low / 256 ^ count)
          = UInt8.ofNat (low / 256 ^ count) := by
        rw [← UInt8.toNat_inj, UInt8.toNat_ofNat', UInt8.toNat_ofNat']
        omega
      rw [bigEndian_succ, bigEndian_succ, hsplit, hfirst, hbyte, ih]

/-- Bytes are the big-endian form of the number they stand for. -/
theorem bigEndian_toNat (bytes : Bytes) : bigEndian bytes.length (toNat bytes) = bytes := by
  induction bytes with
  | nil => rfl
  | cons byte rest ih =>
      have hfirst : (256 ^ rest.length * byte.toNat + toNat rest) / 256 ^ rest.length
          = byte.toNat := by
        rw [Nat.mul_add_div (by positivity), Nat.div_eq_of_lt (toNat_lt rest), Nat.add_zero]
      rw [List.length_cons, bigEndian_succ, toNat_cons, Nat.mul_comm, hfirst,
        bigEndian_pow_mul_add, ih, UInt8.ofNat_toNat]

end Bytes

/-! ### Machine words -/

/-- The values of a type stand for the numbers that fit a machine word. -/
structure Word (α : Type) {N : Type} (Fits : N → Prop) where
  make : N → α
  number : α → N
  fits : ∀ value, Fits (number value)
  make_number : ∀ value, make (number value) = value
  number_make : ∀ {found : N}, Fits found → number (make found) = found

namespace Word

/-- The numbers that fit a signed word. -/
def Signed (bound : Nat) (number : Int) : Prop := -(bound : Int) ≤ number ∧ number < bound

def u8 : Word UInt8 (· < 256 ^ 1) :=
  ⟨UInt8.ofNat, UInt8.toNat, UInt8.toNat_lt, fun _ => UInt8.ofNat_toNat, UInt8.toNat_ofNat_of_lt'⟩

def u16 : Word UInt16 (· < 256 ^ 2) :=
  ⟨UInt16.ofNat, UInt16.toNat, UInt16.toNat_lt, fun _ => UInt16.ofNat_toNat,
    UInt16.toNat_ofNat_of_lt'⟩

def u32 : Word UInt32 (· < 256 ^ 4) :=
  ⟨UInt32.ofNat, UInt32.toNat, UInt32.toNat_lt, fun _ => UInt32.ofNat_toNat,
    UInt32.toNat_ofNat_of_lt'⟩

def u64 : Word UInt64 (· < 256 ^ 8) :=
  ⟨UInt64.ofNat, UInt64.toNat, UInt64.toNat_lt, fun _ => UInt64.ofNat_toNat,
    UInt64.toNat_ofNat_of_lt'⟩

def i32 : Word Int32 (Signed (2 ^ 31)) :=
  ⟨Int32.ofInt, Int32.toInt, fun value => ⟨value.le_toInt, value.toInt_lt⟩, Int32.ofInt_toInt,
    fun h => Int32.toInt_ofInt_of_le h.1 h.2⟩

def i64 : Word Int64 (Signed (2 ^ 63)) :=
  ⟨Int64.ofInt, Int64.toInt, fun value => ⟨value.le_toInt, value.toInt_lt⟩, Int64.ofInt_toInt,
    fun h => Int64.toInt_ofInt_of_le h.1 h.2⟩

variable {α N : Type} {Fits : N → Prop} (word : Word α Fits)

/-- Different words stand for different numbers. -/
theorem number_injective : Function.Injective word.number :=
  Function.LeftInverse.injective word.make_number

/-- The numbers of words are those that fit. -/
theorem exists_number_iff {found : N} : (∃ value, word.number value = found) ↔ Fits found :=
  ⟨fun ⟨value, h⟩ => h ▸ word.fits value, fun h => ⟨word.make found, word.number_make h⟩⟩

end Word

end PathWire

/-
Numbers.

Digits may be parted by single underscores.  An integer has 64 bits and a sign; only one
in the decimal system may be written with a sign, and none of its forms starts with a
needless zero.  A positive number with a point or an exponent must not round to infinity.
-/
import PathWire.Bytes
import PathWire.Toml.Quoted
import PathWire.Toml.Value

namespace PathWire.Toml

/-- One or more digits, with single underscores between. -/
def digitRun (isDigit : Char → Bool) : Rule (List Char) := do
  let first ← Rule.one isDigit
  return first :: (← Rule.many (Rule.one isDigit <|> (Rule.word "_" *> Rule.one isDigit)))

/-- Whether a number is negative. -/
def sign : Rule Bool := do
  return (← Rule.optional (Rule.one fun c => c == '+' || c == '-')) == some '-'

/-- The digits before a point: zero alone, or digits that do not start with it. -/
def wholeDigits : Rule (List Char) :=
  (do Rule.word "0"; return ['0']) <|> digitRun Char.isDigit

/-! ### Integers -/

/-- An integer in another base than ten, after the mark of the base. -/
def basedInteger (mark : String) (base : Nat) (isDigit : Char → Bool) : Rule Int := do
  Rule.word mark
  return Int.ofNat (ofDigits base (← digitRun isDigit))

/-- An integer in the decimal system. -/
def decimalInteger : Rule Int := do
  let negative ← sign
  let size := Int.ofNat (ofDigits 10 (← wholeDigits))
  return if negative then -size else size

/-- An integer of any size. -/
def anyInteger : Rule Int :=
  basedInteger "0x" 16 isHexDigit <|>
    basedInteger "0o" 8 (fun c => '0' ≤ c && c ≤ '7') <|>
    basedInteger "0b" 2 (fun c => c == '0' || c == '1') <|>
    decimalInteger

/-- An integer. -/
def integer : Rule Int :=
  anyInteger.checked fun number =>
    if -(Bits.bound 63 : Int) ≤ number ∧ number < Bits.bound 63 then some number else none

/-! ### Numbers with a point or an exponent -/

/-- The least number that rounds to infinity: half a unit above the greatest finite number
of double precision. -/
def overflowBound : Nat := (Bits.bound 54 - 1) * Bits.bound 970

/-- The number of a number's decimal digits. -/
def decimalLength (number : Nat) : Nat := (Nat.toDigits 10 number).length

/-- Whether a number with so many digits, times ten to the exponent, rounds to infinity.
The number of digits alone decides it but for those near the bound, which has 309. -/
def overflows (digits : Nat) (exponent : Int) : Bool :=
  let places := decimalLength digits + exponent
  if digits = 0 ∨ places < 309 then false
  else if 309 < places then true
  else if exponent < 0 then overflowBound * Nat.pow 10 exponent.natAbs ≤ digits
  else overflowBound ≤ digits * Nat.pow 10 exponent.natAbs

/-- An exponent of ten. -/
def exponent : Rule Int := do
  let _ ← Rule.one fun c => c == 'e' || c == 'E'
  let negative ← sign
  let size := Int.ofNat (ofDigits 10 (← digitRun Char.isDigit))
  return if negative then -size else size

/-- A number with a point, an exponent, or both. -/
def decimalReal : Rule Real := do
  let negative ← sign
  let whole ← wholeDigits
  let fraction ← Rule.optional (Rule.word "." *> digitRun Char.isDigit)
  let power ← Rule.optional exponent
  if fraction.isNone ∧ power.isNone then failure
  let places := (fraction.getD []).length
  return .decimal negative (ofDigits 10 (whole ++ fraction.getD [])) (power.getD 0 - places)

/-- Infinity and the number that is none, by their names. -/
def namedReal : Rule Real := do
  let negative ← sign
  (do Rule.word "inf"; return .infinity negative) <|>
    (do Rule.word "nan"; return .nan negative)

/-- A number that is not an integer by its form. -/
def real : Rule Real :=
  decimalReal.checked (fun
    | .decimal false digits power =>
      if overflows digits power then none else some (.decimal false digits power)
    | number => some number) <|>
  namedReal

end PathWire.Toml

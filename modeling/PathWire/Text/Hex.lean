/-
Bytes as hexadecimal text, two digits to a byte.
-/
import PathWire.Bytes

namespace PathWire.Hex

/-- The digit for a number below sixteen. -/
def digit (n : Nat) : Char := if n < 10 then Char.ofNat (48 + n) else Char.ofNat (87 + n)

/-- The number a digit stands for. -/
def value? (c : Char) : Option Nat :=
  if '0' ≤ c ∧ c ≤ '9' then some (c.toNat - 48)
  else if 'a' ≤ c ∧ c ≤ 'f' then some (c.toNat - 87)
  else if 'A' ≤ c ∧ c ≤ 'F' then some (c.toNat - 55)
  else none

/-- The digits of a byte. -/
def digits (byte : UInt8) : List Char := [digit (byte.toNat / 16), digit (byte.toNat % 16)]

/-- The text of some bytes. -/
def encode (bytes : Bytes) : String := String.ofList (bytes.flatMap digits)

/-- Adds the bytes of a list of digits to those before it. -/
def decodeOnto (bytes : Array UInt8) : List Char → Option (Array UInt8)
  | [] => some bytes
  | [_] => none
  | high :: low :: rest =>
    match value? high, value? low with
    | some h, some l => decodeOnto (bytes.push (UInt8.ofNat (16 * h + l))) rest
    | _, _ => none

/-- The bytes a text stands for. -/
def decode? (text : String) : Option Bytes := (decodeOnto #[] text.toList).map Array.toList

end PathWire.Hex

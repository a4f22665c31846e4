/-
Bytes, their bits and big-endian numbers.

Everything on the wire is a list of bytes.  Inside a byte the first bit is the
most significant one, and a number that takes several bytes starts with its most
significant byte, so bits and bytes read in the same direction: a number is the
fold of its digits from the left, in base 2 or in base 256.
-/

namespace PathWire

/-- A byte string: the unit of everything that is sent, queued or stored. -/
abbrev Bytes := List UInt8

namespace Bits

/-- How many numbers can be written in so many bits: each of them is below this bound. -/
def bound (width : Nat) : Nat := Nat.pow 2 width

/-- The low `width` bits of `value`, most significant first. -/
def ofNat : (width value : Nat) → List Bool
  | 0, _ => []
  | width + 1, value => value.testBit width :: ofNat width value

/-- One more binary digit on the right of a number. -/
def shiftIn (value : Nat) (bit : Bool) : Nat := 2 * value + bit.toNat

/-- The number whose binary digits are `bits`, most significant first. -/
def toNat (bits : List Bool) : Nat := bits.foldl shiftIn 0

end Bits

namespace Byte

/-- The eight bits of a byte, most significant first. -/
def bits (byte : UInt8) : List Bool := Bits.ofNat 8 byte.toNat

/-- The byte whose leading bits are `bits` and whose other bits are zero.  Only the
first eight bits count. -/
def ofBits (bits : List Bool) : UInt8 :=
  UInt8.ofNat (Bits.toNat ((bits ++ List.replicate 8 false).take 8))

end Byte

namespace Bytes

/-- `value` in `count` big-endian bytes, modulo `256 ^ count`. -/
def bigEndian : (count value : Nat) → Bytes
  | 0, _ => []
  | count + 1, value => UInt8.ofNat (value / Nat.pow 256 count) :: bigEndian count value

/-- One more base-256 digit on the right of a number. -/
def shiftIn (value : Nat) (byte : UInt8) : Nat := 256 * value + byte.toNat

/-- The number whose base-256 digits are `bytes`, most significant first. -/
def toNat (bytes : Bytes) : Nat := bytes.foldl shiftIn 0

/-- The text's UTF-8 bytes. -/
def ofString (text : String) : Bytes := text.toByteArray.data.toList

end Bytes

end PathWire

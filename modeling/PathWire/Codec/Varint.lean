/-
Variable-length integers.

An unsigned number is cut into groups of seven bits, least significant group first;
every byte but the last has its high bit set.  A signed number is folded first: a
negative `v` becomes the magnitude `-1 - v` with a sign flag.  Its first byte holds the
continuation bit, the sign flag and six bits of magnitude, and the rest of the magnitude
follows as an unsigned number.

Reading consumes the bytes it looked at even if it fails, so a reader is a function from
the bytes to a result together with the bytes left.
-/
import PathWire.Codec.Error

namespace PathWire

/-- The most bytes a 32-bit variable-length integer takes. -/
def maxVar32Bytes : Nat := 5

/-- The most bytes a 64-bit variable-length integer takes. -/
def maxVar64Bytes : Nat := 10

/-- A step that takes bytes off the front of a byte string. -/
abbrev ByteReader := EStateM CodecError Bytes

namespace Varint

/-- The number of binary digits of `n`, none for zero. -/
def bitLength (n : Nat) : Nat := if n = 0 then 0 else n.log2 + 1

/-! ### Unsigned numbers -/

/-- The groups of an unsigned number. -/
def putUnsigned (value : Nat) : Bytes :=
  if value < 128 then [UInt8.ofNat value]
  else UInt8.ofNat (value % 128 + 128) :: putUnsigned (value / 128)
termination_by value

/-- The number of bytes `putUnsigned` gives. -/
def unsignedLength (value : Nat) : Nat := (max (bitLength value) 1 + 6) / 7

/-- Takes the next byte. -/
def nextByte : ByteReader UInt8
  | [] => .error (.unexpectedEof 1 0) []
  | byte :: rest => .ok byte rest

/-- Reads groups up to one without the continuation bit, at most `left` of them; `limit` is
the bound an error reports. -/
def getGroups (limit : Nat) : (left : Nat) → ByteReader Nat
  | 0 => throw (.varIntTooLong limit)
  | left + 1 => do
    let byte ← nextByte
    if byte.toNat < 128 then
      return byte.toNat
    else
      let higher ← getGroups limit left
      return (byte.toNat - 128) + 128 * higher

/-- Reads an unsigned number below `bound` of at most `limit` bytes. -/
def getUnsigned (limit bound : Nat) : ByteReader Nat := do
  let value ← getGroups limit limit
  if value < bound then return value else throw .varIntOverflow

/-! ### Signed numbers -/

/-- The magnitude a signed number is stored as: itself, or the complement of a negative one. -/
def magnitude (value : Int) : Nat := if value < 0 then (-1 - value).toNat else value.toNat

/-- The signed number with the given flag and magnitude. -/
def ofMagnitude (negative : Bool) (magnitude : Nat) : Int :=
  if negative then -1 - (magnitude : Int) else magnitude

/-- The flag a signed number's first byte carries. -/
def signFlag (negative : Bool) : Nat := if negative then 64 else 0

/-- The bytes of a signed number. -/
def putSigned (value : Int) : Bytes :=
  let size := magnitude value
  let sign := signFlag (value < 0)
  if size < 64 then [UInt8.ofNat (size + sign)]
  else UInt8.ofNat (size % 64 + sign + 128) :: putUnsigned (size / 64)

/-- The number of bytes `putSigned` gives. -/
def signedLength (value : Int) : Nat := 1 + (bitLength (magnitude value) - 6 + 6) / 7

/-- Reads the flag and the magnitude of a signed number of at most `limit` bytes. -/
def getFolded (limit : Nat) : ByteReader (Bool × Nat) := do
  let first ← nextByte
  let negative := decide (64 ≤ first.toNat % 128)
  let low := first.toNat % 64
  if first.toNat < 128 then
    return (negative, low)
  else
    let higher ← getGroups limit (limit - 1)
    return (negative, low + 64 * higher)

/-- Reads a signed number whose magnitude is below `bound`, of at most `limit` bytes. -/
def getSigned (limit bound : Nat) : ByteReader Int := do
  let (negative, size) ← getFolded limit
  if size < bound then return ofMagnitude negative size else throw .varIntOverflow

/-! ### The four widths -/

def putU32 (value : UInt32) : Bytes := putUnsigned value.toNat

def putU64 (value : UInt64) : Bytes := putUnsigned value.toNat

def putI32 (value : Int32) : Bytes := putSigned value.toInt

def putI64 (value : Int64) : Bytes := putSigned value.toInt

def getU32 : ByteReader UInt32 := do
  return UInt32.ofNat (← getUnsigned maxVar32Bytes (Bits.bound 32))

def getU64 : ByteReader UInt64 := do
  return UInt64.ofNat (← getUnsigned maxVar64Bytes (Bits.bound 64))

def getI32 : ByteReader Int32 := do
  return Int32.ofInt (← getSigned maxVar32Bytes (Bits.bound 31))

def getI64 : ByteReader Int64 := do
  return Int64.ofInt (← getSigned maxVar64Bytes (Bits.bound 63))

end Varint

end PathWire

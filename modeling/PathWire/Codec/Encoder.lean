/-
Writing bit-packed fields.

Booleans and fixed-width fields share a rolling byte, filled from its most significant
bit down.  A byte-aligned field seals that byte, its unused bits being zero, and starts
on a fresh one.  A rejected write leaves the encoder as it was, so every write is a
function from an encoder to an error or the next encoder.
-/
import PathWire.Codec.Identifier
import PathWire.Codec.Varint

namespace PathWire

/-- The number of bits that tell `count` values apart. -/
def enumBitWidth (count : Nat) : Except CodecError Nat :=
  if count = 0 then .error .emptyEnum else .ok (Varint.bitLength (count - 1))

/-- The widths a fixed-width field may have. -/
def isBitCount (width : Nat) : Bool := 1 ≤ width && width ≤ 32

/-- The longest length a length field can say. -/
def maxLengthField : Nat := Bits.bound 32 - 1

/-- A bit buffer being written. -/
structure Encoder where
  /-- The bytes that no later write changes. -/
  done : Array UInt8
  /-- The bits of the rolling byte so far, fewer than eight. -/
  rolling : List Bool
  /-- The kinds of the accepted fields, if this encoder is a checking one. -/
  log : Option OpLog

namespace Encoder

/-- An encoder that has written nothing. -/
def empty : Encoder := ⟨#[], [], none⟩

/-- An encoder that has written nothing and records every field. -/
def checking : Encoder := ⟨#[], [], some #[]⟩

/-- The rolling byte as it would be sealed. -/
def rollingBytes (rolling : List Bool) : Bytes :=
  if rolling.isEmpty then [] else [Byte.ofBits rolling]

/-- Everything written so far. -/
def bytes (enc : Encoder) : Bytes := enc.done.toList ++ rollingBytes enc.rolling

/-- The number of bytes written so far. -/
def length (enc : Encoder) : Nat := enc.done.size + (rollingBytes enc.rolling).length

/-- The log, empty unless this is a checking encoder. -/
def opLog (enc : Encoder) : OpLog := enc.log.getD #[]

/-- Adds a field's kind to the log of a checking encoder. -/
def record (enc : Encoder) (op : Op) : Encoder := { enc with log := enc.log.map (·.push op) }

/-- Adds one bit to the rolling byte, and closes the byte when it is full. -/
def pushBit (enc : Encoder) (bit : Bool) : Encoder :=
  let rolling := enc.rolling ++ [bit]
  if rolling.length < 8 then { enc with rolling }
  else { enc with done := enc.done.push (Byte.ofBits rolling), rolling := [] }

/-- Adds several bits. -/
def pushBits (enc : Encoder) (bits : List Bool) : Encoder := bits.foldl pushBit enc

/-- Seals the rolling byte and adds whole bytes. -/
def append (enc : Encoder) (bytes : Bytes) : Encoder :=
  { enc with done := enc.done ++ rollingBytes enc.rolling ++ bytes, rolling := [] }

/-! ### Bit fields -/

/-- Writes a boolean in one bit. -/
def writeBool (enc : Encoder) (value : Bool) : Encoder := (enc.record .bool).pushBit value

/-- Writes a number in `width` bits. -/
def writeBits (enc : Encoder) (value width : Nat) : Except CodecError Encoder :=
  if !isBitCount width then .error (.invalidBitCount width)
  else if value < Bits.bound width then
    .ok ((enc.record (.bits width)).pushBits (Bits.ofNat width value))
  else .error (.valueOutOfRange value width)

/-- Writes one of `count` ordinals in as few bits as tell them apart; a single ordinal
takes none. -/
def writeEnum (enc : Encoder) (ordinal count : Nat) : Except CodecError Encoder := do
  let width ← enumBitWidth count
  if ordinal < count then
    return (enc.record (.enum count)).pushBits (Bits.ofNat width ordinal)
  else throw (.valueOutOfRange ordinal width)

/-! ### Byte-aligned fields

Fixed-width numbers are big-endian. -/

def writeU8 (enc : Encoder) (value : UInt8) : Encoder := (enc.record .u8).append [value]

def writeU16 (enc : Encoder) (value : UInt16) : Encoder :=
  (enc.record .u16).append (Bytes.bigEndian 2 value.toNat)

def writeU32 (enc : Encoder) (value : UInt32) : Encoder :=
  (enc.record .u32).append (Bytes.bigEndian 4 value.toNat)

def writeU64 (enc : Encoder) (value : UInt64) : Encoder :=
  (enc.record .u64).append (Bytes.bigEndian 8 value.toNat)

/-- Writes a single-precision number, given by its bit pattern. -/
def writeF32 (enc : Encoder) (pattern : UInt32) : Encoder :=
  (enc.record .f32).append (Bytes.bigEndian 4 pattern.toNat)

/-- Writes a double-precision number, given by its bit pattern. -/
def writeF64 (enc : Encoder) (pattern : UInt64) : Encoder :=
  (enc.record .f64).append (Bytes.bigEndian 8 pattern.toNat)

def writeVarI32 (enc : Encoder) (value : Int32) : Encoder :=
  (enc.record .varI32).append (Varint.putI32 value)

def writeVarI64 (enc : Encoder) (value : Int64) : Encoder :=
  (enc.record .varI64).append (Varint.putI64 value)

def writeVarU32 (enc : Encoder) (value : UInt32) : Encoder :=
  (enc.record .varU32).append (Varint.putU32 value)

def writeVarU64 (enc : Encoder) (value : UInt64) : Encoder :=
  (enc.record .varU64).append (Varint.putU64 value)

/-- A length field and the bytes it counts. -/
def counted (data : Bytes) : Bytes := Varint.putUnsigned data.length ++ data

/-- Writes raw bytes behind their length. -/
def writeByteBlock (enc : Encoder) (data : Bytes) : Except CodecError Encoder :=
  if data.length ≤ maxLengthField then .ok ((enc.record .byteBlock).append (counted data))
  else .error (.blockTooLong data.length maxLengthField)

/-- Writes a text of at most `limit` UTF-8 bytes behind its length; a longer one is
rejected, never cut. -/
def writeStr (enc : Encoder) (text : String) (limit : Nat) : Except CodecError Encoder :=
  let data := Bytes.ofString text
  if data.length ≤ maxLengthField ∧ data.length ≤ limit then
    .ok ((enc.record .str).append (counted data))
  else .error (.stringTooLong data.length limit)

/-- Writes an identifier in its written form. -/
def writeIdentifier (enc : Encoder) (id : Identifier) : Encoder :=
  (enc.record .identifier).append (counted (Bytes.ofString id.display))

end Encoder

end PathWire

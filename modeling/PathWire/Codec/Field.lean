/-
Fields as data.

A sequence of writes, the sequence of reads that matches it and the values they carry
are lists here, so that what is said of one field can be said of every sequence.
-/
import PathWire.Codec.Decoder

namespace PathWire

/-- One write, with its value and its parameter. -/
inductive FieldWrite where
  | bool (value : Bool)
  | bits (value width : Nat)
  | enum (ordinal count : Nat)
  | u8 (value : UInt8)
  | u16 (value : UInt16)
  | u32 (value : UInt32)
  | u64 (value : UInt64)
  | f32 (pattern : UInt32)
  | f64 (pattern : UInt64)
  | varI32 (value : Int32)
  | varI64 (value : Int64)
  | varU32 (value : UInt32)
  | varU64 (value : UInt64)
  | block (data : Bytes)
  | str (text : String) (limit : Nat)
  | ident (id : Identifier)

/-- One read, with its parameter. -/
inductive FieldRead where
  | bool
  | bits (width : Nat)
  | enum (count : Nat)
  | u8 | u16 | u32 | u64
  | f32 | f64
  | varI32 | varI64 | varU32 | varU64
  | block (limit : Nat)
  | str (limit : Nat)
  | ident
  /-- An identifier, or nothing for a text that is none. -/
  | identSafe
  deriving DecidableEq, Repr

/-- What a read gives. -/
inductive FieldValue where
  | bool (value : Bool)
  | bits (value : Nat)
  | enum (ordinal : Nat)
  | u8 (value : UInt8)
  | u16 (value : UInt16)
  | u32 (value : UInt32)
  | u64 (value : UInt64)
  | f32 (pattern : UInt32)
  | f64 (pattern : UInt64)
  | varI32 (value : Int32)
  | varI64 (value : Int64)
  | varU32 (value : UInt32)
  | varU64 (value : UInt64)
  | block (data : Bytes)
  | str (text : String)
  | ident (id : Identifier)
  | identSafe (id : Option Identifier)

/-- Writes one field. -/
def Encoder.write (enc : Encoder) : FieldWrite → Except CodecError Encoder
  | .bool value => .ok (enc.writeBool value)
  | .bits value width => enc.writeBits value width
  | .enum ordinal count => enc.writeEnum ordinal count
  | .u8 value => .ok (enc.writeU8 value)
  | .u16 value => .ok (enc.writeU16 value)
  | .u32 value => .ok (enc.writeU32 value)
  | .u64 value => .ok (enc.writeU64 value)
  | .f32 pattern => .ok (enc.writeF32 pattern)
  | .f64 pattern => .ok (enc.writeF64 pattern)
  | .varI32 value => .ok (enc.writeVarI32 value)
  | .varI64 value => .ok (enc.writeVarI64 value)
  | .varU32 value => .ok (enc.writeVarU32 value)
  | .varU64 value => .ok (enc.writeVarU64 value)
  | .block data => enc.writeByteBlock data
  | .str text limit => enc.writeStr text limit
  | .ident id => .ok (enc.writeIdentifier id)

/-- Reads one field. -/
def Reader.field : FieldRead → Reader FieldValue
  | .bool => return .bool (← Reader.bool)
  | .bits width => return .bits (← Reader.bits width)
  | .enum count => return .enum (← Reader.enum count)
  | .u8 => return .u8 (← Reader.u8)
  | .u16 => return .u16 (← Reader.u16)
  | .u32 => return .u32 (← Reader.u32)
  | .u64 => return .u64 (← Reader.u64)
  | .f32 => return .f32 (← Reader.f32)
  | .f64 => return .f64 (← Reader.f64)
  | .varI32 => return .varI32 (← Reader.varI32)
  | .varI64 => return .varI64 (← Reader.varI64)
  | .varU32 => return .varU32 (← Reader.varU32)
  | .varU64 => return .varU64 (← Reader.varU64)
  | .block limit => return .block (← Reader.byteBlock limit)
  | .str limit => return .str (← Reader.str limit)
  | .ident => return .ident (← Reader.identifier)
  | .identSafe => return .identSafe (← Reader.identifier?)

/-! ### Sequences of fields -/

/-- Writes fields one after the other, leaving out those that are rejected. -/
def Encoder.writeAll (enc : Encoder) (writes : List FieldWrite) : Encoder :=
  writes.foldl (fun enc field => (enc.write field).toOption.getD enc) enc

/-- Reads fields one after the other, up to the first that fails. -/
def Reader.fields : List FieldRead → Reader (List FieldValue)
  | [] => return []
  | field :: rest => do
    let value ← Reader.field field
    return value :: (← Reader.fields rest)

/-! ### Enumerations -/

/-- An enumeration with a fixed number of ordinals.  Not every ordinal needs to stand for a
value. -/
structure WireEnum (E : Type) where
  count : Nat
  ordinal : E → Nat
  ofOrdinal : Nat → Option E

/-- Writes a value of an enumeration. -/
def Encoder.writeEnumValue {E : Type} (kind : WireEnum E) (enc : Encoder) (value : E) :
    Except CodecError Encoder :=
  enc.writeEnum (kind.ordinal value) kind.count

/-- Reads a value of an enumeration; an ordinal without a value is an error. -/
def Reader.enumValue {E : Type} (kind : WireEnum E) : Reader E := do
  let ordinal ← Reader.enum kind.count
  match kind.ofOrdinal ordinal with
  | some value => return value
  | none => throw (.enumOutOfRange ordinal kind.count)

end PathWire

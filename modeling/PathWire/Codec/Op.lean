/-
The kinds of fields a bit buffer holds, and the record of them.

The wire does not say which kind of field produced which bytes.  A checking writer
therefore keeps a log with one entry per field, and a checking reader compares each
of its reads with that log.
-/

namespace PathWire

/-- The kind of one field, as a log records it. -/
inductive Op where
  | bool
  | bits (width : Nat)
  | enum (count : Nat)
  | u8 | u16 | u32 | u64
  | f32 | f64
  | varI32 | varI64 | varU32 | varU64
  | byteBlock
  | str
  | identifier
  deriving DecidableEq, Repr

/-- The name of a kind of field, as messages show it. -/
def Op.display : Op → String
  | .bool => "bool"
  | .bits width => s!"bits({width})"
  | .enum count => s!"enum({count})"
  | .u8 => "u8"
  | .u16 => "u16"
  | .u32 => "u32"
  | .u64 => "u64"
  | .f32 => "f32"
  | .f64 => "f64"
  | .varI32 => "vari32"
  | .varI64 => "vari64"
  | .varU32 => "varu32"
  | .varU64 => "varu64"
  | .byteBlock => "byteblock"
  | .str => "str"
  | .identifier => "identifier"

/-- The fields a checking writer wrote, in order. -/
abbrev OpLog := Array Op

end PathWire

/-
Why a field could not be written or read.

Each cause is a constructor that keeps the numbers its message shows.  Causes fall
into three classes: the bytes are bad, the caller asked for something impossible, or
a checking reader saw the reads diverge from the writes.
-/
import PathWire.Codec.Op
import PathWire.Text.Utf8

namespace PathWire

/-- The three classes of codec and protocol failures. -/
inductive ErrorKind where
  /-- The bytes cannot be decoded; the message is dropped and the connection kept. -/
  | malformed
  /-- The local side passed impossible arguments or declared an impossible tree. -/
  | misuse
  /-- A checking reader's reads diverged from the writer's log. -/
  | debugMismatch
  deriving DecidableEq, Repr

/-- The class's name. -/
def ErrorKind.name : ErrorKind → String
  | .malformed => "Malformed"
  | .misuse => "Misuse"
  | .debugMismatch => "DebugMismatch"

/-- Why writing or reading a field failed. -/
inductive CodecError where
  | unexpectedEof (needed remaining : Nat)
  | invalidBitCount (width : Nat)
  | valueOutOfRange (value width : Nat)
  | emptyEnum
  | enumOutOfRange (ordinal count : Nat)
  | varIntTooLong (maxBytes : Nat)
  | varIntOverflow
  | stringTooLong (length max : Nat)
  | blockTooLong (length max : Nat)
  | invalidUtf8 (fault : Utf8.Fault)
  | invalidIdentifier (text : String)
  | mismatch (index : Nat) (written read : Op)
  | exhausted (index : Nat) (read : Op)
  | unconsumed (index unread : Nat)
  deriving DecidableEq, Repr

namespace CodecError

/-- The class a cause belongs to. -/
def kind : CodecError → ErrorKind
  | invalidBitCount _ | emptyEnum | valueOutOfRange _ _ => .misuse
  | mismatch _ _ _ | exhausted _ _ | unconsumed _ _ => .debugMismatch
  | _ => .malformed

/-- The cause in words. -/
def message : CodecError → String
  | unexpectedEof needed remaining =>
    s!"unexpected end of buffer: need {needed} bytes, {remaining} remaining"
  | invalidBitCount width => s!"invalid bit count {width} (expected 1..=32)"
  | valueOutOfRange value width => s!"value {value} does not fit in {width} bits"
  | emptyEnum => "enum codec needs at least one variant"
  | enumOutOfRange ordinal count => s!"enum ordinal {ordinal} out of range for {count} variants"
  | varIntTooLong maxBytes => s!"varint longer than {maxBytes} bytes"
  | varIntOverflow => "varint value exceeds the target width"
  | stringTooLong length max => s!"string of {length} bytes exceeds limit {max}"
  | blockTooLong length max => s!"byte block of {length} bytes exceeds limit {max}"
  | invalidUtf8 fault => "invalid utf-8: " ++ fault.message
  | invalidIdentifier text => s!"invalid identifier '{text}'"
  | mismatch index written read =>
    s!"operation {index}: written as {written.display}, read as {read.display}"
  | exhausted index read => s!"operation {index}: read {read.display} past the end of the write log"
  | unconsumed index unread => s!"{unread} written operations never read (first at {index})"

end CodecError

end PathWire

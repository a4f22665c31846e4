/-
Reading bit-packed fields.

A decoder retraces the encoder: it keeps the unread bits of the rolling byte and the
unread whole bytes, and a byte-aligned read drops the former.  A failed read leaves the
decoder where the failure was noticed, so a read is a step on the decoder's state that
keeps the state in both outcomes.
-/
import PathWire.Codec.Encoder

namespace PathWire

/-- The log a checking decoder follows, and the number of reads that matched it. -/
structure Checker where
  log : OpLog
  cursor : Nat

/-- A bit buffer being read. -/
structure Decoder where
  /-- The whole bytes not yet read. -/
  rest : Bytes
  /-- The unread bits of the rolling byte. -/
  rolling : List Bool
  /-- The log to follow, if this decoder is a checking one. -/
  check : Option Checker

/-- A step that reads from a decoder. -/
abbrev Reader := EStateM CodecError Decoder

namespace Decoder

/-- A decoder at the start of `bytes`. -/
def ofBytes (bytes : Bytes) : Decoder := ⟨bytes, [], none⟩

/-- A decoder at the start of `bytes` that compares every read with `log`. -/
def checking (bytes : Bytes) (log : OpLog) : Decoder := ⟨bytes, [], some ⟨log, 0⟩⟩

/-- The number of unread whole bytes; unread bits of the rolling byte do not count. -/
def remaining (dec : Decoder) : Nat := dec.rest.length

/-- Whether whole bytes are left. -/
def hasRemaining (dec : Decoder) : Bool := !dec.rest.isEmpty

/-- A checking decoder is done only when the whole log has been read. -/
def finishChecked (dec : Decoder) : Except CodecError Unit :=
  match dec.check with
  | some check =>
    if check.cursor < check.log.size then
      .error (.unconsumed check.cursor (check.log.size - check.cursor))
    else .ok ()
  | none => .ok ()

end Decoder

namespace Reader

/-- Compares the field about to be read with the log, and advances the log's cursor if they
agree. -/
def expect (op : Op) : Reader Unit := do
  let dec ← get
  match dec.check with
  | none => return ()
  | some check =>
    match check.log[check.cursor]? with
    | some written =>
      if written = op then
        set { dec with check := some { check with cursor := check.cursor + 1 } }
      else throw (.mismatch check.cursor written op)
    | none => throw (.exhausted check.cursor op)

/-- Drops the unread bits of the rolling byte. -/
def align : Reader Unit := modify fun dec => { dec with rolling := [] }

/-- Fails unless `needed` whole bytes are left. -/
def ensure (needed : Nat) : Reader Unit := do
  let remaining := (← get).remaining
  if remaining < needed then throw (.unexpectedEof needed remaining)

/-- Takes the next `count` whole bytes. -/
def take (count : Nat) : Reader Bytes := do
  ensure count
  modifyGet fun dec => (dec.rest.take count, { dec with rest := dec.rest.drop count })

/-- Runs a step on the unread whole bytes. -/
def onBytes {α : Type} (step : ByteReader α) : Reader α := fun dec =>
  match step dec.rest with
  | .ok value rest => .ok value { dec with rest }
  | .error e rest => .error e { dec with rest }

/-- Takes the next bit, opening a new rolling byte if the last one is used up. -/
def pullBit : Reader Bool := do
  let dec ← get
  match dec.rolling with
  | bit :: rolling =>
    set { dec with rolling }
    return bit
  | [] =>
    match dec.rest with
    | [] => throw (.unexpectedEof 1 0)
    | byte :: rest =>
      set { dec with rest, rolling := (Byte.bits byte).tail }
      return (Byte.bits byte).headD false

/-- Reads `width` more bits behind those of `value`. -/
def pullBits (value : Nat) : (width : Nat) → Reader Nat
  | 0 => return value
  | width + 1 => do
    let bit ← pullBit
    pullBits (Bits.shiftIn value bit) width

/-! ### Bit fields -/

def bool : Reader Bool := do
  expect .bool
  pullBit

/-- Reads a number of `width` bits. -/
def bits (width : Nat) : Reader Nat := do
  if !isBitCount width then throw (.invalidBitCount width)
  expect (.bits width)
  pullBits 0 width

/-- Reads one of `count` ordinals. -/
def enum (count : Nat) : Reader Nat := do
  let width ← match enumBitWidth count with
    | .ok width => pure width
    | .error e => throw e
  expect (.enum count)
  let ordinal ← pullBits 0 width
  if ordinal < count then return ordinal else throw (.enumOutOfRange ordinal count)

/-! ### Byte-aligned fields -/

/-- Reads `count` bytes that hold a field of kind `op`, as a big-endian number. -/
def word (op : Op) (count : Nat) : Reader Nat := do
  expect op
  align
  return Bytes.toNat (← take count)

def u8 : Reader UInt8 := return UInt8.ofNat (← word .u8 1)

def u16 : Reader UInt16 := return UInt16.ofNat (← word .u16 2)

def u32 : Reader UInt32 := return UInt32.ofNat (← word .u32 4)

def u64 : Reader UInt64 := return UInt64.ofNat (← word .u64 8)

def f32 : Reader UInt32 := return UInt32.ofNat (← word .f32 4)

def f64 : Reader UInt64 := return UInt64.ofNat (← word .f64 8)

/-- Reads a variable-length integer of kind `op`. -/
def varint {α : Type} (op : Op) (step : ByteReader α) : Reader α := do
  expect op
  align
  onBytes step

def varI32 : Reader Int32 := varint .varI32 Varint.getI32

def varI64 : Reader Int64 := varint .varI64 Varint.getI64

def varU32 : Reader UInt32 := varint .varU32 Varint.getU32

def varU64 : Reader UInt64 := varint .varU64 Varint.getU64

/-- Reads a length field and the bytes it counts; a length above `limit` is the error
`tooLong length limit`. -/
def counted (limit : Nat) (tooLong : Nat → Nat → CodecError) : Reader Bytes := do
  align
  let length := (← onBytes Varint.getU32).toNat
  if limit < length then throw (tooLong length limit)
  take length

/-- Reads raw bytes behind their length. -/
def byteBlock (limit : Nat) : Reader Bytes := do
  expect .byteBlock
  counted limit .blockTooLong

/-- Reads a text's bytes behind their length, without looking at the log. -/
def text (limit : Nat) : Reader String := do
  match Utf8.decode (← counted limit .stringTooLong) with
  | .ok text => return text
  | .error fault => throw (.invalidUtf8 fault)

/-- Reads a text of at most `limit` bytes. -/
def str (limit : Nat) : Reader String := do
  expect .str
  text limit

/-- Reads an identifier; a text that is none is an error. -/
def identifier : Reader Identifier := do
  expect .identifier
  match Identifier.parse (← text maxIdentifierBytes) with
  | .ok id => return id
  | .error e => throw e

/-- Reads an identifier; a text that is none gives nothing, and only a broken text is an
error. -/
def identifier? : Reader (Option Identifier) := do
  expect .identifier
  return (Identifier.parse (← text maxIdentifierBytes)).toOption

end Reader

end PathWire

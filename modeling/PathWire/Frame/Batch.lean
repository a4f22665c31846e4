/-
Batching: several messages in one frame.

A frame that holds one message is that message.  A frame that holds more is a container:
the batch tag, the number of messages, and each message behind its length.  The batcher
keeps the running size of the container its queue would make, so that no frame outgrows
the limit unless a single message does; such a message travels alone, behind everything
queued before it.
-/
import PathWire.Peer.Connection
import PathWire.Session.Error

namespace PathWire

/-- Messages that wait for the next frame. -/
structure Batcher where
  /-- Oldest first. -/
  queue : List Bytes
  /-- The sizes of the queued messages with their length fields, added up. -/
  entriesLength : Nat
  maxFrameBytes : Nat
  deriving DecidableEq, Repr

namespace Batcher

/-- A batcher with nothing queued. -/
def new (maxFrameBytes : Nat) : Batcher := ⟨[], 0, maxFrameBytes⟩

/-- The size of a message in a container, given its length. -/
def entryLength (length : Nat) : Nat := Varint.unsignedLength length + length

/-- The size of a container of `count` messages. -/
def containerLength (count entriesLength : Nat) : Nat :=
  tagBytes + Varint.unsignedLength count + entriesLength

/-- The size of the frame that a flush would give. -/
def frameLength (batcher : Batcher) : Nat :=
  match batcher.queue with
  | [] => 0
  | [message] => message.length
  | queue => containerLength queue.length batcher.entriesLength

/-- Writes messages behind their lengths. -/
def writeEntries : List Bytes → Encoder → Except CodecError Encoder
  | [], enc => .ok enc
  | message :: rest, enc => do writeEntries rest (← enc.writeByteBlock message)

/-- The container of a list of messages. -/
def container (messages : List Bytes) : Except CodecError Bytes := do
  let enc := Encoder.empty.writeU32 (UInt32.ofNat batchTag)
  let enc := enc.writeVarU32 (UInt32.ofNat messages.length)
  return (← writeEntries messages enc).bytes

/-- The frame that holds a list of messages, if there are any. -/
def frameOf : List Bytes → Except CodecError (Option Bytes)
  | [] => return none
  | [message] => return some message
  | messages => return some (← container messages)

/-- Empties the queue into one frame.  If that fails the queue is lost. -/
def flush (batcher : Batcher) : Except SessionError (Option Bytes) × Batcher :=
  ((frameOf batcher.queue).mapError .codec, new batcher.maxFrameBytes)

/-- The batcher with one more message in its queue. -/
def enqueue (batcher : Batcher) (message : Bytes) : Batcher :=
  { batcher with
    queue := batcher.queue ++ [message]
    entriesLength := batcher.entriesLength + entryLength message.length }

/-- Whether a message does not fit into one container with the queue. -/
def overflows (batcher : Batcher) (message : Bytes) : Bool :=
  !batcher.queue.isEmpty && batcher.maxFrameBytes <
    containerLength (batcher.queue.length + 1)
      (batcher.entriesLength + entryLength message.length)

/-- The frames written so far, followed by the one a flush gives. -/
def flushAfter (frames : List Bytes) (batcher : Batcher) :
    Except SessionError (List Bytes) × Batcher :=
  match batcher.flush with
  | (.ok frame, batcher) => (.ok (frames ++ frame.toList), batcher)
  | (.error cause, batcher) => (.error cause, batcher)

/-- Queues a message that fits into a frame by itself, behind the frames already to be
written. -/
def pushFitting (frames : List Bytes) (batcher : Batcher) (message : Outbound) :
    Except SessionError (List Bytes) × Batcher :=
  let batcher := batcher.enqueue message.bytes
  match message.priority with
  | .normal => (.ok frames, batcher)
  | .urgent => flushAfter frames batcher

/-- Queues a message, and gives the frames that must be written now, oldest first. -/
def push (batcher : Batcher) (message : Outbound) :
    Except SessionError (List Bytes) × Batcher :=
  if batcher.maxFrameBytes < message.bytes.length then
    match flushAfter [] batcher with
    | (.ok frames, batcher) => (.ok (frames ++ [message.bytes]), batcher)
    | (.error cause, batcher) => (.error cause, batcher)
  else if batcher.overflows message.bytes then
    match flushAfter [] batcher with
    | (.ok frames, batcher) => pushFitting frames batcher message
    | (.error cause, batcher) => (.error cause, batcher)
  else pushFitting [] batcher message

end Batcher

/-! ### Taking a container apart -/

/-- A step that reads a frame and may refuse it. -/
abbrev FrameReader := EStateM SessionError Decoder

/-- A codec read inside a frame. -/
abbrev Reader.inFrame {α : Type} (read : Reader α) : FrameReader α :=
  EStateM.adaptExcept SessionError.codec read

namespace FrameReader

/-- Reads a frame's tag, which has to be the given one. -/
def expectTag (tag : Nat) : FrameReader Unit := do
  let found := (← Reader.u32.inFrame).toNat
  if found != tag then throw (.unexpectedFrame found)

/-- Fails if bytes are left. -/
def finish : FrameReader Unit := do
  let left := (← get).remaining
  if left != 0 then throw (.trailingBytes left)

/-- Reads `count` messages, each behind its length. -/
def entries (limit : Nat) : (count : Nat) → FrameReader (List Bytes)
  | 0 => return []
  | count + 1 => do
    let message ← (Reader.byteBlock limit).inFrame
    return message :: (← entries limit count)

/-- Reads a container of at most `limit` bytes. -/
def container (limit : Nat) : FrameReader (List Bytes) := do
  expectTag batchTag
  let count := (← Reader.varU32.inFrame).toNat
  let remaining := (← get).remaining
  if remaining < count then throw (.batchCount count remaining)
  let messages ← entries limit count
  finish
  return messages

/-- The result of reading a whole frame. -/
def run {α : Type} (step : FrameReader α) (frame : Bytes) : Except SessionError α :=
  match step (Decoder.ofBytes frame) with
  | .ok value _ => .ok value
  | .error cause _ => .error cause

end FrameReader

/-- The messages of a container. -/
def splitBatch (frame : Bytes) : Except SessionError (List Bytes) :=
  (FrameReader.container frame.length).run frame

end PathWire

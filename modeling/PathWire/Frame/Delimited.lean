/-
Frames on a byte stream.

On a stream each frame stands behind its length in four big-endian bytes.  Reading takes a
frame off the front of the bytes that have arrived, or waits; a length above the bound is
refused before its frame arrives, and then nothing is taken.
-/
import PathWire.Session.Error
import PathWire.Bytes

namespace PathWire

/-- The largest frame a stream peer may send, sixteen mebibytes. -/
def maxWireFrame : Nat := 16 * 1024 * 1024

/-- The number of bytes of a frame's length. -/
def lengthFieldBytes : Nat := 4

/-- How frames are delimited on a stream. -/
structure FrameCodec where
  maxFrame : Nat
  deriving DecidableEq, Repr

namespace FrameCodec

/-- The codec of streams for which nothing else is said. -/
def standard : FrameCodec := ⟨maxWireFrame⟩

/-- Takes the first frame off the bytes that have arrived, if it is complete. -/
def decode (codec : FrameCodec) (buffer : Bytes) : Except TransportError (Option Bytes) × Bytes :=
  if buffer.length < lengthFieldBytes then (.ok none, buffer)
  else
    let length := Bytes.toNat (buffer.take lengthFieldBytes)
    let body := buffer.drop lengthFieldBytes
    if codec.maxFrame < length then (.error (.frameTooLarge length codec.maxFrame), buffer)
    else if body.length < length then (.ok none, buffer)
    else (.ok (some (body.take length)), body.drop length)

/-- Adds a frame to the bytes to be sent. -/
def encode (codec : FrameCodec) (frame buffer : Bytes) : Except TransportError Bytes :=
  if codec.maxFrame < frame.length then .error (.frameTooLarge frame.length codec.maxFrame)
  else .ok (buffer ++ Bytes.bigEndian lengthFieldBytes frame.length ++ frame)

end FrameCodec

end PathWire

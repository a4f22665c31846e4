/-
The fields of scripted messages.

A script writes and reads the fields of the codec, and two enumerations of its own: one
whose five ordinals all have a value, and one with a gap.  An identifier to be written is
given as a text, so writing it may fail on the text already.
-/
import PathWire.Codec.Field

namespace PathWire.Scenario

/-- An enumeration with five values. -/
def facing : WireEnum Nat := ⟨5, id, fun n => if n < 5 then some n else none⟩

/-- An enumeration of six ordinals of which the fourth has no value. -/
def gappy : WireEnum Nat := ⟨6, id, fun n => if n < 6 ∧ n ≠ 3 then some n else none⟩

/-- A scripted write. -/
inductive WriteOp where
  | field (write : FieldWrite)
  /-- Writes the identifier a text stands for. -/
  | identText (text : String)
  | facing (ordinal : Nat)
  | gappy (ordinal : Nat)

/-- A scripted read. -/
inductive ReadOp where
  | field (read : FieldRead)
  | facing
  | gappy
  deriving DecidableEq, Repr

/-- Writes what a script says. -/
def WriteOp.apply (enc : Encoder) : WriteOp → Except CodecError Encoder
  | field write => enc.write write
  | identText text => return enc.writeIdentifier (← Identifier.parse text)
  | facing ordinal => enc.writeEnumValue Scenario.facing ordinal
  | gappy ordinal => enc.writeEnumValue Scenario.gappy ordinal

/-- Reads what a script says. -/
def ReadOp.run : ReadOp → Reader FieldValue
  | field read => Reader.field read
  | facing => return .enum (← Reader.enumValue Scenario.facing)
  | gappy => return .enum (← Reader.enumValue Scenario.gappy)

/-! ### Runs that go on after a failure -/

/-- The result of one write, with the length of the buffer after it. -/
structure WriteStep where
  result : Except CodecError Unit
  length : Nat

/-- Runs all writes, also after a rejected one. -/
def runWrites (enc : Encoder) : List WriteOp → List WriteStep × Encoder
  | [] => ([], enc)
  | op :: rest =>
    let (result, enc) := match op.apply enc with
      | .ok enc => (Except.ok (), enc)
      | .error e => (Except.error e, enc)
    let (steps, last) := runWrites enc rest
    (⟨result, enc.length⟩ :: steps, last)

/-- The result of one read, with the number of whole bytes left after it. -/
structure ReadStep where
  result : Except CodecError FieldValue
  remaining : Nat

/-- Runs all reads, also after a failed one. -/
def runReads (dec : Decoder) : List ReadOp → List ReadStep × Decoder
  | [] => ([], dec)
  | op :: rest =>
    let (result, dec) := match op.run dec with
      | .ok value dec => (Except.ok value, dec)
      | .error e dec => (Except.error e, dec)
    let (steps, last) := runReads dec rest
    (⟨result, dec.remaining⟩ :: steps, last)

end PathWire.Scenario

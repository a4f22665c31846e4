/-
Reading UTF-8, and saying where it goes wrong.

A byte string is a text exactly if it is well-formed UTF-8, and then the text's own
bytes are the string again.  Otherwise the fault is placed by the standard's notion
of a maximal subpart: a leading byte fixes which bytes may follow it, and the fault
ends where the bytes first leave that set.
-/
import PathWire.Bytes

namespace PathWire.Utf8

/-- Where a byte string stops being UTF-8. -/
structure Fault where
  /-- Length of the longest prefix that is well-formed. -/
  validUpTo : Nat
  /-- Length of the ill-formed sequence found there; none if the input ends inside a
  sequence that was well-formed so far. -/
  illFormed : Option Nat
  deriving DecidableEq, Repr

/-- What is wrong, in words. -/
def Fault.message (fault : Fault) : String :=
  match fault.illFormed with
  | some length => s!"invalid utf-8 sequence of {length} bytes from index {fault.validUpTo}"
  | none => s!"incomplete utf-8 byte sequence from index {fault.validUpTo}"

/-- The least and the greatest byte allowed at some place. -/
abbrev ByteRange := UInt8 × UInt8

/-- The range of an ordinary continuation byte. -/
def continuation : ByteRange := (0x80, 0xBF)

/-- The ranges of the bytes that must follow a leading byte; none if no sequence starts
with it. -/
def followers (lead : UInt8) : Option (List ByteRange) :=
  if lead ≤ 0x7F then some []
  else if 0xC2 ≤ lead ∧ lead ≤ 0xDF then some [continuation]
  else if lead = 0xE0 then some [(0xA0, 0xBF), continuation]
  else if lead = 0xED then some [(0x80, 0x9F), continuation]
  else if 0xE1 ≤ lead ∧ lead ≤ 0xEF then some [continuation, continuation]
  else if lead = 0xF0 then some [(0x90, 0xBF), continuation, continuation]
  else if 0xF1 ≤ lead ∧ lead ≤ 0xF3 then some [continuation, continuation, continuation]
  else if lead = 0xF4 then some [(0x80, 0x8F), continuation, continuation]
  else none

/-- The first fault of `bytes`, which stand at `pos` inside a sequence begun at `start` of
which the bytes in `expected` are still missing. -/
def faultFrom (start pos : Nat) : List ByteRange → Bytes → Option Fault
  | [], [] => none
  | _ :: _, [] => some ⟨start, none⟩
  | [], byte :: rest =>
    match followers byte with
    | some expected => faultFrom pos (pos + 1) expected rest
    | none => some ⟨pos, some 1⟩
  | (low, high) :: expected, byte :: rest =>
    if low ≤ byte ∧ byte ≤ high then faultFrom start (pos + 1) expected rest
    else some ⟨start, some (pos - start)⟩

/-- The first fault of a byte string that is not UTF-8. -/
def fault (bytes : Bytes) : Fault :=
  (faultFrom 0 0 [] bytes).getD ⟨bytes.length, none⟩

/-- The text whose UTF-8 form is `bytes`. -/
def decode (bytes : Bytes) : Except Fault String :=
  let raw := ByteArray.mk bytes.toArray
  if valid : raw.IsValidUTF8 then .ok (String.ofByteArray raw valid) else .error (fault bytes)

end PathWire.Utf8

/-
Namespaced identifiers, written `namespace:path`.

The alphabet of a namespace is lower-case letters, digits, `_`, `.` and `-`; a path may
also hold `/`.  Neither is empty, and the written form is bounded.  An `Identifier`
carries the proof of all that, so every identifier can be written and read back.
-/
import PathWire.Codec.Error

namespace PathWire

/-- The most bytes an identifier's written form takes. -/
def maxIdentifierBytes : Nat := 256

namespace Identifier

/-- A character of a namespace. -/
def isNamespaceChar (c : Char) : Bool :=
  ('a' ≤ c && c ≤ 'z') || ('0' ≤ c && c ≤ '9') || c == '_' || c == '.' || c == '-'

/-- A character of a path. -/
def isPathChar (c : Char) : Bool := isNamespaceChar c || c == '/'

/-- A namespace is not empty and keeps to its alphabet. -/
def isNamespace (text : String) : Bool := !text.isEmpty && text.toList.all isNamespaceChar

/-- A path is not empty and keeps to its alphabet. -/
def isPath (text : String) : Bool := !text.isEmpty && text.toList.all isPathChar

/-- The number of bytes of `ns:path`. -/
def written (ns path : String) : Nat := ns.utf8ByteSize + 1 + path.utf8ByteSize

end Identifier

/-- A namespaced name such as `store:blocks/chest`. -/
structure Identifier where
  /-- What stands before the colon. -/
  ns : String
  /-- What stands after the colon. -/
  path : String
  ns_valid : Identifier.isNamespace ns = true
  path_valid : Identifier.isPath path = true
  size_le : Identifier.written ns path ≤ maxIdentifierBytes
  deriving DecidableEq

namespace Identifier

/-- The identifier with the given parts.  A part outside its alphabet is reported before an
excess of length. -/
def make (ns path : String) : Except CodecError Identifier :=
  if valid : isNamespace ns = true ∧ isPath path = true then
    if fits : written ns path ≤ maxIdentifierBytes then
      .ok ⟨ns, path, valid.1, valid.2, fits⟩
    else .error (.stringTooLong (written ns path) maxIdentifierBytes)
  else .error (.invalidIdentifier (ns ++ ":" ++ path))

/-- The text before and after the first colon. -/
def splitColon : List Char → Option (List Char × List Char)
  | [] => none
  | c :: rest =>
    if c = ':' then some ([], rest)
    else (splitColon rest).map fun (before, after) => (c :: before, after)

/-- The identifier a text stands for. -/
def parse (text : String) : Except CodecError Identifier :=
  match splitColon text.toList with
  | some (ns, path) => make (String.ofList ns) (String.ofList path)
  | none => .error (.invalidIdentifier text)

/-- The written form. -/
def display (id : Identifier) : String := id.ns ++ ":" ++ id.path

end Identifier

end PathWire

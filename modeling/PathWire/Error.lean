/-
Why a message could not be sent or received, or a tree not be declared.

Each cause is a constructor that keeps what its message shows.  A cause is the peer's
fault (the bytes are bad) or the local side's (it asked for something impossible); a
codec failure keeps its own class.
-/
import PathWire.Codec.Error

namespace PathWire

/-- Why the protocol refused a declaration, a send or a received message. -/
inductive ProtocolError where
  | codec (cause : CodecError)
  | unknownId (id : Nat)
  | reservedId (id : Nat)
  | idOutOfRange (id max : Nat)
  | idsExhausted (max : Nat)
  | duplicateId (id : Nat) (existing : String)
  | unknownName (parent name : String)
  | notAnEndpoint (name : String)
  | pathTooDeep (depth max : Nat)
  | trailingBytes (path : String) (remaining : Nat)
  | cacheUnknownId (cache : String) (id : Nat)
  | cacheDuplicate (cache : String) (id : Nat)
  | cacheFull (cache : String) (max : Nat)
  | unresolvedDynamic (name : String)
  | linkMismatch (link dynamic : String)
  | unknownNode (index : Nat)
  | notDynamic (name : String)
  /-- A context value is not of the type its user expects. -/
  | valueType
  | missingValue (name : String)
  | duplicateName (parent name : String)
  | invalidName (name : String)
  /-- A callback of the application refused. -/
  | handler (reason : String)
  deriving DecidableEq, Repr

namespace ProtocolError

/-- The class a cause belongs to. -/
def kind : ProtocolError → ErrorKind
  | codec cause => cause.kind
  | idsExhausted _ | cacheFull _ _ | unresolvedDynamic _ | linkMismatch _ _ | notDynamic _
  | unknownNode _ | valueType | missingValue _ | duplicateName _ _ | invalidName _ => .misuse
  | _ => .malformed

/-- The cause in words. -/
def message : ProtocolError → String
  | codec cause => "codec error: " ++ cause.message
  | unknownId id => s!"unknown id {id}"
  | reservedId id => s!"id {id} is reserved"
  | idOutOfRange id max => s!"id {id} out of range (max {max})"
  | idsExhausted max => s!"outgoing ids exhausted (max {max})"
  | duplicateId id existing => s!"id {id} already bound to '{existing}'"
  | unknownName parent name => s!"no node '{name}' under '{parent}'"
  | notAnEndpoint name => s!"'{name}' is not an endpoint"
  | pathTooDeep depth max => s!"path depth {depth} exceeds {max}"
  | trailingBytes path remaining => s!"{remaining} trailing bytes after '{path}'"
  | cacheUnknownId cache id => s!"cache '{cache}': id {id} not yet known"
  | cacheDuplicate cache id => s!"cache '{cache}': id {id} announced twice"
  | cacheFull cache max => s!"cache '{cache}' is full ({max} entries)"
  | unresolvedDynamic name => s!"dynamic node '{name}' has no parent for this value"
  | linkMismatch link dynamic => s!"link '{link}' does not target dynamic node '{dynamic}'"
  | unknownNode index => s!"node #{index} does not belong to this tree"
  | notDynamic name => s!"'{name}' is not a dynamic node"
  | valueType => "context value is not of the expected type"
  | missingValue name => s!"no context value for '{name}'"
  | duplicateName parent name => s!"duplicate name '{name}' under '{parent}'"
  | invalidName name => s!"invalid node name '{name}'"
  | handler reason => s!"handler rejected message: {reason}"

end ProtocolError

/-- A codec result as a protocol result. -/
def liftCodec {α : Type} (result : Except CodecError α) : Except ProtocolError α :=
  result.mapError .codec

end PathWire

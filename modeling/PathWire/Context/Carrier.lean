/-
Carriers: the nodes that put a value between an endpoint and the root.

Sending starts from the endpoint's own value.  Each carrier on the way up turns its value
into the one above it, and afterwards the carriers write themselves from the top down.
Receiving goes down once: each carrier reads its value, given the value above it.  Only
keys take bytes; the other carriers derive their value from what is there already.
-/
import PathWire.Codec.Decoder
import PathWire.Context.Value

namespace PathWire

/-- How many bytes a node adds to a message. -/
inductive LengthHint where
  | fixed (bytes : Nat)
  | dynamic
  deriving DecidableEq, Repr

namespace LengthHint

/-- The hint of two parts together, counted in 64 bits; one dynamic part makes the whole
dynamic. -/
def add : LengthHint → LengthHint → LengthHint
  | fixed m, fixed n => fixed ((m + n) % Bits.bound 64)
  | _, _ => dynamic

/-- The number of bytes, if it is fixed. -/
def fixed? : LengthHint → Option Nat
  | fixed bytes => some bytes
  | dynamic => none

end LengthHint

/-- A step of a callback that reads from a decoder and may refuse. -/
abbrev MessageReader := EStateM ProtocolError Decoder

/-- A codec read inside a callback. -/
abbrev Reader.inMessage {α : Type} (read : Reader α) : MessageReader α :=
  EStateM.adaptExcept ProtocolError.codec read

/-- How a value of type `child` is put on the wire below a value of type `parent`. -/
structure ContextKey (A : Application) (parent child : ContextType A) where
  /-- How many bytes `write` adds. -/
  length : LengthHint
  /-- The value above a given one. -/
  parentOf : A.Env → child.El → parent.El
  write : A.Env → child.El → Encoder → Except ProtocolError Encoder
  /-- Reads a value below a given one; nothing means that what it refers to does not exist
  on this side. -/
  read : A.Env → parent.El → MessageReader (Option child.El)

/-- A node's way to carry a value. -/
inductive Carrier (A : Application) where
  /-- The value is on the wire. -/
  | key {parent child : ContextType A} (key : ContextKey A parent child)
  /-- The value is a part of the value above it, found by `narrow` and put back by `widen`. -/
  | view {parent child : ContextType A} (narrow : A.Env → parent.El → Option child.El)
      (widen : A.Env → child.El → parent.El)
  /-- The value is supplied by what is attached to the connection. -/
  | attachment {attached child : ContextType A} (supply : A.Env → attached.El → Option child.El)
  /-- The value is found in the parent that the link named `name` was chosen for.  Going up,
  that parent is part of the choice and cannot be derived. -/
  | link {parent child : ContextType A} (name : String)
      (childOf : A.Env → parent.El → Option child.El)

namespace Carrier

variable {A : Application}

/-- How many bytes the carrier adds to a message. -/
def length : Carrier A → LengthHint
  | key k => k.length
  | _ => .fixed 0

/-- The value above the carrier's own. -/
def toParent (env : A.Env) : Carrier A → Value A → Except ProtocolError (Value A)
  | @key _ parent child k, value => return ⟨parent, k.parentOf env (← value.as child)⟩
  | @view _ parent child _ widen, value => return ⟨parent, widen env (← value.as child)⟩
  | attachment _, _ => return .unit
  | link name _, _ => throw (.unresolvedDynamic name)

/-- Writes the carrier's value. -/
def write (env : A.Env) : Carrier A → Value A → Encoder → Except ProtocolError Encoder
  | @key _ _ child k, value, enc => do k.write env (← value.as child) enc
  | _, _, enc => return enc

/-- The error of a failed check, as a step of a reader. -/
def expecting {α : Type} (result : Except ProtocolError α) : MessageReader α :=
  match result with
  | .ok value => return value
  | .error e => throw e

/-- Reads the carrier's value below `above`; nothing means that there is none on this side. -/
def read (env : A.Env) (above : Value A) (attached : Option (Value A)) :
    Carrier A → MessageReader (Option (Value A))
  | @key _ parent child k => do
    let found ← k.read env (← expecting (above.as parent))
    return found.map (Value.mk child)
  | @view _ parent child narrow _ => do
    return (narrow env (← expecting (above.as parent))).map (Value.mk child)
  | @attachment _ type child supply =>
    return ((attached.bind (·.as? type)).bind (supply env)).map (Value.mk child)
  | @link _ parent child _ childOf => do
    return (childOf env (← expecting (above.as parent))).map (Value.mk child)

end Carrier

end PathWire

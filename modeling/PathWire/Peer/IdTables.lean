/-
The wire ids of one connection.

The two directions are independent.  Outgoing ids are chosen here, one for each new path,
counting up.  Incoming ids are whatever the peer announced, stored by position.
-/
import PathWire.Tree.Path

namespace PathWire

/-- The paths bound to ids, in both directions. -/
structure IdTables where
  /-- The path the peer announced for each id. -/
  incoming : Array (Option ResolvedPath)
  /-- The id of each path used here. -/
  outgoing : List (Path × Nat)
  /-- The id of the next new path. -/
  nextFreeId : Nat
  /-- The largest id in either direction. -/
  maxId : Nat

namespace IdTables

/-- The tables of a new connection. -/
def new (maxId : Nat) : IdTables := ⟨#[], [], firstAllocatedId, maxId⟩

/-- The id of a path that was used before. -/
def outgoing? (ids : IdTables) (path : Path) : Option Nat := ids.outgoing.lookup path

/-- The id the next new path will get. -/
def peekNext (ids : IdTables) : Except ProtocolError Nat :=
  if ids.maxId < ids.nextFreeId then .error (.idsExhausted ids.maxId) else .ok ids.nextFreeId

/-- Binds a path to an id, and counts on from there. -/
def commit (ids : IdTables) (path : Path) (id : Nat) : IdTables :=
  { ids with
    outgoing := ids.outgoing.filter (fun entry => entry.1 != path) ++ [(path, id)]
    nextFreeId := id + 1 }

/-- The number of paths with an outgoing id. -/
def outgoingSize (ids : IdTables) : Nat := ids.outgoing.length

/-- The number of ids the peer announced. -/
def incomingSize (ids : IdTables) : Nat :=
  ids.incoming.foldl (fun count slot => if slot.isSome then count + 1 else count) 0

/-- An id that paths may have. -/
def checkId (ids : IdTables) (id : Nat) : Except ProtocolError Unit :=
  if id < firstAllocatedId then .error (.reservedId id)
  else if ids.maxId < id then .error (.idOutOfRange id ids.maxId)
  else .ok ()

/-- The path bound to a position of the incoming table. -/
def bound? (ids : IdTables) (id : Nat) : Option ResolvedPath := (ids.incoming[id]?).join

/-- The incoming table with `path` at position `id`, grown by empty positions as needed. -/
def bind (ids : IdTables) (id : Nat) (path : ResolvedPath) : IdTables :=
  let grown := ids.incoming ++ Array.replicate (id + 1 - ids.incoming.size) none
  { ids with incoming := grown.setIfInBounds id (some path) }

/-- Binds an announced id.  Announcing the same path again changes nothing; announcing another
one for a bound id is refused. -/
def register (ids : IdTables) (id : Nat) (path : ResolvedPath) :
    Except ProtocolError (ResolvedPath × IdTables) := do
  ids.checkId id
  match ids.bound? id with
  | some existing =>
    if existing.path = path.path then return (existing, ids)
    else throw (.duplicateId id existing.dotted)
  | none => return (path, ids.bind id path)

/-- The path the peer announced for an id. -/
def lookup (ids : IdTables) (id : Nat) : Except ProtocolError ResolvedPath := do
  ids.checkId id
  match ids.bound? id with
  | some path => return path
  | none => throw (.unknownId id)

end IdTables

end PathWire

/-
Object caches on one connection.

A cache gives ids to objects so that later messages can refer to them.  Each cache has a
slot, and the table in a slot comes into being when it is first needed.  Outgoing ids are
kept by the object's key, incoming objects by their id.
-/
import PathWire.Context.Value

namespace PathWire

/-- One cache's ids and objects on one connection. -/
structure CacheTable (A : Application) (item : A.Item) where
  /-- The id of each key assigned here. -/
  outgoing : List (A.ObjectKey item × Nat)
  /-- The object of each id the peer assigned. -/
  incoming : List (Nat × A.Object item)
  /-- The id of the next new object. -/
  nextId : Nat

namespace CacheTable

variable {A : Application} {item : A.Item}

/-- The table of a cache that was not used yet. -/
def empty : CacheTable A item := ⟨[], [], 0⟩

/-- The id assigned to a key. -/
def idOf? (table : CacheTable A item) (key : A.ObjectKey item) : Option Nat :=
  table.outgoing.lookup key

/-- The object the peer assigned an id to. -/
def object? (table : CacheTable A item) (id : Nat) : Option (A.Object item) :=
  table.incoming.lookup id

/-- Gives the next id to a key that has none. -/
def assign (table : CacheTable A item) (key : A.ObjectKey item) : CacheTable A item :=
  { table with outgoing := table.outgoing ++ [(key, table.nextId)], nextId := table.nextId + 1 }

/-- Takes an id back, so that it is the next one again. -/
def release (table : CacheTable A item) (id : Nat) : CacheTable A item :=
  { table with outgoing := table.outgoing.filter fun entry => entry.2 != id, nextId := id }

/-- Stores an object under an id that the peer assigned. -/
def learn (table : CacheTable A item) (id : Nat) (object : A.Object item) : CacheTable A item :=
  { table with incoming := table.incoming ++ [(id, object)] }

end CacheTable

/-- The tables of all caches of one connection, by slot. -/
structure CacheStore (A : Application) where
  tables : List (Nat × (item : A.Item) × CacheTable A item)

namespace CacheStore

variable {A : Application}

/-- The store of a new connection. -/
def empty : CacheStore A := ⟨[]⟩

/-- The table in a slot, if it is of the given type of objects. -/
def table? (store : CacheStore A) (slot : Nat) (item : A.Item) : Option (CacheTable A item) :=
  match store.tables.lookup slot with
  | some ⟨held, table⟩ => if h : held = item then some (h ▸ table) else none
  | none => none

/-- Puts a table into a slot. -/
def put (store : CacheStore A) (slot : Nat) {item : A.Item} (table : CacheTable A item) :
    CacheStore A :=
  ⟨store.tables.filter (fun entry => entry.1 != slot) ++ [(slot, ⟨item, table⟩)]⟩

/-- The table in a slot, which is made on first use, and the store that holds it.  A slot
never changes its type of objects. -/
def open? (store : CacheStore A) (slot : Nat) (item : A.Item) :
    Except ProtocolError (CacheTable A item × CacheStore A) :=
  match store.tables.lookup slot with
  | some ⟨held, table⟩ => if h : held = item then .ok (h ▸ table, store) else .error .valueType
  | none =>
    let fresh : CacheTable A item := .empty
    .ok (fresh, store.put slot fresh)

end CacheStore

end PathWire

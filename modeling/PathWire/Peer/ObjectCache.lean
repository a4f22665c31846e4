/-
Object caches: objects sent once and referred to by id afterwards.

A cache is declared in the tree's `cache` group, as an endpoint that takes puts: an id and
an object.  Assigning an id to a new object queues its put, on the same queue as all other
messages, so the peer learns an id before anything refers to it.
-/
import PathWire.Peer.Connection
import PathWire.Text.Quoted
import PathWire.Tree.Builder

namespace PathWire

variable {A : Application}

/-- How a cache tells its objects apart and puts them on the wire. -/
structure ObjectCodec (A : Application) (item : A.Item) where
  /-- Objects with equal keys share an id. -/
  keyOf : A.Object item → A.ObjectKey item
  write : A.Env → A.Object item → Encoder → Except ProtocolError Encoder
  read : A.Env → MessageReader (A.Object item)

/-- A declared cache. -/
structure ObjectCache (A : Application) (item : A.Item) where
  name : String
  slot : Nat
  maxEntries : UInt32
  codec : ObjectCodec A item
  /-- The endpoint that takes the cache's puts. -/
  endpoint : EndpointRef (A := A) .unit

namespace ObjectCache

variable {item : A.Item}

/-- Takes a put: learns an object under an id that is in range and new. -/
def takePut (name : String) (slot : Nat) (maxEntries : UInt32) (codec : ObjectCodec A item)
    (env : A.Env) : Callback A Unit := do
  let id := (← Callback.reading Reader.varU32.inMessage).toNat
  if maxEntries.toNat ≤ id then throw (.idOutOfRange id (maxEntries.toNat - 1))
  let object ← Callback.reading (codec.read env)
  match (← get).caches.open? slot item with
  | .error cause => throw cause
  | .ok (table, caches) =>
    modify fun state => { state with caches }
    if (table.object? id).isSome then throw (.cacheDuplicate name id)
    modify fun state => { state with caches := caches.put slot (table.learn id object) }

/-- Writes a put. -/
def put (cache : ObjectCache A item) (env : A.Env) (id : Nat) (object : A.Object item) :
    Payload A Unit := fun _ _ enc => do
  return ((), ← cache.codec.write env object (enc.writeVarU32 (UInt32.ofNat id)))

/-- Takes back the id of an object whose put could not be queued. -/
def rollBack (cache : ObjectCache A item) (conn : Connection A) (id : Nat) : Connection A :=
  match conn.caches.open? cache.slot item with
  | .ok (table, caches) =>
    { conn with caches := caches.put cache.slot (table.release id) }
  | .error _ => conn

/-- Gives the next id to a new object and queues its put. -/
def assignNew (cache : ObjectCache A item) (env : A.Env) (conn : Connection A)
    (table : CacheTable A item) (object : A.Object item) :
    Except ProtocolError Nat × Connection A :=
  let id := table.nextId
  let assigned := table.assign (cache.codec.keyOf object)
  let conn := { conn with caches := conn.caches.put cache.slot assigned }
  match conn.send env cache.endpoint () .normal (cache.put env id object) with
  | .ok ((), conn) => (.ok id, conn)
  | .error cause => (.error cause, cache.rollBack conn id)

/-- The id of an object on a connection.  A new object gets the next id and its put is queued;
if that fails the object has no id. -/
def assign (cache : ObjectCache A item) (env : A.Env) (conn : Connection A)
    (object : A.Object item) : Except ProtocolError Nat × Connection A :=
  match conn.caches.open? cache.slot item with
  | .error cause => (.error cause, conn)
  | .ok (table, caches) =>
    let conn := { conn with caches }
    match table.idOf? (cache.codec.keyOf object) with
    | some id => (.ok id, conn)
    | none =>
      if cache.maxEntries.toNat ≤ table.outgoing.length then
        (.error (.cacheFull cache.name cache.maxEntries.toNat), conn)
      else cache.assignNew env conn table object

/-- The object the peer assigned an id to in the cache with the given name and slot. -/
def resolveIn (name : String) (slot : Nat) (item : A.Item) (caches : CacheStore A) (id : Nat) :
    Except ProtocolError (A.Object item) :=
  match (caches.table? slot item).bind (·.object? id) with
  | some object => .ok object
  | none => .error (.cacheUnknownId name id)

/-- The object the peer assigned an id to. -/
def resolve (cache : ObjectCache A item) (caches : CacheStore A) (id : Nat) :
    Except ProtocolError (A.Object item) :=
  resolveIn cache.name cache.slot item caches id

/-- The number of objects with an id assigned here. -/
def outgoingSize (cache : ObjectCache A item) (caches : CacheStore A) : Nat :=
  ((caches.table? cache.slot item).map (·.outgoing.length)).getD 0

/-- The number of objects learnt from the peer. -/
def incomingSize (cache : ObjectCache A item) (caches : CacheStore A) : Nat :=
  ((caches.table? cache.slot item).map (·.incoming.length)).getD 0

/-- The cache in a few words. -/
def summary (cache : ObjectCache A item) : String :=
  s!"ObjectCache \x7b name: {Quoted.quote cache.name}, slot: {cache.slot} \x7d"

end ObjectCache

/-- The store in a few words. -/
def CacheStore.summary (caches : CacheStore A) : String :=
  s!"CacheStore \x7b tables: {caches.tables.length} \x7d"

namespace Building

/-- The group that all caches are declared in, declared with the first of them. -/
def cacheGroup : Building A NodeIndex := do
  match (← get).cacheGroup with
  | some group => return group
  | none =>
    let group ← add (some .root) "cache" (.fixed 0) .group
    modify fun builder => { builder with cacheGroup := some group }
    return group

/-- Declares a cache that holds at most `maxEntries` objects. -/
def cacheWithCapacity {item : A.Item} (name : String) (codec : ObjectCodec A item)
    (maxEntries : UInt32) : Building A (ObjectCache A item) := do
  let group ← cacheGroup
  let slot := (← get).cacheSlots
  let endpoint : EndpointRef .unit ← endpoint ⟨group⟩ name
    fun env _ _ => ObjectCache.takePut name slot maxEntries codec env
  modify fun builder => { builder with cacheSlots := slot + 1 }
  return { name, slot, maxEntries, codec, endpoint }

/-- Declares a cache with the revision's capacity. -/
def cache {item : A.Item} (name : String) (codec : ObjectCodec A item) :
    Building A (ObjectCache A item) := do
  cacheWithCapacity name codec (← get).revision.maxCacheEntries

end Building

end PathWire

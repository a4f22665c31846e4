/-
What a refused message leaves behind.

Up to the payload every check comes before every change.  The decoder of a cache's endpoint is
the one place where the library itself stores what it read, and the bytes behind the payload are
only counted after the decoder has run.  So one kind of message is refused and leaves a trace: a
put that is fine in itself and has bytes behind it.  `refused_receive` says that it is the only
one.
-/
import PathWire.Proofs.Peer.Receive
import PathWire.Proofs.Tree.Shape
import PathWire.Scenario.Declare

namespace PathWire

variable {A : Application}

/-! ### The table of a cache -/

namespace CacheTable

variable {item : A.Item}

/-- An object that was learnt is found. -/
theorem object?_learn {table : CacheTable A item} {id : Nat} (object : A.Object item)
    (h : table.object? id = none) : (table.learn id object).object? id = some object := by
  unfold object? at h
  simp [learn, object?, List.lookup_append, h, List.lookup]

end CacheTable

namespace CacheStore

variable {item : A.Item} {slot : Nat}

theorem lookup_put (store : CacheStore A) (table : CacheTable A item) :
    (store.put slot table).tables.lookup slot = some ⟨item, table⟩ := by
  simp [put, lookup_replace]

/-- A table that was put into a slot is found there. -/
theorem table?_put (store : CacheStore A) (table : CacheTable A item) :
    (store.put slot table).table? slot item = some table := by
  simp [table?, lookup_put]

/-- Opening a slot changes a store only by an empty table. -/
theorem open?_ok {store caches : CacheStore A} {table : CacheTable A item}
    (h : store.open? slot item = .ok (table, caches)) :
    (caches = store ∧ store.table? slot item = some table) ∨
      (table = .empty ∧ store.table? slot item = none) := by
  unfold open? at h
  unfold table?
  cases hslot : store.tables.lookup slot with
  | none =>
      simp only [hslot, Except.ok.injEq, Prod.mk.injEq] at h
      exact .inr ⟨h.1.symm, rfl⟩
  | some entry =>
      obtain ⟨held, found⟩ := entry
      simp only [hslot] at h
      by_cases hitem : held = item
      · simp only [dif_pos hitem, Except.ok.injEq, Prod.mk.injEq] at h
        exact .inl ⟨h.2.symm, by simp [hitem, ← h.1]⟩
      · simp [dif_neg hitem] at h

end CacheStore

/-! ### Handlers that keep the caches -/

/-- A step of a callback that leaves the caches as they are, whether it refuses or not. -/
structure Callback.KeepsCaches {α : Type} (step : Callback A α) : Prop where
  ok : ∀ {state after : Decoding A} {answer : α}, step state = .ok answer after →
    after.caches = state.caches
  error : ∀ {state after : Decoding A} {cause : ProtocolError}, step state = .error cause after →
    after.caches = state.caches

/-- A call whose handlers leave the caches to the library. -/
def BuilderCall.KeepsCaches : BuilderCall A → Prop
  | @endpoint _ _ _ _ decode | @keyedEndpoint _ _ _ _ _ _ decode =>
    ∀ env value ctx, (decode env value ctx).KeepsCaches
  | @signal _ _ _ _ handle => ∀ env value ctx, (handle env value ctx).KeepsCaches
  | _ => True

namespace EndpointDef

/-- An endpoint that leaves the caches as they are. -/
def KeepsCaches (endpoint : EndpointDef A) : Prop :=
  ∀ env value ctx, (endpoint.decode env value ctx).KeepsCaches

/-- An endpoint that takes the puts of a cache. -/
def TakesPuts (endpoint : EndpointDef A) {item : A.Item} (name : String) (slot : Nat)
    (maxEntries : UInt32) (codec : ObjectCodec A item) : Prop :=
  ∀ env value ctx,
    endpoint.decode env value ctx = ObjectCache.takePut name slot maxEntries codec env

/-- An endpoint that changes the caches, if at all, by a put. -/
def PutsOnly (endpoint : EndpointDef A) : Prop :=
  endpoint.KeepsCaches ∨ ∃ (item : A.Item) (name : String) (slot : Nat) (maxEntries : UInt32)
    (codec : ObjectCodec A item), endpoint.TakesPuts name slot maxEntries codec

end EndpointDef

/-- In a tree whose handlers leave the caches to the library, only the endpoints of the caches
change them. -/
theorem Built.endpoint_putsOnly {revision : Revision} {builder : TreeBuilder A}
    {handles : List (Handle A)}
    (h : Built revision (fun _ call => call.KeepsCaches) builder handles) {index : NodeIndex}
    {node : Node A} (hnode : builder.build.node? index = some node) {endpoint : EndpointDef A}
    (hendpoint : node.kind.endpoint? = some endpoint) : endpoint.PutsOnly := by
  refine h.kinds (Q := fun kind => ∀ endpoint, kind.endpoint? = some endpoint → endpoint.PutsOnly)
    ?_ ?_ ?_ hnode endpoint hendpoint
  · intro endpoint hendpoint
    cases hendpoint
  · intro handles call kind hkeeps hadds endpoint hendpoint
    cases call with
    | endpoint above name decode | keyedEndpoint above name key decode | signal above name decode =>
        cases hadds
        cases hendpoint
        exact .inl hkeeps
    | cache name codec =>
        rcases hadds with rfl | ⟨slot, maxEntries, rfl⟩
        · cases hendpoint
        · cases hendpoint
          exact .inr ⟨_, name, slot, maxEntries, codec, fun _ _ _ => rfl⟩
    | cacheWithCapacity name codec maxEntries =>
        rcases hadds with rfl | ⟨slot, rfl⟩
        · cases hendpoint
        · cases hendpoint
          exact .inr ⟨_, name, slot, maxEntries, codec, fun _ _ _ => rfl⟩
    | setPayloadLength target bytes | onMissing target handler => exact hadds.elim
    | _ =>
        cases hadds
        cases hendpoint
  · intro kind handler hkind endpoint hendpoint
    cases kind with
    | endpoint before =>
        cases hendpoint
        exact hkind before rfl
    | keyedEndpoint carrier before =>
        cases hendpoint
        exact hkind before rfl
    | _ => cases hendpoint

/-! ### Taking a put -/

namespace Callback

theorem reading_ok {α : Type} {step : MessageReader α} {state : Decoding A} {value : α}
    {dec : Decoder} (h : step state.decoder = .ok value dec) :
    reading step state = .ok value { state with decoder := dec } := by
  simp only [reading, h]

theorem reading_error {α : Type} {step : MessageReader α} {state : Decoding A}
    {cause : ProtocolError} {dec : Decoder} (h : step state.decoder = .error cause dec) :
    reading step state = .error cause { state with decoder := dec } := by
  simp only [reading, h]

theorem get_ok (state : Decoding A) : (get : Callback A (Decoding A)) state = .ok state state := rfl

theorem store_ok (caches : CacheStore A) (state : Decoding A) :
    (modify fun state => { state with caches } : Callback A Unit) state
      = .ok () { state with caches } := rfl

end Callback

namespace ObjectCache

variable {item : A.Item} {maxEntries : UInt32} {slot : Nat} {codec : ObjectCodec A item}
  {env : A.Env} {state : Decoding A}

/-- A put that a cache can store: its id is in range and new, and its object can be read. -/
structure Fitting (maxEntries : UInt32) (slot : Nat) (codec : ObjectCodec A item) (env : A.Env)
    (state : Decoding A) where
  id : UInt32
  object : A.Object item
  behindId : Decoder
  behindObject : Decoder
  table : CacheTable A item
  caches : CacheStore A
  numbered : Reader.varU32 state.decoder = .ok id behindId
  inRange : id.toNat < maxEntries.toNat
  decoded : codec.read env behindId = .ok object behindObject
  opened : state.caches.open? slot item = .ok (table, caches)
  unknown : table.object? id.toNat = none

/-- The state behind such a put: its object is stored. -/
def Fitting.after (put : Fitting maxEntries slot codec env state) : Decoding A where
  decoder := put.behindObject
  caches := put.caches.put slot (put.table.learn put.id.toNat put.object)
  events := state.events

theorem takePut_fitting (name : String) (put : Fitting maxEntries slot codec env state) :
    takePut name slot maxEntries codec env state = .ok () put.after := by
  unfold takePut
  rw [Step.bind_ok (Callback.reading_ok (Step.adapt_ok.mpr put.numbered))]
  simp only [if_neg (Nat.not_le.mpr put.inRange)]
  rw [Step.bind_ok (Callback.reading_ok put.decoded)]
  rw [Step.bind_ok (Callback.get_ok _)]
  simp only [put.opened]
  rw [Step.bind_ok (Callback.store_ok put.caches _)]
  simp only [put.unknown]
  rfl

/-- Any other put is refused and leaves the caches as they are. -/
theorem takePut_cases (name : String) (slot : Nat) (maxEntries : UInt32)
    (codec : ObjectCodec A item) (env : A.Env) (state : Decoding A) :
    Nonempty (Fitting maxEntries slot codec env state) ∨
      ∃ cause after, takePut name slot maxEntries codec env state = .error cause after ∧
        after.caches = state.caches := by
  unfold takePut
  cases hid : Reader.varU32 state.decoder with
  | error cause dec =>
      exact .inr ⟨_, _, Step.bind_error (Callback.reading_error (Step.adapt_error hid)), rfl⟩
  | ok id behindId =>
      rw [Step.bind_ok (Callback.reading_ok (Step.adapt_ok.mpr hid))]
      by_cases hrange : maxEntries.toNat ≤ id.toNat
      · simp only [if_pos hrange]
        exact .inr ⟨_, _, rfl, rfl⟩
      simp only [if_neg hrange]
      cases hobject : codec.read env behindId with
      | error cause dec =>
          exact .inr ⟨_, _, Step.bind_error (Callback.reading_error hobject), rfl⟩
      | ok object behindObject =>
          rw [Step.bind_ok (Callback.reading_ok hobject)]
          rw [Step.bind_ok (Callback.get_ok _)]
          cases hopen : state.caches.open? slot item with
          | error cause => exact .inr ⟨_, _, rfl, rfl⟩
          | ok opened =>
              obtain ⟨table, caches⟩ := opened
              simp only
              rw [Step.bind_ok (Callback.store_ok caches _)]
              cases hknown : table.object? id.toNat with
              | none =>
                  exact .inl ⟨⟨id, object, behindId, behindObject, table, caches, hid,
                    Nat.lt_of_not_le hrange, hobject, hopen, hknown⟩⟩
              | some known =>
                  refine .inr ⟨_, _, rfl, ?_⟩
                  -- a slot that is opened for the first time holds no object yet
                  rcases CacheStore.open?_ok hopen with ⟨rfl, -⟩ | ⟨rfl, -⟩
                  · rfl
                  · simp [CacheTable.object?, CacheTable.empty] at hknown

/-- Storing an object changes the caches. -/
theorem Fitting.caches_ne (put : Fitting maxEntries slot codec env state) :
    put.after.caches ≠ state.caches := by
  intro hsame
  have hafter : (put.after.caches.table? slot item).bind (·.object? put.id.toNat)
      = some put.object := by
    simp [after, CacheStore.table?_put, CacheTable.object?_learn put.object put.unknown]
  rw [hsame] at hafter
  rcases CacheStore.open?_ok put.opened with ⟨-, hbefore⟩ | ⟨-, hbefore⟩
  · simp [hbefore, put.unknown] at hafter
  · simp [hbefore] at hafter

end ObjectCache

/-! ### Refused messages -/

namespace Connection

/-- A put that its cache can store, with bytes behind it that belong to nothing. -/
structure OverlongPut (conn : Connection A) (env : A.Env) (message : Bytes) where
  arrival : Arrival conn env message
  item : A.Item
  name : String
  slot : Nat
  maxEntries : UInt32
  codec : ObjectCodec A item
  cache : arrival.endpoint.TakesPuts name slot maxEntries codec
  put : ObjectCache.Fitting maxEntries slot codec env ⟨arrival.payload, conn.caches, []⟩
  overlong : put.behindObject.remaining ≠ 0

/-- An overlong put is refused, but its object is stored. -/
theorem OverlongPut.receive_eq {conn : Connection A} {env : A.Env} {message : Bytes}
    (long : OverlongPut conn env message) :
    conn.receive env message =
      ⟨.error (.trailingBytes long.arrival.path.dotted long.put.behindObject.remaining),
        { conn with caches := long.put.after.caches }, []⟩ := by
  have hdecoded : long.arrival.decoded = .ok () long.put.after := by
    unfold Arrival.decoded
    rw [long.cache]
    exact ObjectCache.takePut_fitting long.name long.put
  have hleft : long.put.after.decoder.remaining ≠ 0 := long.overlong
  rw [long.arrival.receive_ok hdecoded, if_neg hleft]
  rfl

/-- The endpoint of a message is one of the tree. -/
theorem endpointOf_ok {tree : Tree A} {id : Nat} {path : ResolvedPath} {endpoint : EndpointDef A}
    (h : endpointOf tree id path = .ok endpoint) :
    ∃ index node, path.path.getLast? = some index ∧ tree.node? index = some node ∧
      node.kind.endpoint? = some endpoint := by
  unfold endpointOf at h
  cases hlast : path.path.getLast? with
  | none => simp [hlast] at h
  | some index =>
      simp only [hlast] at h
      obtain ⟨node, hnode, h⟩ := Result.of_bind_ok h
      cases hendpoint : node.kind.endpoint? with
      | none => simp [hendpoint] at h
      | some held =>
          simp only [hendpoint, pure, Except.pure, Except.ok.injEq] at h
          exact ⟨index, node, rfl, Tree.node_ok hnode, h ▸ hendpoint⟩

/-- A message that arrives, is refused and is no overlong put leaves the caches as they are. -/
theorem Arrival.receive_conn {revision : Revision} {builder : TreeBuilder A}
    {handles : List (Handle A)}
    (hbuilt : Built revision (fun _ call => call.KeepsCaches) builder handles)
    {conn : Connection A} (htree : conn.tree = builder.build) {env : A.Env} {message : Bytes}
    (arrival : Arrival conn env message) {cause : ProtocolError}
    (h : (conn.receive env message).outcome = .error cause)
    (hshort : ¬ Nonempty (OverlongPut conn env message)) :
    (conn.receive env message).conn = conn := by
  obtain ⟨index, node, -, hnode, hendpoint⟩ := endpointOf_ok arrival.addressed
  rw [htree] at hnode
  rcases hbuilt.endpoint_putsOnly hnode hendpoint with
    hkeeps | ⟨item, name, slot, maxEntries, codec, htakes⟩
  · have hdecoder := hkeeps env arrival.value arrival.context
    cases hdecoded : arrival.decoded with
    | ok answer state => rw [arrival.receive_ok hdecoded, hdecoder.ok hdecoded]
    | error refusal state => rw [arrival.receive_error hdecoded, hdecoder.error hdecoded]
  · have htaken : arrival.decoded = ObjectCache.takePut name slot maxEntries codec env
        ⟨arrival.payload, conn.caches, []⟩ := by
      unfold decoded
      rw [htakes]
    rcases ObjectCache.takePut_cases name slot maxEntries codec env
        ⟨arrival.payload, conn.caches, []⟩ with ⟨⟨put⟩⟩ | ⟨refusal, state, herror, hcaches⟩
    · -- the put is stored, so it is refused only for what stands behind it
      rw [arrival.receive_ok (htaken.trans (ObjectCache.takePut_fitting name put))] at h
      by_cases hleft : put.after.decoder.remaining = 0
      · simp [hleft] at h
      · exact absurd ⟨⟨arrival, item, name, slot, maxEntries, codec, htakes, put, hleft⟩⟩ hshort
    · rw [arrival.receive_error (htaken.trans herror), hcaches]

/-- **A refused message changes nothing but the caches, and those only if it is an overlong
put.** -/
theorem refused_receive {revision : Revision} {builder : TreeBuilder A}
    {handles : List (Handle A)}
    (hbuilt : Built revision (fun _ call => call.KeepsCaches) builder handles)
    {conn : Connection A} (htree : conn.tree = builder.build) {env : A.Env} {message : Bytes}
    {cause : ProtocolError} (h : (conn.receive env message).outcome = .error cause) :
    ∃ caches, (conn.receive env message).conn = { conn with caches } ∧
      (caches = conn.caches ↔ ¬ Nonempty (OverlongPut conn env message)) ∧
      ∀ long : OverlongPut conn env message, caches = long.put.after.caches := by
  by_cases hlong : Nonempty (OverlongPut conn env message)
  · obtain ⟨long⟩ := hlong
    refine ⟨long.put.after.caches, by rw [long.receive_eq], ?_, ?_⟩
    · exact ⟨fun hsame => absurd hsame long.put.caches_ne, fun hnone => absurd ⟨long⟩ hnone⟩
    · intro other
      have hsame : (conn.receive env message).conn.caches = other.put.after.caches := by
        rw [other.receive_eq]
      rw [← hsame, long.receive_eq]
  · refine ⟨conn.caches, ?_, ⟨fun _ => hlong, fun _ => rfl⟩, fun long => absurd ⟨long⟩ hlong⟩
    rcases conn.receive_cases env message with ⟨⟨arrival⟩⟩ | hsame | ⟨delivery, incoming, hok, -⟩
    · exact arrival.receive_conn hbuilt htree h hlong
    · exact hsame
    · rw [hok] at h
      cases h

/-! A tree with one cache of numbers, on which both things happen. -/

/-- The only declaration of the tree. -/
def numberCache : BuilderCall Scenario.app := .cache "c" (Scenario.objectCodec 64 .int)

/-- The tree under construction. -/
def numberBuilder : TreeBuilder Scenario.app :=
  match numberCache.run (.new .zero) with
  | .ok _ builder | .error _ builder => builder

theorem numberBuilder_built :
    Built .zero (fun _ call => call.KeepsCaches) numberBuilder
      [.parent .unit .root, .endpoint .unit ⟨2⟩] := by
  have hcall : numberCache.run (.new .zero) = .ok [.endpoint .unit ⟨2⟩] numberBuilder := rfl
  exact .answered numberCache .new trivial hcall

/-- A connection on which the peer has announced the path `cache.c` with id 3. -/
def numberPeer : Connection Scenario.app :=
  (receive (.new numberBuilder.build "b" none) ({} : Scenario.Names)
    ([0, 0, 0, 0, 3, 2, 5] ++ Bytes.ofString "cache" ++ [1] ++ Bytes.ofString "c")).conn

/-- The put of 7 under id 0 with a stray byte is refused, and yet the cache keeps it. -/
theorem refused_receive_stray_byte :
    ∃ caches, (numberPeer.receive ({} : Scenario.Names) [0, 0, 0, 3, 0, 7, 9]).conn
        = { numberPeer with caches } ∧
      (caches = numberPeer.caches ↔
        ¬ Nonempty (OverlongPut numberPeer ({} : Scenario.Names) [0, 0, 0, 3, 0, 7, 9])) ∧
      ∀ long : OverlongPut numberPeer ({} : Scenario.Names) [0, 0, 0, 3, 0, 7, 9],
        caches = long.put.after.caches :=
  refused_receive numberBuilder_built rfl rfl

/-- The same put without the stray byte is then refused as well, where a peer that never saw the
stray byte accepts it. -/
theorem stray_byte_spoils_put :
    (numberPeer.receive ({} : Scenario.Names) [0, 0, 0, 3, 0, 7]).outcome
        = .ok (.dispatched 3 "cache.c") ∧
      (numberPeer.receive ({} : Scenario.Names) [0, 0, 0, 3, 0, 7, 9]).outcome
        = .error (.trailingBytes "cache.c" 1) ∧
      ((numberPeer.receive ({} : Scenario.Names) [0, 0, 0, 3, 0, 7, 9]).conn.receive
        ({} : Scenario.Names) [0, 0, 0, 3, 0, 7]).outcome = .error (.cacheDuplicate "c" 0) :=
  ⟨rfl, rfl, rfl⟩

end Connection

end PathWire

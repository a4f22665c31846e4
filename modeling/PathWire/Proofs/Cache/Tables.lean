/-
What happens to the tables of the caches.

A table comes into being when its slot is first opened, so a slot that was never opened stands for
an empty table, and `tableAt` reads it so.  Giving an object an id rewrites the table of one cache
in what is assigned here; taking a put rewrites the table of one cache in what the peer has
assigned.  Nothing else touches the tables.
-/
import PathWire.Proofs.Cache.Stock
import PathWire.Proofs.Peer.Action

namespace PathWire

variable {A : Application}

namespace CacheStore

variable {item : A.Item} {slot : Nat} {before between store after : CacheStore A}
  {table : CacheTable A item}

/-- The table in a slot; an empty one if the slot was not used yet for objects of the type. -/
def tableAt (store : CacheStore A) (slot : Nat) (item : A.Item) : CacheTable A item :=
  (store.table? slot item).getD .empty

/-- A slot that objects of a type can be kept in. -/
def Opens (store : CacheStore A) (slot : Nat) (item : A.Item) : Prop :=
  ∀ held table, store.tables.lookup slot = some ⟨held, table⟩ → held = item

/-- The store after is the store before with the given table in a slot. -/
structure Rewrites (before after : CacheStore A) (slot : Nat) {item : A.Item}
    (table : CacheTable A item) : Prop where
  self : after.tableAt slot item = table
  others : ∀ (other : Nat) (kind : A.Item), (other = slot → kind ≠ item) →
    after.tableAt other kind = before.tableAt other kind
  opens : ∀ (other : Nat) (kind : A.Item), (other = slot → kind = item) →
    before.Opens other kind → after.Opens other kind

theorem rewrites_refl (store : CacheStore A) (slot : Nat) (item : A.Item) :
    store.Rewrites store slot (store.tableAt slot item) :=
  ⟨rfl, fun _ _ _ => rfl, fun _ _ _ h => h⟩

theorem Rewrites.trans {first last : CacheTable A item} (h : before.Rewrites between slot first)
    (hrest : between.Rewrites after slot last) : before.Rewrites after slot last where
  self := hrest.self
  others other kind hne := (hrest.others other kind hne).trans (h.others other kind hne)
  opens other kind hsame hopens := hrest.opens other kind hsame (h.opens other kind hsame hopens)

/-- What one table keeps when it is rewritten, all tables keep. -/
theorem Rewrites.all {same : {item : A.Item} → CacheTable A item → CacheTable A item → Prop}
    (hrefl : ∀ {item : A.Item} (table : CacheTable A item), same table table)
    (h : before.Rewrites after slot table) (htable : same (before.tableAt slot item) table)
    (other : Nat) (kind : A.Item) :
    same (before.tableAt other kind) (after.tableAt other kind) := by
  by_cases hplace : other = slot ∧ kind = item
  · obtain ⟨rfl, rfl⟩ := hplace
    rw [h.self]
    exact htable
  · rw [h.others other kind fun hslot hkind => hplace ⟨hslot, hkind⟩]
    exact hrefl _

/-- A table that is put back as it was changes no table. -/
theorem Rewrites.tables_same (h : before.Rewrites after slot (before.tableAt slot item))
    (other : Nat) (kind : A.Item) : after.tableAt other kind = before.tableAt other kind := by
  by_cases hplace : other = slot ∧ kind = item
  · obtain ⟨rfl, rfl⟩ := hplace
    exact h.self
  · exact h.others other kind fun hslot hkind => hplace ⟨hslot, hkind⟩

theorem lookup_put_ne {other : Nat} (h : other ≠ slot) :
    (store.put slot table).tables.lookup other = store.tables.lookup other := by
  simp [put, lookup_replace, h]

/-- A table of a type that the slot can keep is put into it. -/
theorem rewrites_put (h : store.Opens slot item) (table : CacheTable A item) :
    store.Rewrites (store.put slot table) slot table where
  self := by simp only [tableAt, table?_put, Option.getD_some]
  others := by
    intro other kind hne
    by_cases hslot : other = slot
    · -- the slot keeps no objects of another type, neither before nor after
      subst hslot
      have hkind := hne rfl
      have hafter : (store.put other table).table? other kind = none := by
        simp only [table?, lookup_put, dif_neg (Ne.symm hkind)]
      have hbefore : store.table? other kind = none := by
        unfold table?
        cases hlookup : store.tables.lookup other with
        | none => rfl
        | some entry =>
            obtain ⟨held, found⟩ := entry
            obtain rfl := h held found hlookup
            simp only [dif_neg (Ne.symm hkind)]
      simp only [tableAt, hafter, hbefore]
    · simp only [tableAt, table?, lookup_put_ne hslot]
  opens := by
    intro other kind hsame hopens held found hlookup
    by_cases hslot : other = slot
    · subst hslot
      rw [lookup_put] at hlookup
      cases hlookup
      exact (hsame rfl).symm
    · rw [lookup_put_ne hslot] at hlookup
      exact hopens held found hlookup

/-- Opening a slot gives its table, and leaves the others. -/
theorem open?_rewrites (h : store.open? slot item = .ok (table, after)) :
    table = store.tableAt slot item ∧ store.Opens slot item ∧ after.Opens slot item ∧
      store.Rewrites after slot table := by
  unfold open? at h
  cases hlookup : store.tables.lookup slot with
  | none =>
      simp only [hlookup, Except.ok.injEq, Prod.mk.injEq] at h
      obtain ⟨rfl, rfl⟩ := h
      have hopens : store.Opens slot item := by
        intro held found hfound
        rw [hlookup] at hfound
        cases hfound
      have hrewrites := rewrites_put hopens .empty
      refine ⟨?_, hopens, hrewrites.opens slot item (fun _ => rfl) hopens, hrewrites⟩
      simp only [tableAt, table?, hlookup, Option.getD_none]
  | some entry =>
      obtain ⟨held, found⟩ := entry
      simp only [hlookup] at h
      by_cases hheld : held = item
      · subst hheld
        rw [dif_pos rfl] at h
        cases h
        have hopens : store.Opens slot held := by
          intro other another hother
          rw [hlookup] at hother
          cases hother
          rfl
        have htable : store.tableAt slot held = found := by
          simp [tableAt, table?, hlookup]
        exact ⟨htable.symm, hopens, hopens, htable ▸ store.rewrites_refl slot held⟩
      · simp only [dif_neg hheld] at h
        cases h

/-- Opening a slot that is in use changes nothing. -/
theorem open?_used (h : store.table? slot item = some table) :
    store.open? slot item = .ok (table, store) := by
  unfold table? at h
  unfold open?
  cases hlookup : store.tables.lookup slot with
  | none =>
      simp only [hlookup] at h
      cases h
  | some entry =>
      obtain ⟨held, found⟩ := entry
      simp only [hlookup] at h
      by_cases hheld : held = item
      · subst hheld
        rw [dif_pos rfl] at h
        cases h
        exact dif_pos rfl
      · rw [dif_neg hheld] at h
        cases h

/-- A slot that can keep objects of the type is opened. -/
theorem Opens.open?_ok (h : store.Opens slot item) :
    ∃ after, store.open? slot item = .ok (store.tableAt slot item, after) := by
  cases hopen : store.open? slot item with
  | ok opened =>
      obtain ⟨table, after⟩ := opened
      exact ⟨after, by rw [(open?_rewrites hopen).1]⟩
  | error cause =>
      unfold open? at hopen
      cases hlookup : store.tables.lookup slot with
      | none => simp only [hlookup] at hopen; cases hopen
      | some entry =>
          obtain ⟨held, found⟩ := entry
          obtain rfl := h held found hlookup
          simp [hlookup] at hopen

/-- Every cache can keep its objects in its slot. -/
def Sorted (caches : List (AnyCache A)) (store : CacheStore A) : Prop :=
  ∀ cache ∈ caches, store.Opens cache.2.slot cache.1

theorem sorted_empty (caches : List (AnyCache A)) : (empty (A := A)).Sorted caches := by
  intro cache hcache held table hfound
  cases hfound

/-- A cache that rewrites its table leaves the slots of all caches to them. -/
theorem Sorted.rewrites {caches : List (AnyCache A)} (h : before.Sorted caches)
    (hslots : ∀ one ∈ caches, ∀ other ∈ caches, one.2.slot = other.2.slot → one = other)
    {cache : AnyCache A} (hcache : cache ∈ caches) {table : CacheTable A cache.1}
    (hrewrites : before.Rewrites after cache.2.slot table) : after.Sorted caches := by
  intro other hother
  refine hrewrites.opens other.2.slot other.1 (fun hslot => ?_) (h other hother)
  rw [hslots other hother cache hcache hslot]

end CacheStore

/-! ### The two halves of a table -/

namespace CacheTable

variable {item : A.Item}

/-- The peer has assigned the same ids in both tables. -/
def SameIncoming (before after : CacheTable A item) : Prop := after.incoming = before.incoming

/-- The same ids are assigned here in both tables, and the same one is next. -/
structure SameOutgoing (before after : CacheTable A item) : Prop where
  outgoing : after.outgoing = before.outgoing
  nextId : after.nextId = before.nextId

/-- What is found in a table with one more object. -/
theorem object?_learn_cases {table : CacheTable A item} {id other : Nat}
    {object found : A.Object item} (h : (table.learn id object).object? other = some found) :
    table.object? other = some found ∨ other = id ∧ object = found := by
  simp only [object?, learn, List.lookup_append] at h ⊢
  cases hold : table.incoming.lookup other with
  | some known =>
      rw [hold] at h
      exact .inl h
  | none =>
      rw [hold, Option.none_or] at h
      by_cases hsame : other = id
      · subst hsame
        simp only [List.lookup, beq_self_eq_true] at h
        exact .inr ⟨rfl, Option.some.inj h⟩
      · simp [List.lookup, beq_eq_false_iff_ne.mpr hsame] at h

/-- An object stays where it is when another one is learnt. -/
theorem object?_learn_of_old {table : CacheTable A item} {id other : Nat}
    {object found : A.Object item} (h : table.object? other = some found) :
    (table.learn id object).object? other = some found := by
  simp only [object?, learn, List.lookup_append] at h ⊢
  rw [h, Option.some_or]

end CacheTable

/-! ### Giving an object an id -/

namespace ObjectCache

variable {item : A.Item}

/-- The table of a cache on a connection. -/
def table (cache : ObjectCache A item) (caches : CacheStore A) : CacheTable A item :=
  caches.tableAt cache.slot item

/-- An object that the peer has assigned an id to is one in the table. -/
theorem resolve_ok {cache : ObjectCache A item} {caches : CacheStore A} {id : Nat}
    {object : A.Object item} :
    cache.resolve caches id = .ok object ↔ (cache.table caches).object? id = some object := by
  unfold resolve resolveIn table CacheStore.tableAt
  cases htable : caches.table? cache.slot item with
  | none => simp [CacheTable.object?, CacheTable.empty]
  | some found =>
      cases hobject : found.object? id <;> simp [hobject]

/-- An object that has an id is given it again, and nothing else happens. -/
theorem assign_known {cache : ObjectCache A item} {conn : Connection A} {object : A.Object item}
    {id : Nat} (h : (cache.table conn.caches).idOf? (cache.codec.keyOf object) = some id)
    (env : A.Env) : cache.assign env conn object = (.ok id, conn) := by
  unfold table CacheStore.tableAt at h
  cases htable : conn.caches.table? cache.slot item with
  | none =>
      rw [htable] at h
      cases h
  | some table =>
      rw [htable, Option.getD_some] at h
      unfold assign
      simp only [CacheStore.open?_used htable, h]

/-- What giving an object an id comes to: it is refused because the slot or its capacity is taken,
the object has an id already, its put cannot be queued and the id is taken back, or its put is
queued. -/
inductive Assigns (cache : ObjectCache A item) (env : A.Env) (conn : Connection A)
    (object : A.Object item) : Except ProtocolError Nat → Connection A → Prop
  | refused {cause : ProtocolError} {caches : CacheStore A}
      (hcaches : conn.caches.Rewrites caches cache.slot (cache.table conn.caches))
      (hwhy : conn.caches.Opens cache.slot item →
        (cache.table conn.caches).idOf? (cache.codec.keyOf object) = none ∧
        cache.maxEntries.toNat ≤ (cache.table conn.caches).outgoing.length ∧
        cause = .cacheFull cache.name cache.maxEntries.toNat) :
      Assigns cache env conn object (.error cause) { conn with caches }
  | known {id : Nat} {caches : CacheStore A}
      (hid : (cache.table conn.caches).idOf? (cache.codec.keyOf object) = some id)
      (hcaches : conn.caches.Rewrites caches cache.slot (cache.table conn.caches)) :
      Assigns cache env conn object (.ok id) { conn with caches }
  | failed {cause : ProtocolError} {stored caches : CacheStore A}
      (hcaches : conn.caches.Rewrites caches cache.slot
        (((cache.table conn.caches).assign (cache.codec.keyOf object)).release
          (cache.table conn.caches).nextId))
      (hnew : (cache.table conn.caches).idOf? (cache.codec.keyOf object) = none)
      (hroom : (cache.table conn.caches).outgoing.length < cache.maxEntries.toNat)
      (hsend : Connection.send { conn with caches := stored } env cache.endpoint () .normal
        (cache.put env (cache.table conn.caches).nextId object) = .error cause) :
      Assigns cache env conn object (.error cause) { conn with caches }
  | fresh {caches : CacheStore A} {after : Connection A}
      (hnew : (cache.table conn.caches).idOf? (cache.codec.keyOf object) = none)
      (hroom : (cache.table conn.caches).outgoing.length < cache.maxEntries.toNat)
      (hcaches : conn.caches.Rewrites caches cache.slot
        ((cache.table conn.caches).assign (cache.codec.keyOf object)))
      (hsent : Connection.Departure { conn with caches } env cache.endpoint.index .unit none .normal
        (cache.put env (cache.table conn.caches).nextId object) () after) :
      Assigns cache env conn object (.ok (cache.table conn.caches).nextId) after

/-- Taking an id back rewrites the table of the cache. -/
theorem rollBack_rewrites (cache : ObjectCache A item) (conn : Connection A) (id : Nat)
    (h : conn.caches.Opens cache.slot item) :
    ∃ caches, cache.rollBack conn id = { conn with caches } ∧
      conn.caches.Rewrites caches cache.slot ((cache.table conn.caches).release id) := by
  obtain ⟨opened, hopen⟩ := h.open?_ok
  obtain ⟨-, -, hopens, hrewrites⟩ := CacheStore.open?_rewrites hopen
  refine ⟨_, ?_, hrewrites.trans (CacheStore.rewrites_put hopens _)⟩
  unfold rollBack
  simp only [hopen]
  rfl

/-- What giving the next id to a new object comes to. -/
theorem assignNew_assigns (cache : ObjectCache A item) (env : A.Env) (conn : Connection A)
    (object : A.Object item) {opened : CacheStore A}
    (hopened : conn.caches.Rewrites opened cache.slot (cache.table conn.caches))
    (hopens : opened.Opens cache.slot item)
    (hnew : (cache.table conn.caches).idOf? (cache.codec.keyOf object) = none)
    (hroom : (cache.table conn.caches).outgoing.length < cache.maxEntries.toNat)
    {result : Except ProtocolError Nat × Connection A}
    (h : cache.assignNew env { conn with caches := opened } (cache.table conn.caches) object
      = result) : cache.Assigns env conn object result.1 result.2 := by
  have hput := CacheStore.rewrites_put hopens
    ((cache.table conn.caches).assign (cache.codec.keyOf object))
  unfold assignNew at h
  simp only at h
  generalize opened.put cache.slot ((cache.table conn.caches).assign (cache.codec.keyOf object))
    = stored at h hput
  cases hsend : Connection.send { conn with caches := stored } env cache.endpoint () .normal
    (cache.put env (cache.table conn.caches).nextId object) with
  | ok sent =>
      obtain ⟨⟨⟩, after⟩ := sent
      obtain ⟨departure⟩ := Connection.sendValue_ok hsend
      simp only [hsend] at h
      subst h
      exact .fresh hnew hroom (hopened.trans hput) departure
  | error cause =>
      obtain ⟨released, hreleased, hback⟩ := rollBack_rewrites cache { conn with caches := stored }
        (cache.table conn.caches).nextId (hput.opens _ _ (fun _ => rfl) hopens)
      simp only [hsend, hreleased] at h
      subst h
      have htable : cache.table stored
          = (cache.table conn.caches).assign (cache.codec.keyOf object) := hput.self
      rw [htable] at hback
      exact .failed ((hopened.trans hput).trans hback) hnew hroom hsend

/-- **What giving an object an id comes to.** -/
theorem assign_assigns (cache : ObjectCache A item) (env : A.Env) (conn : Connection A)
    (object : A.Object item) {result : Except ProtocolError Nat × Connection A}
    (h : cache.assign env conn object = result) :
    cache.Assigns env conn object result.1 result.2 := by
  unfold assign at h
  cases hopen : conn.caches.open? cache.slot item with
  | error cause =>
      simp only [hopen] at h
      subst h
      refine .refused (conn.caches.rewrites_refl cache.slot item) fun hopens => ?_
      obtain ⟨after, hafter⟩ := hopens.open?_ok
      cases hopen.symm.trans hafter
  | ok opened =>
      obtain ⟨table, opened⟩ := opened
      obtain ⟨htable, -, hopens, hopened⟩ := CacheStore.open?_rewrites hopen
      have htable : table = cache.table conn.caches := htable
      subst htable
      simp only [hopen] at h
      cases hid : (cache.table conn.caches).idOf? (cache.codec.keyOf object) with
      | some id =>
          simp only [hid] at h
          subst h
          exact .known hid hopened
      | none =>
          simp only [hid] at h
          by_cases hfull : cache.maxEntries.toNat ≤ (cache.table conn.caches).outgoing.length
          · rw [if_pos hfull] at h
            subst h
            exact .refused hopened fun _ => ⟨hid, hfull, rfl⟩
          · rw [if_neg hfull] at h
            exact assignNew_assigns cache env conn object hopened hopens hid
              (Nat.lt_of_not_le hfull) h

/-! ### Taking a put -/

/-- A put that is stored is new in the table of its slot. -/
theorem Fitting.rewrites {maxEntries : UInt32} {slot : Nat} {codec : ObjectCodec A item}
    {env : A.Env} {state : Decoding A} (put : Fitting maxEntries slot codec env state) :
    (state.caches.tableAt slot item).object? put.id.toNat = none ∧
      state.caches.Rewrites put.after.caches slot
        ((state.caches.tableAt slot item).learn put.id.toNat put.object) := by
  obtain ⟨htable, -, hopens, hopened⟩ := CacheStore.open?_rewrites put.opened
  rw [← htable]
  exact ⟨put.unknown, hopened.trans (CacheStore.rewrites_put hopens _)⟩

end ObjectCache

/-! ### What an action may change -/

/-- A send changes what is sent only. -/
theorem Connection.Departure.frame {α : Type} {conn after : Connection A} {env : A.Env}
    {endpoint : NodeIndex} {value : Value A} {chosen : Option (LinkChoice A)} {priority : Priority}
    {payload : Payload A α} {answer : α}
    (sent : Departure conn env endpoint value chosen priority payload answer after) :
    ∃ outgoing nextFreeId outbox,
      after = { conn with ids := { conn.ids with outgoing, nextFreeId }, outbox } := by
  rcases introduce_ok sent.announced with ⟨known, -, hsame⟩ | ⟨first, -, -, hsame⟩
  · exact ⟨conn.ids.outgoing, conn.ids.nextFreeId, _, by rw [sent.queued, hsame]; rfl⟩
  · exact ⟨_, _, _, by rw [sent.queued, hsame]; rfl⟩

theorem Connection.afterSend_frame {α : Type} (conn : Connection A) (env : A.Env)
    (endpoint : NodeIndex) (value : Value A) (chosen : Option (LinkChoice A)) (priority : Priority)
    (payload : Payload A α) : ∃ outgoing nextFreeId outbox,
      conn.afterSend (conn.sendValue env endpoint value chosen priority payload)
        = { conn with ids := { conn.ids with outgoing, nextFreeId }, outbox } := by
  cases hsend : conn.sendValue env endpoint value chosen priority payload with
  | ok result =>
      obtain ⟨answer, after⟩ := result
      obtain ⟨sent⟩ := sendValue_ok hsend
      exact sent.frame
  | error cause => exact ⟨conn.ids.outgoing, conn.ids.nextFreeId, conn.outbox, rfl⟩

/-- What giving an object an id may change. -/
theorem ObjectCache.Assigns.frame {item : A.Item} {cache : ObjectCache A item} {env : A.Env}
    {conn after : Connection A} {object : A.Object item} {answer : Except ProtocolError Nat}
    (h : cache.Assigns env conn object answer after) :
    ∃ outgoing nextFreeId outbox caches,
      after = { conn with ids := { conn.ids with outgoing, nextFreeId }, outbox, caches } ∧
        ∀ slot kind, (conn.caches.tableAt slot kind).SameIncoming (caches.tableAt slot kind) := by
  cases h with
  | refused hcaches => exact ⟨_, _, _, _, rfl, hcaches.all (fun _ => rfl) rfl⟩
  | known _ hcaches => exact ⟨_, _, _, _, rfl, hcaches.all (fun _ => rfl) rfl⟩
  | failed hcaches => exact ⟨_, _, _, _, rfl, hcaches.all (fun _ => rfl) rfl⟩
  | fresh _ _ hcaches hsent =>
      obtain ⟨outgoing, nextFreeId, outbox, rfl⟩ := hsent.frame
      exact ⟨outgoing, nextFreeId, outbox, _, rfl, hcaches.all (fun _ => rfl) rfl⟩

/-- Giving an object an id rewrites the table of the cache. -/
theorem ObjectCache.Assigns.rewrites {item : A.Item} {cache : ObjectCache A item} {env : A.Env}
    {conn after : Connection A} {object : A.Object item} {answer : Except ProtocolError Nat}
    (h : cache.Assigns env conn object answer after) :
    ∃ table : CacheTable A item, conn.caches.Rewrites after.caches cache.slot table := by
  cases h with
  | refused hcaches => exact ⟨_, hcaches⟩
  | known _ hcaches => exact ⟨_, hcaches⟩
  | failed hcaches => exact ⟨_, hcaches⟩
  | fresh _ _ hcaches hsent =>
      obtain ⟨outgoing, nextFreeId, outbox, rfl⟩ := hsent.frame
      exact ⟨_, hcaches⟩

/-- **An action changes nothing that was learnt from the peer.** -/
theorem Action.frame (action : Action A) (conn : Connection A) :
    ∃ outgoing nextFreeId outbox caches, action.perform conn
        = { conn with ids := { conn.ids with outgoing, nextFreeId }, outbox, caches } ∧
      ∀ slot kind, (conn.caches.tableAt slot kind).SameIncoming (caches.tableAt slot kind) := by
  cases action with
  | send env endpoint value priority payload =>
      obtain ⟨outgoing, nextFreeId, outbox, hconn⟩ :=
        conn.afterSend_frame env endpoint.index ⟨_, value⟩ none priority payload
      exact ⟨outgoing, nextFreeId, outbox, conn.caches, hconn, fun _ _ => rfl⟩
  | sendLinked env endpoint value link priority payload =>
      obtain ⟨outgoing, nextFreeId, outbox, hconn⟩ :=
        conn.afterSend_frame env endpoint.index ⟨_, value⟩ (some link.choice) priority payload
      exact ⟨outgoing, nextFreeId, outbox, conn.caches, hconn, fun _ _ => rfl⟩
  | signal env endpoint value =>
      obtain ⟨outgoing, nextFreeId, outbox, hconn⟩ :=
        conn.afterSend_frame env endpoint.index ⟨_, value⟩ none .normal .nothing
      exact ⟨outgoing, nextFreeId, outbox, conn.caches, hconn, fun _ _ => rfl⟩
  | assign env cache object => exact (cache.assign_assigns env conn object rfl).frame

/-- An action that gives ids to objects of declared caches only. -/
def Action.Declared (caches : List (AnyCache A)) : Action A → Prop
  | @assign _ item _ cache _ => ⟨item, cache⟩ ∈ caches
  | _ => True

/-- Such an action leaves the slots of the caches to them. -/
theorem Action.Declared.sorted {action : Action A} {caches : List (AnyCache A)}
    (h : action.Declared caches)
    (hslots : ∀ one ∈ caches, ∀ other ∈ caches, one.2.slot = other.2.slot → one = other)
    {conn : Connection A} (hsorted : conn.caches.Sorted caches) :
    (action.perform conn).caches.Sorted caches := by
  have hsend : ∀ {α : Type} (env : A.Env) (endpoint : NodeIndex) (value : Value A)
      (chosen : Option (LinkChoice A)) (priority : Priority) (payload : Payload A α),
      (conn.afterSend (conn.sendValue env endpoint value chosen priority payload)).caches.Sorted
        caches := by
    intro α env endpoint value chosen priority payload
    obtain ⟨_, _, _, hconn⟩ := conn.afterSend_frame env endpoint value chosen priority payload
    rw [hconn]
    exact hsorted
  cases action with
  | send env endpoint value priority payload =>
      exact hsend env endpoint.index ⟨_, value⟩ none priority payload
  | sendLinked env endpoint value link priority payload =>
      exact hsend env endpoint.index ⟨_, value⟩ (some link.choice) priority payload
  | signal env endpoint value => exact hsend env endpoint.index ⟨_, value⟩ none .normal .nothing
  | assign env cache object =>
      obtain ⟨table, hcaches⟩ := (cache.assign_assigns env conn object rfl).rewrites
      exact hsorted.rewrites hslots h hcaches

namespace Connection

/-- A message that puts an object into a cache. -/
structure TakenPut (conn : Connection A) (env : A.Env) (message : Bytes) {item : A.Item}
    (cache : ObjectCache A item) where
  arrival : Arrival conn env message
  ends : arrival.path.path.getLast? = some cache.endpoint.index
  takes : arrival.endpoint.TakesPuts cache.name cache.slot cache.maxEntries cache.codec
  put : ObjectCache.Fitting cache.maxEntries cache.slot cache.codec env
    ⟨arrival.payload, conn.caches, []⟩

variable {conn : Connection A} {caches : List (AnyCache A)} {env : A.Env} {message : Bytes}

/-- An arrival at an endpoint that leaves the caches alone does so. -/
theorem Arrival.keeps_caches (arrival : Arrival conn env message)
    (h : arrival.endpoint.KeepsCaches) : (conn.receive env message).conn.caches = conn.caches := by
  have hdecoder := h env arrival.value arrival.context
  cases hdecoded : arrival.decoded with
  | ok answer state => rw [arrival.receive_ok hdecoded, hdecoder.ok hdecoded]
  | error cause state => rw [arrival.receive_error hdecoded, hdecoder.error hdecoded]

/-- The endpoint of a cache, as a message finds it. -/
theorem Arrival.takes_puts (hstock : conn.tree.Stock caches) (arrival : Arrival conn env message)
    {cache : AnyCache A} (hcache : cache ∈ caches)
    (hends : arrival.path.path.getLast? = some cache.2.endpoint.index) :
    arrival.endpoint.TakesPuts cache.2.name cache.2.slot cache.2.maxEntries cache.2.codec := by
  obtain ⟨index, node, hlast, hnode, hendpoint⟩ := endpointOf_ok arrival.addressed
  obtain ⟨endpoint, ⟨same, _, hsame, hkind, -⟩, -, htakes⟩ := hstock.housed cache hcache
  cases hlast.symm.trans hends
  cases hnode.symm.trans hsame
  rw [hkind] at hendpoint
  cases hendpoint
  exact htakes

/-- What the endpoint of a cache does with a message. -/
theorem Arrival.puts_caches (arrival : Arrival conn env message) {item : A.Item}
    {cache : ObjectCache A item}
    (hends : arrival.path.path.getLast? = some cache.endpoint.index)
    (htakes : arrival.endpoint.TakesPuts cache.name cache.slot cache.maxEntries cache.codec) :
    (conn.receive env message).conn.caches = conn.caches ∨
      ∃ taken : TakenPut conn env message cache,
        (conn.receive env message).conn.caches = taken.put.after.caches := by
  have htaken : arrival.decoded = ObjectCache.takePut cache.name cache.slot cache.maxEntries
      cache.codec env ⟨arrival.payload, conn.caches, []⟩ := by
    unfold decoded
    rw [htakes]
  rcases ObjectCache.takePut_cases cache.name cache.slot cache.maxEntries cache.codec env
      ⟨arrival.payload, conn.caches, []⟩ with ⟨⟨put⟩⟩ | ⟨cause, state, herror, hcaches⟩
  · refine .inr ⟨⟨arrival, hends, htakes, put⟩, ?_⟩
    rw [arrival.receive_ok (htaken.trans (ObjectCache.takePut_fitting cache.name put))]
  · rw [arrival.receive_error (htaken.trans herror), hcaches]
    exact .inl rfl

/-- **A message leaves the caches as they are, or it puts an object into one of them.** -/
theorem receive_caches (hstock : conn.tree.Stock caches) (env : A.Env) (message : Bytes) :
    (conn.receive env message).conn.caches = conn.caches ∨
      ∃ cache ∈ caches, ∃ taken : TakenPut conn env message cache.2,
        (conn.receive env message).conn.caches = taken.put.after.caches := by
  rcases conn.receive_cases env message with ⟨⟨arrival⟩⟩ | hsame | ⟨_, incoming, -, -, hconn⟩
  · obtain ⟨index, node, hlast, hnode, hendpoint⟩ := endpointOf_ok arrival.addressed
    rcases hstock.kept hnode hendpoint with hkeeps | ⟨cache, hcache, hindex⟩
    · exact .inl (arrival.keeps_caches hkeeps)
    · have hends : arrival.path.path.getLast? = some cache.2.endpoint.index := by
        rw [hlast, hindex]
      refine (arrival.puts_caches hends (arrival.takes_puts hstock hcache hends)).imp_right ?_
      exact fun htaken => ⟨cache, hcache, htaken⟩
  · exact .inl (congrArg Connection.caches hsame)
  · exact .inl (by rw [hconn])

end Connection

end PathWire

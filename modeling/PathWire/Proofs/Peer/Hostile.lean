/-
What no peer can do.

A peer may send whatever bytes it likes, in any order and at any time.  It can bind an id that is
in range to a path of the tree that leads to an endpoint, and it can fill a free entry of a cache;
that is all.  Nothing that it has bound or filled is ever taken back, and nothing that this side
sends depends on it.
-/
import PathWire.Proofs.Cache.Tables

namespace PathWire

variable {A : Application}

/-! ### Ids that are bound -/

namespace IdTables

variable {ids : IdTables} {id : Nat}

/-- An announced id is bound already, or it is in range and free and is bound now. -/
theorem register_cases {resolved registered : ResolvedPath} {after : IdTables}
    (h : ids.register id resolved = .ok (registered, after)) :
    after = ids ∨ firstAllocatedId ≤ id ∧ id ≤ ids.maxId ∧ ids.bound? id = none ∧
      after = ids.bind id resolved := by
  unfold register at h
  obtain ⟨⟨⟩, hcheck, h⟩ := Result.of_bind_ok h
  cases hbound : ids.bound? id with
  | some existing =>
      simp only [hbound] at h
      by_cases hsame : existing.path = resolved.path
      · rw [if_pos hsame] at h
        cases h
        exact .inl rfl
      · rw [if_neg hsame] at h
        cases h
  | none =>
      simp only [hbound] at h
      cases h
      unfold checkId at hcheck
      by_cases hreserved : id < firstAllocatedId
      · simp only [if_pos hreserved] at hcheck
        cases hcheck
      · by_cases hrange : ids.maxId < id
        · simp only [if_neg hreserved, if_pos hrange] at hcheck
          cases hcheck
        · exact .inr ⟨Nat.le_of_not_lt hreserved, Nat.le_of_not_lt hrange, rfl, rfl⟩

theorem size_bind (ids : IdTables) (id : Nat) (path : ResolvedPath) :
    (ids.bind id path).incoming.size = max ids.incoming.size (id + 1) := by
  simp only [bind, Array.size_setIfInBounds, Array.size_append, Array.size_replicate]
  omega

end IdTables

namespace Connection

/-- An announce changes nothing, or it binds a free id to a path of the tree. -/
theorem receive_binds (conn : Connection A) (env : A.Env) {message : Bytes}
    (h : messageTag? message = some announceTag) :
    (conn.receive env message).conn = conn ∨ ∃ id names resolved,
      ResolvedPath.ofNames conn.tree names = .ok resolved ∧ firstAllocatedId ≤ id ∧
        id ≤ conn.ids.maxId ∧ conn.ids.bound? id = none ∧
        (conn.receive env message).conn = { conn with ids := conn.ids.bind id resolved } := by
  unfold messageTag? at h
  unfold receive
  cases htag : Reader.u32 (.ofBytes message) with
  | error cause dec => exact .inl rfl
  | ok tag dec =>
      simp only [htag, Option.some.injEq] at h
      simp only [if_pos h]
      unfold receiveAnnounce
      cases readAnnounce conn.tree.revision dec with
      | error cause dec => exact .inl rfl
      | ok announced dec =>
          obtain ⟨id, names⟩ := announced
          simp only
          cases hnames : ResolvedPath.ofNames conn.tree names with
          | error cause => exact .inl rfl
          | ok resolved =>
              simp only
              cases hregister : conn.ids.register id resolved with
              | error cause => exact .inl rfl
              | ok registered =>
                  obtain ⟨found, after⟩ := registered
                  rcases IdTables.register_cases hregister with
                    rfl | ⟨hfirst, hrange, hfree, rfl⟩
                  · exact .inl rfl
                  · exact .inr ⟨id, names, resolved, hnames, hfirst, hrange, hfree, rfl⟩

/-- Any other message changes the caches at most. -/
theorem receive_ordinary (conn : Connection A) (env : A.Env) {message : Bytes}
    (h : messageTag? message ≠ some announceTag) :
    ∃ caches, (conn.receive env message).conn = { conn with caches } := by
  rcases conn.receive_cases env message with ⟨⟨arrival⟩⟩ | hsame | ⟨_, incoming, -, htag, -⟩
  · exact arrival.receive_frame
  · exact ⟨conn.caches, hsame⟩
  · exact absurd htag h

end Connection

/-! ### What happens to a connection -/

/-- Something that happens to a connection. -/
inductive Happening (A : Application) : Type 1
  /-- Any bytes at all come from the peer. -/
  | receive (env : A.Env) (message : Bytes)
  | act (action : Action A)
  | drain

namespace Connection

/-- The connection after something has happened to it. -/
def meet (conn : Connection A) : Happening A → Connection A
  | .receive env message => (conn.receive env message).conn
  | .act action => action.perform conn
  | .drain => conn.drain.2

/-- The connection after all of it has happened. -/
def live (conn : Connection A) (happenings : List (Happening A)) : Connection A :=
  happenings.foldl meet conn

/-- What was learnt from the peer is in order. -/
structure Sane (tree : Tree A) (caches : List (AnyCache A)) (conn : Connection A) : Prop where
  same : conn.tree = tree
  limit : conn.ids.maxId = tree.revision.maxIncomingId.toNat
  /-- The table of the ids does not grow beyond the largest id. -/
  slots : conn.ids.incoming.size ≤ tree.revision.maxIncomingId.toNat + 1
  reserved : ∀ {id : Nat}, id < firstAllocatedId → conn.ids.bound? id = none
  /-- An id is bound to a path of the tree that is not too deep and leads to an endpoint, together
  with what is derived from the path. -/
  paths : ∀ {id : Nat} {resolved : ResolvedPath}, conn.ids.bound? id = some resolved →
    tree.Passable resolved.path ∧ ResolvedPath.ofNodes tree resolved.path = .ok resolved
  /-- A cache holds no object under an id beyond its capacity. -/
  objects : ∀ cache ∈ caches, ∀ {id : Nat} {object : A.Object cache.1},
    cache.2.resolve conn.caches id = .ok object → id < cache.2.maxEntries.toNat

/-- What was learnt from the peer before is known afterwards. -/
structure Remembers (caches : List (AnyCache A)) (before after : Connection A) : Prop where
  paths : ∀ {id : Nat} {resolved : ResolvedPath}, before.ids.bound? id = some resolved →
    after.ids.bound? id = some resolved
  objects : ∀ cache ∈ caches, ∀ {id : Nat} {object : A.Object cache.1},
    cache.2.resolve before.caches id = .ok object → cache.2.resolve after.caches id = .ok object

/-- What this side sends is the same before and afterwards. -/
structure Unmoved (before after : Connection A) : Prop where
  outgoing : after.ids.outgoing = before.ids.outgoing
  nextFreeId : after.ids.nextFreeId = before.ids.nextFreeId
  outbox : after.outbox = before.outbox
  tables : ∀ slot item,
    (before.caches.tableAt slot item).SameOutgoing (after.caches.tableAt slot item)

theorem Remembers.refl (caches : List (AnyCache A)) (conn : Connection A) :
    Remembers caches conn conn := ⟨fun h => h, fun _ _ _ _ h => h⟩

theorem Remembers.trans {caches : List (AnyCache A)} {before between after : Connection A}
    (h : Remembers caches before between) (hrest : Remembers caches between after) :
    Remembers caches before after where
  paths hbound := hrest.paths (h.paths hbound)
  objects cache hcache _ _ hobject := hrest.objects cache hcache (h.objects cache hcache hobject)

variable {tree : Tree A} {caches : List (AnyCache A)} {conn after : Connection A}

theorem sane_new (tree : Tree A) (caches : List (AnyCache A)) (label : String)
    (attachment : Option (Value A)) : (new tree label attachment).Sane tree caches where
  same := rfl
  limit := rfl
  slots := Nat.zero_le _
  reserved _ := rfl
  paths h := by cases h
  objects cache _ id object h := by
    rw [ObjectCache.resolve_ok] at h
    cases h

/-! ### An id is bound -/

section Bind

variable {id : Nat} {names : List String} {resolved : ResolvedPath}

/-- Binding a free id in range keeps everything in order. -/
theorem Sane.bind (h : conn.Sane tree caches) (hroot : tree.isEndpoint .root = false)
    (hnames : ResolvedPath.ofNames tree names = .ok resolved) (hfirst : firstAllocatedId ≤ id)
    (hrange : id ≤ conn.ids.maxId) :
    ({ conn with ids := conn.ids.bind id resolved } : Connection A).Sane tree caches where
  same := h.same
  limit := h.limit
  slots := by
    have hslots := h.slots
    rw [h.limit] at hrange
    rw [IdTables.size_bind]
    omega
  reserved := by
    intro other hother
    have hne : other ≠ id := by omega
    rw [IdTables.bound?_bind, if_neg hne]
    exact h.reserved hother
  paths hfound :=
    IdTables.forall_bound_bind h.paths (ResolvedPath.ofNames_ok hroot hnames).1 id hfound
  objects := h.objects

/-- Binding a free id unbinds no other. -/
theorem remembers_bind (caches : List (AnyCache A)) (hfree : conn.ids.bound? id = none) :
    Remembers caches conn { conn with ids := conn.ids.bind id resolved } where
  paths := by
    intro other found hfound
    have hne : other ≠ id := by
      rintro rfl
      rw [hfree] at hfound
      cases hfound
    rw [IdTables.bound?_bind, if_neg hne]
    exact hfound
  objects _ _ _ _ h := h

end Bind

/-! ### An object is put -/

variable {env : A.Env} {message : Bytes}

/-- A put leaves everything in order: its id is in range. -/
theorem Sane.put (h : conn.Sane tree caches) (hstock : tree.Stock caches) {one : AnyCache A}
    (hone : one ∈ caches) (taken : TakenPut conn env message one.2) :
    ({ conn with caches := taken.put.after.caches } : Connection A).Sane tree caches where
  same := h.same
  limit := h.limit
  slots := h.slots
  reserved := h.reserved
  paths := h.paths
  objects := by
    intro cache hcache id object hobject
    obtain ⟨-, hrewrites⟩ := taken.put.rewrites
    rw [ObjectCache.resolve_ok] at hobject
    by_cases hsame : cache = one
    · subst hsame
      unfold ObjectCache.table at hobject
      rw [hrewrites.self] at hobject
      rcases CacheTable.object?_learn_cases hobject with hold | ⟨rfl, -⟩
      · exact h.objects cache hcache (ObjectCache.resolve_ok.mpr hold)
      · exact taken.put.inRange
    · have hslot : cache.2.slot ≠ one.2.slot :=
        fun hslot => hsame (hstock.slots cache hcache one hone hslot)
      unfold ObjectCache.table at hobject
      rw [hrewrites.others _ _ fun heq => absurd heq hslot] at hobject
      exact h.objects cache hcache (ObjectCache.resolve_ok.mpr hobject)

/-- A put takes no object away. -/
theorem remembers_put (hstock : tree.Stock caches) {one : AnyCache A} (hone : one ∈ caches)
    (taken : TakenPut conn env message one.2) :
    Remembers caches conn { conn with caches := taken.put.after.caches } where
  paths h := h
  objects := by
    intro cache hcache id object hobject
    obtain ⟨-, hrewrites⟩ := taken.put.rewrites
    rw [ObjectCache.resolve_ok] at hobject ⊢
    unfold ObjectCache.table at hobject ⊢
    by_cases hsame : cache = one
    · subst hsame
      rw [hrewrites.self]
      exact CacheTable.object?_learn_of_old hobject
    · have hslot : cache.2.slot ≠ one.2.slot :=
        fun hslot => hsame (hstock.slots cache hcache one hone hslot)
      rw [hrewrites.others _ _ fun heq => absurd heq hslot]
      exact hobject

/-! ### Whatever happens -/

/-- What receiving a message comes to: nothing is changed, or a free id is bound, or an object is
put into a cache. -/
inductive Learns (caches : List (AnyCache A)) (conn : Connection A) (env : A.Env)
    (message : Bytes) : Connection A → Prop
  | nothing : Learns caches conn env message conn
  | path {id : Nat} {names : List String} {resolved : ResolvedPath}
      (hnames : ResolvedPath.ofNames conn.tree names = .ok resolved)
      (hfirst : firstAllocatedId ≤ id) (hrange : id ≤ conn.ids.maxId)
      (hfree : conn.ids.bound? id = none) :
      Learns caches conn env message { conn with ids := conn.ids.bind id resolved }
  | object {cache : AnyCache A} (hcache : cache ∈ caches)
      (taken : TakenPut conn env message cache.2) :
      Learns caches conn env message { conn with caches := taken.put.after.caches }

theorem receive_learns (hstock : conn.tree.Stock caches) (env : A.Env) (message : Bytes) :
    Learns caches conn env message (conn.receive env message).conn := by
  by_cases hannounce : messageTag? message = some announceTag
  · rcases conn.receive_binds env hannounce with
      hsame | ⟨id, names, resolved, hnames, hfirst, hrange, hfree, hconn⟩
    · rw [hsame]
      exact .nothing
    · rw [hconn]
      exact .path hnames hfirst hrange hfree
  · obtain ⟨stored, hconn⟩ := conn.receive_ordinary env hannounce
    rcases receive_caches hstock env message with hsame | ⟨cache, hcache, taken, hput⟩
    · rw [hconn] at hsame
      rw [hconn, show stored = conn.caches from hsame]
      exact .nothing
    · rw [hconn] at hput
      rw [hconn, show stored = taken.put.after.caches from hput]
      exact .object hcache taken

/-- Receiving does not change what this side sends. -/
theorem Learns.unmoved (h : Learns caches conn env message after) : conn.Unmoved after := by
  cases h with
  | nothing => exact ⟨rfl, rfl, rfl, fun _ _ => ⟨rfl, rfl⟩⟩
  | path => exact ⟨rfl, rfl, rfl, fun _ _ => ⟨rfl, rfl⟩⟩
  | object _ taken =>
      obtain ⟨-, hrewrites⟩ := taken.put.rewrites
      exact ⟨rfl, rfl, rfl, hrewrites.all (fun _ => ⟨rfl, rfl⟩) ⟨rfl, rfl⟩⟩

theorem Learns.sane (h : Learns caches conn env message after) (hsane : conn.Sane tree caches)
    (hstock : tree.Stock caches) (hroot : tree.isEndpoint .root = false) :
    after.Sane tree caches := by
  cases h with
  | nothing => exact hsane
  | path hnames hfirst hrange _ =>
      rw [hsane.same] at hnames
      exact hsane.bind hroot hnames hfirst hrange
  | object hcache taken => exact hsane.put hstock hcache taken

theorem Learns.remembers (h : Learns caches conn env message after) (hstock : tree.Stock caches) :
    Remembers caches conn after := by
  cases h with
  | nothing => exact .refl caches conn
  | path _ _ _ hfree => exact remembers_bind caches hfree
  | object hcache taken => exact remembers_put hstock hcache taken

/-- What is found in a cache depends on what the peer has assigned only. -/
theorem resolve_same {cache : AnyCache A} {stored : CacheStore A}
    (h : (conn.caches.tableAt cache.2.slot cache.1).SameIncoming
      (stored.tableAt cache.2.slot cache.1)) {id : Nat} {object : A.Object cache.1} :
    cache.2.resolve stored id = .ok object ↔ cache.2.resolve conn.caches id = .ok object := by
  have hincoming : (stored.tableAt cache.2.slot cache.1).incoming
      = (conn.caches.tableAt cache.2.slot cache.1).incoming := h
  rw [ObjectCache.resolve_ok, ObjectCache.resolve_ok]
  unfold ObjectCache.table CacheTable.object?
  rw [hincoming]

/-- An action leaves what was learnt in order. -/
theorem Sane.act (h : conn.Sane tree caches) (action : Action A) :
    (action.perform conn).Sane tree caches := by
  obtain ⟨outgoing, nextFreeId, outbox, stored, hconn, hstored⟩ := action.frame conn
  rw [hconn]
  exact ⟨h.same, h.limit, h.slots, h.reserved, h.paths, fun cache hcache _ _ hobject =>
    h.objects cache hcache ((resolve_same (hstored _ _)).mp hobject)⟩

theorem remembers_act (caches : List (AnyCache A)) (conn : Connection A) (action : Action A) :
    Remembers caches conn (action.perform conn) := by
  obtain ⟨outgoing, nextFreeId, outbox, stored, hconn, hstored⟩ := action.frame conn
  rw [hconn]
  exact ⟨fun h => h, fun cache _ _ _ hobject => (resolve_same (hstored _ _)).mpr hobject⟩

/-- **One thing that happens** leaves in order what was learnt, and takes nothing of it away. -/
theorem Sane.meet (h : conn.Sane tree caches) (hstock : tree.Stock caches)
    (hroot : tree.isEndpoint .root = false) (happening : Happening A) :
    (conn.meet happening).Sane tree caches ∧ Remembers caches conn (conn.meet happening) := by
  cases happening with
  | receive env message =>
      have hlearns := receive_learns (h.same.symm ▸ hstock) env message
      exact ⟨hlearns.sane h hstock hroot, hlearns.remembers hstock⟩
  | act action => exact ⟨h.act action, remembers_act caches conn action⟩
  | drain => exact ⟨⟨h.same, h.limit, h.slots, h.reserved, h.paths, h.objects⟩,
      fun hbound => hbound, fun _ _ _ _ hobject => hobject⟩

/-- All that happens. -/
theorem Sane.live (hstock : tree.Stock caches) (hroot : tree.isEndpoint .root = false)
    (happenings : List (Happening A)) : ∀ {conn : Connection A}, conn.Sane tree caches →
      (conn.live happenings).Sane tree caches ∧ Remembers caches conn (conn.live happenings) := by
  induction happenings with
  | nil => exact fun {conn} h => ⟨h, .refl caches conn⟩
  | cons happening rest ih =>
      intro conn h
      obtain ⟨hnext, hstep⟩ := h.meet hstock hroot happening
      obtain ⟨hlast, hrest⟩ := ih hnext
      exact ⟨hlast, hstep.trans hrest⟩

/-- What is promised of a connection, whatever it has received and whatever it will receive. -/
structure Withstands (tree : Tree A) (caches : List (AnyCache A)) (conn : Connection A) :
    Prop where
  sane : conn.Sane tree caches
  remembers : ∀ later, Remembers caches conn (conn.live later)
  unmoved : ∀ env message, conn.Unmoved (conn.receive env message).conn

/-- **A connection withstands its peer**, if the program's handlers leave the caches to the
library. -/
theorem withstands_live {revision : Revision} {builder : TreeBuilder A}
    {handles : List (Handle A)} {caches : List (AnyCache A)}
    (hstocked : Stocked revision (fun _ call => call.KeepsCaches) builder handles caches)
    (label : String) (attachment : Option (Value A)) (happenings : List (Happening A)) :
    Withstands builder.build caches ((new builder.build label attachment).live happenings) := by
  have hstock := hstocked.tree
  have hroot : builder.build.isEndpoint .root = false := by
    obtain ⟨node, hnode, hkind⟩ := hstock.root
    simp [Tree.isEndpoint, hnode, hkind, NodeKind.endpoint?]
  obtain ⟨hsane, -⟩ := Sane.live hstock hroot happenings (sane_new _ caches label attachment)
  refine ⟨hsane, fun later => (Sane.live hstock hroot later hsane).2, fun env message => ?_⟩
  exact (receive_learns (hsane.same.symm ▸ hstock) env message).unmoved

/-! The tree with one cache of numbers, and a peer that sends all kinds of things. -/

/-- The cache of the tree. -/
def numberStock : List (AnyCache Scenario.app) := numberCache.declares (.new .zero)

theorem numberBuilder_stocked : Stocked .zero (fun _ call => call.KeepsCaches) numberBuilder
    [.parent .unit .root, .endpoint .unit ⟨2⟩] numberStock := by
  have hcall : numberCache.run (.new .zero) = .ok [.endpoint .unit ⟨2⟩] numberBuilder := rfl
  exact .answered numberCache .new trivial hcall

/-- The path `cache.c` is announced with id 3 and again with id 1, numbers are put under id 0,
and a message is cut short. -/
def intrusions : List (Happening Scenario.app) :=
  [.receive {} ([0, 0, 0, 0, 3, 2, 5] ++ Bytes.ofString "cache" ++ [1] ++ Bytes.ofString "c"),
    .receive {} ([0, 0, 0, 0, 1, 2, 5] ++ Bytes.ofString "cache" ++ [1] ++ Bytes.ofString "c"),
    .receive {} [0, 0, 0, 3, 0, 7], .receive {} [0, 0, 0, 3, 0, 8], .receive {} [0, 0], .drain]

/-- The peer has bound one id and filled one entry. -/
theorem intrusions_withstood :
    Withstands numberBuilder.build numberStock
        ((new numberBuilder.build "b" none).live intrusions) ∧
      ((new numberBuilder.build "b" none).live intrusions).ids.incomingSize = 1 ∧
      ∀ cache ∈ numberStock, cache.2.incomingSize
        ((new numberBuilder.build "b" none).live intrusions).caches = 1 := by
  refine ⟨withstands_live numberBuilder_stocked "b" none intrusions, by decide +kernel, ?_⟩
  decide +kernel

end Connection

end PathWire

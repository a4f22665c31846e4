/-
A put arrives as it was queued.

The endpoint of a cache hangs below a group below the root, so a put carries no keys: behind its
tag come the id and the object, and then it ends.  The peer that knows the path therefore stores
the object under the id, if the id is in range and still free.
-/
import PathWire.Proofs.Cache.Tables
import PathWire.Proofs.Peer.Channel
import PathWire.Proofs.Peer.Faithful

namespace PathWire

variable {A : Application}

/-! ### The way to the endpoint of a cache -/

namespace Route.Climbs

variable {tree : Tree A} {env : A.Env} {chosen : Option (LinkChoice A)} {index : NodeIndex}
  {value : Value A} {below route : Route A} {node : Node A}

/-- A climb goes on above a node that carries nothing. -/
theorem above_plain (h : Climbs tree env chosen index value below route)
    (hnode : tree.node? index = some node) (hcarrier : node.kind.carrier? = none)
    (hroot : node.kind ≠ .root) (hdynamic : node.kind.isDynamic = false) :
    ∃ above, node.parent = some above ∧
      Climbs tree env chosen above value (below.addNode index) route := by
  cases h with
  | root hsame hkind =>
      cases hnode.symm.trans hsame
      exact absurd hkind hroot
  | dynamic hsame hkind =>
      cases hnode.symm.trans hsame
      rw [hkind] at hdynamic
      cases hdynamic
  | carrier hsame hfound =>
      cases hnode.symm.trans hsame
      rw [hcarrier] at hfound
      cases hfound
  | plain hsame _ _ _ habove hrest =>
      cases hnode.symm.trans hsame
      exact ⟨_, habove, hrest⟩

/-- A climb ends at the root. -/
theorem at_root (h : Climbs tree env chosen index value below route)
    (hnode : tree.node? index = some node) (hroot : node.kind = .root) : route = below := by
  cases h with
  | root => rfl
  | dynamic hsame hkind =>
      cases hnode.symm.trans hsame
      rw [hroot] at hkind
      cases hkind
  | carrier hsame hfound =>
      cases hnode.symm.trans hsame
      rw [hroot] at hfound
      cases hfound
  | plain hsame _ hother =>
      cases hnode.symm.trans hsame
      exact absurd hroot hother

end Route.Climbs

/-- No carrier is on the way to the endpoint of a cache. -/
theorem Tree.StockOf.route_keys {Q : Callback A Unit → Prop} {tree : Tree A}
    {caches : List (AnyCache A)} (hstock : tree.StockOf Q caches) {cache : AnyCache A}
    (hcache : cache ∈ caches) {env : A.Env} {value : Value A} {chosen : Option (LinkChoice A)}
    {route : Route A} (h : Route.resolve tree env cache.2.endpoint.index value chosen = .ok route) :
    route.keys = [] := by
  obtain ⟨endpoint, ⟨node, group, hnode, hkind, hparent, hgroup⟩, -, -⟩ :=
    hstock.housed cache hcache
  obtain ⟨upper, hupper, hgroups, htop⟩ := hgroup
  obtain ⟨root, hroot, hrootKind⟩ := hstock.root
  obtain ⟨hclimbs, -⟩ := Route.climb_ok _ h
  obtain ⟨above, habove, hclimbs⟩ := hclimbs.above_plain hnode (by rw [hkind]; rfl)
    (by rw [hkind]; exact nofun) (by rw [hkind]; rfl)
  cases hparent.symm.trans habove
  obtain ⟨above, habove, hclimbs⟩ := hclimbs.above_plain hupper (by rw [hgroups]; rfl)
    (by rw [hgroups]; exact nofun) (by rw [hgroups]; rfl)
  cases htop.symm.trans habove
  rw [hclimbs.at_root hroot hrootKind]
  rfl

/-! ### The message -/

/-- What one side writes of an object, the other takes back. -/
def ObjectCodec.ReadsBack {item : A.Item} (codec : ObjectCodec A item) : Prop :=
  ∀ env peerEnv object enc after, codec.write env object enc = .ok after →
    TakesBack (codec.read peerEnv) object enc after

theorem ObjectCodec.ReadsBack.writesOn {item : A.Item} {codec : ObjectCodec A item}
    (h : codec.ReadsBack) : codec.WritesOn := by
  intro env object enc after hwrite
  obtain ⟨fields, -, -, rfl, -, -⟩ := h env env object enc after hwrite
  exact ⟨fields, rfl⟩

/-- A queued message that puts an object into a cache. -/
structure Posted.Puts (posted : Posted) {item : A.Item} (cache : ObjectCache A item)
    (object : A.Object item) (id : Nat) : Prop where
  ordinary : ¬ posted.IsAnnounce
  ends : posted.path.getLast? = some cache.endpoint.index
  keys : posted.keys = []
  /-- Behind the tag stand the id and the object, and nothing else. -/
  reads : ∀ env, ∃ tag behindTag behindId behindObject,
    Reader.u32 (.ofBytes posted.bytes) = .ok tag behindTag ∧
    Reader.varU32 behindTag = .ok (UInt32.ofNat id) behindId ∧
    cache.codec.read env behindId = .ok object behindObject ∧ behindObject.remaining = 0

/-- A message puts one object under one id. -/
theorem Posted.Puts.unique {posted : Posted} {item : A.Item} {cache : ObjectCache A item}
    {object other : A.Object item} {id another : Nat} (h : posted.Puts cache object id)
    (hother : posted.Puts cache other another) (env : A.Env) :
    UInt32.ofNat id = UInt32.ofNat another ∧ object = other := by
  obtain ⟨tag, behindTag, behindId, behindObject, htag, hid, hobject, -⟩ := h.reads env
  obtain ⟨_, _, _, _, htag', hid', hobject', -⟩ := hother.reads env
  cases htag.symm.trans htag'
  obtain ⟨hsame, rfl⟩ := EStateM.Result.ok.inj (hid.symm.trans hid')
  cases hobject.symm.trans hobject'
  exact ⟨hsame, rfl⟩

namespace Connection

variable {conn after : Connection A} {env : A.Env} {caches : List (AnyCache A)}

/-- **The message of a put that was queued puts the object under the id.** -/
theorem Departure.puts {cache : AnyCache A} {object : A.Object cache.1} {id : Nat}
    (sent : Departure conn env cache.2.endpoint.index .unit none .normal
      (cache.2.put env id object) () after)
    (hstock : conn.tree.Stock caches) (hcache : cache ∈ caches) (htree : conn.tree.WritesOn)
    (hcodec : cache.2.codec.ReadsBack) (hnumbered : conn.ids.Numbered)
    (hfield : conn.ids.maxId < 2 ^ 32) :
    (⟨sent.written.bytes, sent.route.nodes, sent.route.keys⟩ : Posted).Puts cache.2 object id := by
  have hkeys := hstock.route_keys hcache sent.resolved
  constructor
  case keys => exact hkeys
  case ends =>
    obtain ⟨hclimbs, -⟩ := Route.climb_ok _ sent.resolved
    exact hclimbs.getLast? sent.addressed
  case ordinary =>
    have htag := sent.tag htree (ObjectCache.put_writesOn hcodec.writesOn env id object)
    obtain ⟨hfirst, hmax⟩ := sent.id_range hnumbered
    have hsize : (UInt32.ofNat sent.id).toNat = sent.id :=
      UInt32.toNat_ofNat_of_lt' (Nat.lt_of_le_of_lt hmax hfield)
    have hreserved : announceTag < firstAllocatedId := by decide
    intro hannounce
    have hsame := Option.some.inj (htag.symm.trans hannounce)
    omega
  case reads =>
    intro peerEnv
    have hcarried := sent.carried
    rw [hkeys, List.zip_nil_left] at hcarried
    have hkeyed : Encoder.empty.writeU32 (UInt32.ofNat sent.id) = sent.keyed :=
      Except.ok.inj hcarried
    obtain ⟨written, hwrite, hfilled⟩ := Result.of_bind_ok sent.filled
    have hwritten : written = sent.written := congrArg Prod.snd (Except.ok.inj hfilled)
    subst hwritten
    have hobject := (hcodec env peerEnv object _ _ hwrite).mirrors
    rw [← hkeyed] at hobject
    -- the encoders in order, and then the decoders from the last one back
    obtain ⟨hshortTag, hbeforeTag⟩ :=
      mirrors_u32 .empty (UInt32.ofNat sent.id) Encoder.short_empty
    obtain ⟨hshortId, hbeforeId⟩ := mirrors_varU32 _ (UInt32.ofNat id) hshortTag
    obtain ⟨hshort, hbeforeObject⟩ := hobject hshortId
    obtain ⟨rolling, hend⟩ := Encoder.ahead_bytes hshort
    obtain ⟨_, _, hplace, hstepObject⟩ := hbeforeObject hend
    obtain ⟨_, _, hplace, hstepId⟩ := hbeforeId hplace
    obtain ⟨_, _, hplace, hstepTag⟩ := hbeforeTag hplace
    obtain ⟨rfl, rfl⟩ := Encoder.ahead_empty hplace
    exact ⟨_, _, _, _, hstepTag, Step.adapt_ok.mp hstepId, hstepObject, rfl⟩

/-! ### Its arrival -/

variable {cache : AnyCache A} {posted : Posted} {object : A.Object cache.1} {id tag : Nat}

/-- A put arrives at a peer that knows its path. -/
theorem put_arrives (hstock : conn.tree.Stock caches) (hcache : cache ∈ caches)
    (hputs : posted.Puts cache.2 object id) (htag : messageTag? posted.bytes = some tag)
    (hbound : conn.ids.lookup tag = .ok (posted.resolved conn.tree)) (env : A.Env) :
    ∃ (arrival : Arrival conn env posted.bytes) (behindId behindObject : Decoder),
      arrival.tag.toNat = tag ∧ arrival.path = posted.resolved conn.tree ∧
      Reader.varU32 arrival.payload = .ok (UInt32.ofNat id) behindId ∧
      cache.2.codec.read env behindId = .ok object behindObject ∧ behindObject.remaining = 0 := by
  obtain ⟨number, behindTag, behindId, behindObject, hnumber, hreadId, hreadObject, hleft⟩ :=
    hputs.reads env
  obtain ⟨endpoint, ⟨node, group, hnode, hkind, -, -⟩, htype, -⟩ := hstock.housed cache hcache
  have hsame : number.toNat = tag := by
    unfold messageTag? at htag
    rw [hnumber] at htag
    exact Option.some.inj htag
  have hordinary : number.toNat ≠ announceTag := by
    intro hannounce
    refine hputs.ordinary ?_
    unfold Posted.IsAnnounce messageTag?
    rw [hnumber]
    exact congrArg some hannounce
  have haddressed : endpointOf conn.tree number.toNat (posted.resolved conn.tree)
      = .ok endpoint := by
    have hends : (posted.resolved conn.tree).path.getLast? = some cache.2.endpoint.index :=
      hputs.ends
    unfold endpointOf
    simp only [hends]
    rw [Result.bind_ok (Tree.node_of_node? hnode)]
    simp only [hkind]
    rfl
  have hcarried : readKeys conn.tree env conn.attachment .unit (posted.resolved conn.tree).keys
      behindTag = .ok ⟨[], .unit, []⟩ behindTag := by
    have hkeys : (posted.resolved conn.tree).keys = [] := hputs.keys
    rw [hkeys]
    rfl
  obtain ⟨value, hvalue⟩ : ∃ value, (Value.unit : Value A).as endpoint.type = .ok value := by
    obtain ⟨type, decode, onMissing⟩ := endpoint
    have htype : type = .unit := htype
    subst htype
    exact ⟨(), rfl⟩
  exact ⟨⟨number, behindTag, posted.resolved conn.tree, endpoint, ⟨[], .unit, []⟩, behindTag, value,
    hnumber, hordinary, hsame ▸ hbound, haddressed, hcarried, rfl, hvalue⟩, behindId, behindObject,
    hsame, rfl, hreadId, hreadObject, hleft⟩

/-- **A put that comes to a peer that knows its path is taken**, if its id is in range and free:
the peer stores the object and leaves the rest as it was. -/
theorem receive_put (hstock : conn.tree.Stock caches) (hcache : cache ∈ caches)
    (hopens : conn.caches.Opens cache.2.slot cache.1) (hputs : posted.Puts cache.2 object id)
    (htag : messageTag? posted.bytes = some tag)
    (hbound : conn.ids.lookup tag = .ok (posted.resolved conn.tree))
    (hid : id < cache.2.maxEntries.toNat)
    (hfree : (cache.2.table conn.caches).object? id = none) (env : A.Env) :
    ∃ stored, conn.receive env posted.bytes
        = ⟨.ok (.dispatched tag (conn.tree.dotted posted.path)),
          { conn with caches := stored }, []⟩ ∧
      conn.caches.Rewrites stored cache.2.slot ((cache.2.table conn.caches).learn id object) := by
  obtain ⟨arrival, behindId, behindObject, hsame, hpath, hreadId, hreadObject, hleft⟩ :=
    put_arrives hstock hcache hputs htag hbound env
  have hends : arrival.path.path.getLast? = some cache.2.endpoint.index := hpath ▸ hputs.ends
  have htakes := arrival.takes_puts hstock hcache hends
  have hsize : (UInt32.ofNat id).toNat = id :=
    UInt32.toNat_ofNat_of_lt' (Nat.lt_trans hid cache.2.maxEntries.toNat_lt)
  obtain ⟨opened, hopen⟩ := hopens.open?_ok
  obtain ⟨put, hnumber, hobject, hbehind⟩ : ∃ put : ObjectCache.Fitting cache.2.maxEntries
      cache.2.slot cache.2.codec env ⟨arrival.payload, conn.caches, []⟩,
      put.id.toNat = id ∧ put.object = object ∧ put.behindObject = behindObject :=
    ⟨⟨UInt32.ofNat id, object, behindId, behindObject, _, opened, hreadId, hsize.symm ▸ hid,
      hreadObject, hopen, hsize.symm ▸ hfree⟩, hsize, rfl, rfl⟩
  have hdecoded : arrival.decoded = .ok () put.after := by
    unfold Arrival.decoded
    rw [htakes]
    exact ObjectCache.takePut_fitting cache.2.name put
  have hend : put.after.decoder.remaining = 0 := by
    rw [← hleft, ← hbehind]
    rfl
  obtain ⟨-, hrewrites⟩ := put.rewrites
  refine ⟨put.after.caches, ?_, ?_⟩
  · rw [arrival.receive_ok hdecoded, if_pos hend, hsame, hpath]
    rfl
  · rw [hnumber, hobject] at hrewrites
    exact hrewrites

end Connection

end PathWire

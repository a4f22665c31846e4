/-
The caches of a built tree.

A declared cache has a slot that no other cache has, and an endpoint of its own that takes its
puts.  The endpoint hangs in the group of the caches, right below the root, so nothing but the
message itself is needed to take a put.  All other endpoints are the program's.  Only the two
calls that declare a cache count the caches, so the slots never meet.
-/
import PathWire.Proofs.Peer.Refusal
import PathWire.Proofs.Tree.Typed

namespace PathWire

variable {A : Application}

/-! ### Declared caches -/

/-- A cache of whatever objects. -/
abbrev AnyCache (A : Application) := (item : A.Item) × ObjectCache A item

namespace BuilderCall

/-- The cache that a declaration gives out, unless it is refused. -/
def given {item : A.Item} :
    EStateM.Result ProtocolError (TreeBuilder A) (ObjectCache A item) → List (AnyCache A)
  | .ok declared _ => [⟨item, declared⟩]
  | .error _ _ => []

/-- The caches that a call gives out. -/
def declares (builder : TreeBuilder A) : BuilderCall A → List (AnyCache A)
  | cache name codec => given (Building.cache name codec builder)
  | cacheWithCapacity name codec maxEntries =>
    given (Building.cacheWithCapacity name codec maxEntries builder)
  | _ => []

end BuilderCall

/-- A builder on which calls were made that `allowed` admits, the handles that were given out,
and the caches that were. -/
inductive Stocked (revision : Revision) (allowed : List (Handle A) → BuilderCall A → Prop) :
    TreeBuilder A → List (Handle A) → List (AnyCache A) → Prop
  | new : Stocked revision allowed (.new revision) [.parent .unit .root] []
  | answered {builder after : TreeBuilder A} {handles issued : List (Handle A)}
      {caches : List (AnyCache A)} (call : BuilderCall A)
      (hbuilder : Stocked revision allowed builder handles caches)
      (hallowed : allowed handles call) (hcall : call.run builder = .ok issued after) :
      Stocked revision allowed after (handles ++ issued) (caches ++ call.declares builder)
  | refused {builder after : TreeBuilder A} {handles : List (Handle A)}
      {caches : List (AnyCache A)} {cause : ProtocolError} (call : BuilderCall A)
      (hbuilder : Stocked revision allowed builder handles caches)
      (hallowed : allowed handles call) (hcall : call.run builder = .error cause after) :
      Stocked revision allowed after handles caches

theorem Stocked.built {revision : Revision} {allowed : List (Handle A) → BuilderCall A → Prop}
    {builder : TreeBuilder A} {handles : List (Handle A)} {caches : List (AnyCache A)}
    (h : Stocked revision allowed builder handles caches) :
    Built revision allowed builder handles := by
  induction h with
  | new => exact .new
  | answered call _ hallowed hcall ih => exact .answered call ih hallowed hcall
  | refused call _ hallowed hcall ih => exact .refused call ih hallowed hcall

/-! ### Where the caches are -/

/-- A group right below the root. -/
def Tree.Groups (tree : Tree A) (group : NodeIndex) : Prop :=
  ∃ node, tree.node? group = some node ∧ node.kind = .group ∧ node.parent = some .root

/-- The endpoint of a cache takes its puts, and hangs in a group right below the root. -/
structure Tree.Houses (tree : Tree A) {item : A.Item} (cache : ObjectCache A item)
    (endpoint : EndpointDef A) : Prop where
  node : ∃ node group, tree.node? cache.endpoint.index = some node ∧
    node.kind = .endpoint endpoint ∧ node.parent = some group ∧ tree.Groups group
  type : endpoint.type = .unit
  takes : endpoint.TakesPuts cache.name cache.slot cache.maxEntries cache.codec

/-- A call whose handlers are all of some kind. -/
def BuilderCall.Does (Q : Callback A Unit → Prop) : BuilderCall A → Prop
  | @endpoint _ _ _ _ decode | @keyedEndpoint _ _ _ _ _ _ decode =>
    ∀ env value ctx, Q (decode env value ctx)
  | @signal _ _ _ _ handle => ∀ env value ctx, Q (handle env value ctx)
  | _ => True

/-- Handlers that leave the caches alone are one kind. -/
theorem BuilderCall.KeepsCaches.does {call : BuilderCall A} (h : call.KeepsCaches) :
    call.Does fun step => step.KeepsCaches := by
  cases call <;> exact h

/-- Any handlers are of the kind that admits all. -/
theorem BuilderCall.does_any (call : BuilderCall A) : call.Does fun _ => True := by
  cases call with
  | endpoint | keyedEndpoint | signal => exact fun _ _ _ => trivial
  | _ => trivial

/-- An endpoint whose decoder is of some kind. -/
def EndpointDef.Does (Q : Callback A Unit → Prop) (endpoint : EndpointDef A) : Prop :=
  ∀ env value ctx, Q (endpoint.decode env value ctx)

/-- What the caches that were declared have to do with a tree whose other endpoints are of some
kind. -/
structure Tree.StockOf (Q : Callback A Unit → Prop) (tree : Tree A)
    (caches : List (AnyCache A)) : Prop where
  root : ∃ node, tree.node? .root = some node ∧ node.kind = .root
  housed : ∀ cache ∈ caches, ∃ endpoint, tree.Houses cache.2 endpoint
  slots : ∀ one ∈ caches, ∀ other ∈ caches, one.2.slot = other.2.slot → one = other
  endpoints : ∀ one ∈ caches, ∀ other ∈ caches,
    one.2.endpoint.index = other.2.endpoint.index → one = other
  /-- Every other endpoint is the program's. -/
  kept : ∀ {index : NodeIndex} {node : Node A} {endpoint : EndpointDef A},
    tree.node? index = some node → node.kind.endpoint? = some endpoint →
    endpoint.Does Q ∨ ∃ cache ∈ caches, cache.2.endpoint.index = index

/-- What the caches that were declared have to do with a tree whose other endpoints leave them
alone. -/
abbrev Tree.Stock (tree : Tree A) (caches : List (AnyCache A)) : Prop :=
  tree.StockOf (fun step => step.KeepsCaches) caches

/-- The same of a tree under construction, with the count of its caches. -/
structure TreeBuilder.Stock (Q : Callback A Unit → Prop) (builder : TreeBuilder A)
    (caches : List (AnyCache A)) : Prop where
  tree : builder.build.StockOf Q caches
  group : ∀ {group : NodeIndex}, builder.cacheGroup = some group → builder.build.Groups group
  counted : ∀ cache ∈ caches, cache.2.slot < builder.cacheSlots

namespace TreeBuilder

variable {builder after : TreeBuilder A} {caches : List (AnyCache A)} {Q : Callback A Unit → Prop}

theorem stock_new (Q : Callback A Unit → Prop) (revision : Revision) :
    (new revision).Stock Q [] where
  tree :=
    { root := ⟨rootNode, rfl, rfl⟩
      housed := by simp
      slots := by simp
      endpoints := by simp
      kept := by
        intro index node endpoint hnode hendpoint
        obtain ⟨-, rfl⟩ := node?_new revision hnode
        cases hendpoint }
  group h := by cases h
  counted := by simp

/-! ### Nodes that stay -/

namespace KindKept

variable {before kind : NodeKind A}

/-- An endpoint goes on to decode as it did. -/
theorem decodes (h : KindKept before kind) {endpoint : EndpointDef A}
    (hendpoint : kind.endpoint? = some endpoint) : ∃ old, before.endpoint? = some old ∧
      endpoint = { old with onMissing := endpoint.onMissing } := by
  rcases h with rfl | ⟨handler, rfl⟩
  · exact ⟨endpoint, hendpoint, rfl⟩
  · cases before with
    | endpoint old | keyedEndpoint carrier old =>
        cases hendpoint
        exact ⟨old, rfl, rfl⟩
    | _ => cases hendpoint

theorem of_endpoint {old : EndpointDef A} (h : KindKept (.endpoint old) kind) :
    ∃ endpoint, kind = .endpoint endpoint ∧
      endpoint = { old with onMissing := endpoint.onMissing } := by
  rcases h with rfl | ⟨handler, rfl⟩
  · exact ⟨old, rfl, rfl⟩
  · exact ⟨_, rfl, rfl⟩

theorem of_root (h : KindKept .root kind) : kind = .root := by
  rcases h with rfl | ⟨handler, rfl⟩ <;> rfl

theorem of_group (h : KindKept .group kind) : kind = .group := by
  rcases h with rfl | ⟨handler, rfl⟩ <;> rfl

end KindKept

/-- A builder that has the nodes of another one where they were. -/
def Retains (after builder : TreeBuilder A) : Prop :=
  ∀ (index : NodeIndex) (old : Node A), builder.node? index = some old →
    ∃ node, after.node? index = some node ∧ node.parent = old.parent ∧ KindKept old.kind node.kind

theorem Retains.groups (h : after.Retains builder) {group : NodeIndex}
    (hgroup : builder.build.Groups group) : after.build.Groups group := by
  obtain ⟨old, hold, hkind, hparent⟩ := hgroup
  obtain ⟨node, hnode, hsame, hkept⟩ := h group old hold
  exact ⟨node, hnode, (hkind ▸ hkept).of_group, hsame.trans hparent⟩

theorem Retains.houses (h : after.Retains builder) {item : A.Item} {cache : ObjectCache A item}
    {old : EndpointDef A} (hhouses : builder.build.Houses cache old) :
    ∃ endpoint, after.build.Houses cache endpoint := by
  obtain ⟨⟨node, group, hnode, hkind, hparent, hgroup⟩, htype, htakes⟩ := hhouses
  obtain ⟨same, hsame, hstays, hkept⟩ := h _ _ hnode
  obtain ⟨endpoint, hendpoint, hdecodes⟩ := (hkind ▸ hkept).of_endpoint
  refine ⟨endpoint, ⟨same, group, hsame, hendpoint, hstays.trans hparent, h.groups hgroup⟩, ?_, ?_⟩
  · rw [hdecodes]
    exact htype
  · rw [hdecodes]
    exact htakes

/-- The stock stays if the nodes and the counts do, and new endpoints are of the right kind. -/
theorem Stock.of_nodes (h : builder.Stock Q caches) (hretains : after.Retains builder)
    (hgroup : after.cacheGroup = builder.cacheGroup)
    (hslots : after.cacheSlots = builder.cacheSlots)
    (hnew : ∀ {index node endpoint}, after.node? index = some node →
      node.kind.endpoint? = some endpoint → endpoint.Does Q ∨
        ∃ old, builder.node? index = some old ∧ KindKept old.kind node.kind) :
    after.Stock Q caches where
  tree :=
    { root := by
        obtain ⟨old, hold, hkind⟩ := h.tree.root
        obtain ⟨node, hnode, -, hkept⟩ := hretains _ _ hold
        exact ⟨node, hnode, (hkind ▸ hkept).of_root⟩
      housed := by
        intro cache hcache
        obtain ⟨old, hold⟩ := h.tree.housed cache hcache
        exact hretains.houses hold
      slots := h.tree.slots
      endpoints := h.tree.endpoints
      kept := by
        intro index node endpoint hnode hendpoint
        rcases hnew hnode hendpoint with hkeeps | ⟨old, hold, hkept⟩
        · exact .inl hkeeps
        · obtain ⟨before, hbefore, hdecodes⟩ := hkept.decodes hendpoint
          refine (h.tree.kept hold hbefore).imp_left fun hkeeps => ?_
          rw [hdecodes]
          exact hkeeps }
  group hfound := hretains.groups (h.group (hgroup ▸ hfound))
  counted := hslots ▸ h.counted

theorem retains_push (builder : TreeBuilder A) (parent : Option NodeIndex) (name : String)
    (ownLength : LengthHint) (kind : NodeKind A) :
    (builder.push parent name ownLength kind).Retains builder := by
  intro index old hold
  obtain ⟨node, hnode, hkept⟩ := node?_push_of_old hold
  exact ⟨node, hnode, hkept.parent, .inl hkept.kind⟩

theorem Stock.push (h : builder.Stock Q caches) (parent : Option NodeIndex) (name : String)
    (ownLength : LengthHint) {kind : NodeKind A}
    (hkind : ∀ endpoint, kind.endpoint? = some endpoint → endpoint.Does Q) :
    (builder.push parent name ownLength kind).Stock Q caches := by
  refine h.of_nodes (builder.retains_push parent name ownLength kind) rfl rfl ?_
  intro index node endpoint hnode hendpoint
  rcases node?_push_cases hnode with ⟨-, rfl⟩ | ⟨old, hold, hkept⟩
  · exact .inl (hkind endpoint hendpoint)
  · exact .inr ⟨old, hold, .inl hkept.kind⟩

theorem Stock.retouch (h : builder.Stock Q caches) (target : NodeIndex)
    {change : Node A → Node A} (hchange : ∀ node : Node A, node.Retouched (change node)) :
    (builder.retouch target change).Stock Q caches := by
  refine h.of_nodes ?_ rfl rfl ?_
  · intro index old hold
    obtain ⟨node, hnode, hretouched⟩ := node?_retouch_of_old hchange hold
    exact ⟨node, hnode, hretouched.parent, hretouched.kind⟩
  · intro index node endpoint hnode hendpoint
    obtain ⟨old, hold, hretouched⟩ := node?_retouch_cases hchange hnode
    exact .inr ⟨old, hold, hretouched.kind⟩

/-- A group below the root becomes the group of the caches. -/
theorem Stock.grouping (h : builder.Stock Q caches) {group : NodeIndex}
    (hgroup : builder.build.Groups group) :
    ({ builder with cacheGroup := some group } : TreeBuilder A).Stock Q caches where
  tree := h.tree
  group hfound := Option.some.inj hfound ▸ hgroup
  counted := h.counted

/-! ### One more cache -/

/-- The cache that gets the next slot and the next node. -/
def nextCache (builder : TreeBuilder A) {item : A.Item} (name : String)
    (codec : ObjectCodec A item) (maxEntries : UInt32) : ObjectCache A item :=
  ⟨name, builder.cacheSlots, maxEntries, codec, ⟨builder.nextIndex⟩⟩

/-- The endpoint of the next cache. -/
def nextEndpoint (builder : TreeBuilder A) {item : A.Item} (name : String)
    (codec : ObjectCodec A item) (maxEntries : UInt32) : EndpointDef A :=
  BuilderCall.putEndpoint name builder.cacheSlots maxEntries codec

section Declare

variable {item : A.Item} {name : String} {codec : ObjectCodec A item} {maxEntries : UInt32}

/-- The caches in stock have lower slots than the next one. -/
theorem Stock.slot_ne (h : builder.Stock Q caches) :
    ∀ old ∈ caches, old.2.slot ≠ (builder.nextCache name codec maxEntries).slot :=
  fun old hold => Nat.ne_of_lt (h.counted old hold)

/-- The endpoints of the caches in stock are nodes already. -/
theorem Stock.endpoint_ne (h : builder.Stock Q caches) : ∀ old ∈ caches,
    old.2.endpoint.index ≠ (builder.nextCache name codec maxEntries).endpoint.index := by
  intro old hold hsame
  obtain ⟨_, ⟨node, _, hnode, -⟩, -, -⟩ := h.tree.housed old hold
  rw [hsame] at hnode
  exact Option.some_ne_none node (hnode.symm.trans builder.node?_nextIndex)

/-- What tells caches apart goes on to do so if it tells the new one from the others. -/
theorem apart_append {ι : Type} (place : AnyCache A → ι) {new : AnyCache A}
    (h : ∀ one ∈ caches, ∀ other ∈ caches, place one = place other → one = other)
    (hnew : ∀ old ∈ caches, place old ≠ place new) :
    ∀ one ∈ caches ++ [new], ∀ other ∈ caches ++ [new], place one = place other → one = other := by
  intro one hone other hother hsame
  rcases List.mem_append.mp hone with hone | hone <;>
    rcases List.mem_append.mp hother with hother | hother
  · exact h one hone other hother hsame
  · rw [List.mem_singleton.mp hother] at hsame
    exact absurd hsame (hnew one hone)
  · rw [List.mem_singleton.mp hone] at hsame
    exact absurd hsame.symm (hnew other hother)
  · exact (List.mem_singleton.mp hone).trans (List.mem_singleton.mp hother).symm

/-- The tree with one more cache. -/
theorem Stock.declare_tree (h : builder.Stock Q caches) {group : NodeIndex}
    (hgroup : builder.cacheGroup = some group) :
    (builder.push (some group) name .dynamic
      (.endpoint (builder.nextEndpoint name codec maxEntries))).build.StockOf Q
      (caches ++ [⟨item, builder.nextCache name codec maxEntries⟩]) := by
  have hretains := builder.retains_push (some group) name .dynamic
    (.endpoint (builder.nextEndpoint name codec maxEntries))
  have hadded : (builder.push (some group) name .dynamic
      (.endpoint (builder.nextEndpoint name codec maxEntries))).node? builder.nextIndex
      = some (builder.fresh (some group) name .dynamic
        (.endpoint (builder.nextEndpoint name codec maxEntries))) := node?_push_nextIndex
  constructor
  case root =>
    obtain ⟨old, hold, hkind⟩ := h.tree.root
    obtain ⟨node, hnode, -, hkept⟩ := hretains _ _ hold
    exact ⟨node, hnode, (hkind ▸ hkept).of_root⟩
  case housed =>
    intro one hone
    rcases List.mem_append.mp hone with hold | hnew
    · obtain ⟨found, hfound⟩ := h.tree.housed one hold
      exact hretains.houses hfound
    · obtain rfl := List.mem_singleton.mp hnew
      exact ⟨builder.nextEndpoint name codec maxEntries, ⟨_, group, hadded, rfl, rfl,
        hretains.groups (h.group hgroup)⟩, rfl, fun _ _ _ => rfl⟩
  case slots =>
    exact apart_append (fun one => one.2.slot) h.tree.slots h.slot_ne
  case endpoints =>
    exact apart_append (fun one => one.2.endpoint.index) h.tree.endpoints h.endpoint_ne
  case kept =>
    intro index node found hnode hfound
    have hnode : (builder.push (some group) name .dynamic
        (.endpoint (builder.nextEndpoint name codec maxEntries))).node? index = some node := hnode
    rcases node?_push_cases hnode with ⟨rfl, rfl⟩ | ⟨old, hold, hkept⟩
    · exact .inr ⟨⟨item, builder.nextCache name codec maxEntries⟩, by simp, rfl⟩
    · refine (h.tree.kept hold (hkept.kind ▸ hfound)).imp_right ?_
      rintro ⟨one, hone, hindex⟩
      exact ⟨one, List.mem_append_left _ hone, hindex⟩

/-- **A cache with the next slot and the next node is one more in stock.** -/
theorem Stock.declare (h : builder.Stock Q caches) {group : NodeIndex}
    (hgroup : builder.cacheGroup = some group) :
    ({ builder.push (some group) name .dynamic
        (.endpoint (builder.nextEndpoint name codec maxEntries)) with
        cacheSlots := builder.cacheSlots + 1 } : TreeBuilder A).Stock Q
      (caches ++ [⟨item, builder.nextCache name codec maxEntries⟩]) where
  tree := h.declare_tree hgroup
  group hfound := (builder.retains_push (some group) name .dynamic
    (.endpoint (builder.nextEndpoint name codec maxEntries))).groups (h.group hfound)
  counted := by
    intro one hone
    rcases List.mem_append.mp hone with hold | hnew
    · exact Nat.lt_succ_of_lt (h.counted one hold)
    · rw [List.mem_singleton.mp hnew]
      exact Nat.lt_succ_self _

end Declare

end TreeBuilder

/-! ### What a call does to the stock -/

namespace Building

open TreeBuilder

variable {α β : Type} {caches : List (AnyCache A)} {Q : Callback A Unit → Prop}

/-- A step that leaves the stock as it is, whether it is refused or not. -/
def KeepsStock (Q : Callback A Unit → Prop) (caches : List (AnyCache A)) (step : Building A α) : Prop :=
  ∀ builder : TreeBuilder A, builder.Stock Q caches → ∃ after : TreeBuilder A, after.Stock Q caches ∧
    ((∃ answer, step builder = .ok answer after) ∨ ∃ cause, step builder = .error cause after)

namespace KeepsStock

theorem pure (answer : α) : KeepsStock Q caches (Pure.pure answer : Building A α) :=
  fun builder h => ⟨builder, h, .inl ⟨answer, rfl⟩⟩

theorem refuse (cause : ProtocolError) : KeepsStock Q caches (throw cause : Building A α) :=
  fun builder h => ⟨builder, h, .inr ⟨cause, rfl⟩⟩

theorem look : KeepsStock Q caches (get : Building A (TreeBuilder A)) :=
  fun builder h => ⟨builder, h, .inl ⟨builder, rfl⟩⟩

theorem bind {step : Building A α} {next : α → Building A β} (hstep : KeepsStock Q caches step)
    (hnext : ∀ answer, KeepsStock Q caches (next answer)) :
    KeepsStock Q caches (step >>= next) := by
  intro builder h
  rcases hstep builder h with ⟨between, hbetween, ⟨answer, hok⟩ | ⟨cause, herror⟩⟩
  · rw [Step.bind_ok hok]
    exact hnext answer between hbetween
  · rw [Step.bind_error herror]
    exact ⟨between, hbetween, .inr ⟨cause, rfl⟩⟩

theorem map (f : α → β) {step : Building A α} (hstep : KeepsStock Q caches step) :
    KeepsStock Q caches (do return f (← step)) :=
  hstep.bind fun answer => pure (f answer)

theorem add (parent : Option NodeIndex) (name : String) (ownLength : LengthHint)
    {kind : NodeKind A}
    (hkind : ∀ endpoint, kind.endpoint? = some endpoint → endpoint.Does Q) :
    KeepsStock Q caches (Building.add parent name ownLength kind) := by
  intro builder h
  unfold Building.add
  cases builder.checkName parent name with
  | ok checked => exact ⟨_, h.push parent name ownLength hkind, .inl ⟨_, rfl⟩⟩
  | error cause => exact ⟨builder, h, .inr ⟨cause, rfl⟩⟩

theorem modifyNode (index : NodeIndex) {change : Node A → Node A}
    (hchange : ∀ node : Node A, node.Retouched (change node)) :
    KeepsStock Q caches (Building.modifyNode index change) := by
  intro builder h
  rw [modifyNode_eq]
  cases builder.node? index with
  | none => exact ⟨builder, h, .inr ⟨_, rfl⟩⟩
  | some node => exact ⟨_, h.retouch index hchange, .inl ⟨(), rfl⟩⟩

theorem endpoint {type : ContextType A} (above : Parent type) (name : String)
    {decode : A.Env → type.El → MessageContext A → Callback A Unit}
    (hdecode : ∀ env value ctx, Q (decode env value ctx)) :
    KeepsStock Q caches (Building.endpoint above name decode) := by
  refine (add _ name _ ?_).map EndpointRef.mk
  rintro endpoint ⟨⟩
  exact hdecode

theorem setPayloadLength {type : ContextType A} (target : EndpointRef type) (bytes : Nat) :
    KeepsStock Q caches (Building.setPayloadLength target bytes) :=
  look.bind fun _ => modifyNode target.index fun _ => ⟨rfl, rfl, rfl, .inl rfl⟩

theorem onMissing {type : ContextType A} (target : EndpointRef type)
    (handler : MissingHandler A) : KeepsStock Q caches (Building.onMissing target handler) := by
  refine look.bind fun builder => ?_
  cases builder.node? target.index with
  | none => exact refuse _
  | some node =>
      have hmodify : KeepsStock Q caches
          (Building.modifyNode target.index (handlingMissing handler)) :=
        modifyNode target.index fun _ => ⟨rfl, rfl, rfl, .inr ⟨handler, rfl⟩⟩
      by_cases hmissing : node.kind.endpoint?.isNone = true
      · simp only [if_pos hmissing]
        exact (refuse _).bind fun _ => hmodify
      · simp only [if_neg hmissing]
        exact hmodify

theorem link {owner child : ContextType A} (above : Parent owner) (target : Parent child)
    (name : String) (childOf : A.Env → owner.El → Option child.El) :
    KeepsStock Q caches (Building.link above target name childOf) := by
  refine look.bind fun builder => ?_
  have hadd : KeepsStock Q caches (do
      let index ← Building.add (some above.index) name (.fixed 0)
        (.link target.index (.link name childOf))
      return (⟨index, target.index⟩ : LinkRef owner child)) :=
    (add _ name _ (by rintro _ ⟨⟩)).map fun index => LinkRef.mk index target.index
  cases builder.node? target.index with
  | none => exact (refuse _).bind fun _ => hadd
  | some node =>
      cases hdynamic : node.kind.isDynamic with
      | false =>
          simp only [hdynamic]
          exact (refuse _).bind fun _ => hadd
      | true =>
          simp only [hdynamic]
          exact hadd

end KeepsStock

/-! The declaration of a cache. -/

variable {builder : TreeBuilder A}

/-- The group of the caches is declared once. -/
theorem stock_cacheGroup (h : builder.Stock Q caches) :
    (∃ group after, cacheGroup builder = .ok group after ∧ after.Stock Q caches ∧
      after.cacheGroup = some group) ∨
      ∃ cause, cacheGroup builder = .error cause builder := by
  have hget : (get : Building A (TreeBuilder A)) builder = .ok builder builder := rfl
  unfold cacheGroup
  rw [Step.bind_ok hget]
  cases hgroup : builder.cacheGroup with
  | some group => exact .inl ⟨group, builder, rfl, h, hgroup⟩
  | none =>
      cases hname : builder.checkName (some .root) "cache" with
      | error cause => exact .inr ⟨cause, Step.bind_error (add_eq_error _ _ hname)⟩
      | ok checked =>
          have hpushed : (builder.push (some .root) "cache" (.fixed 0) .group).Stock Q caches :=
            h.push _ _ _ (by rintro _ ⟨⟩)
          have hadded : (builder.push (some .root) "cache" (.fixed 0) .group).node?
              builder.nextIndex = some _ := node?_push_nextIndex
          have hgroups : (builder.push (some .root) "cache" (.fixed 0) .group).build.Groups
              builder.nextIndex := ⟨_, hadded, rfl, rfl⟩
          simp only
          rw [Step.bind_ok (add_eq_ok _ _ hname)]
          exact .inl ⟨builder.nextIndex, _, rfl, hpushed.grouping hgroups, rfl⟩

/-- A declaration puts its cache in stock, unless it is refused. -/
theorem stock_cacheWithCapacity (h : builder.Stock Q caches) {item : A.Item} (name : String)
    (codec : ObjectCodec A item) (maxEntries : UInt32) :
    (∃ cache after, cacheWithCapacity name codec maxEntries builder = .ok cache after ∧
      after.Stock Q (caches ++ [⟨item, cache⟩])) ∨
      ∃ cause after, cacheWithCapacity name codec maxEntries builder = .error cause after ∧
        after.Stock Q caches := by
  unfold cacheWithCapacity
  rcases stock_cacheGroup h with ⟨group, between, hok, hbetween, hgroup⟩ | ⟨cause, herror⟩
  · rw [Step.bind_ok hok]
    have hget : (get : Building A (TreeBuilder A)) between = .ok between between := rfl
    rw [Step.bind_ok hget]
    cases hname : between.checkName (some group) name with
    | ok checked =>
        have hendpoint : endpoint (⟨group⟩ : Parent (A := A) .unit) name
            (fun env _ _ => ObjectCache.takePut name between.cacheSlots maxEntries codec env)
              between = .ok ⟨between.nextIndex⟩ _ := Step.bind_ok (add_eq_ok _ _ hname)
        rw [Step.bind_ok hendpoint]
        exact .inl ⟨_, _, rfl, hbetween.declare hgroup⟩
    | error cause =>
        have hendpoint : endpoint (⟨group⟩ : Parent (A := A) .unit) name
            (fun env _ _ => ObjectCache.takePut name between.cacheSlots maxEntries codec env)
              between = .error cause between := Step.bind_error (add_eq_error _ _ hname)
        exact .inr ⟨cause, between, Step.bind_error hendpoint, hbetween⟩
  · exact .inr ⟨cause, builder, Step.bind_error herror, h⟩

end Building

/-- What a call does: it adds the caches that it gives out to the stock, and nothing if it is
refused. -/
def BuilderCall.Stocks (Q : Callback A Unit → Prop) (caches : List (AnyCache A))
    (builder : TreeBuilder A) (call : BuilderCall A) : Prop :=
  (∃ issued after, call.run builder = .ok issued after ∧
    after.Stock Q (caches ++ call.declares builder)) ∨
  ∃ cause after, call.run builder = .error cause after ∧ after.Stock Q caches

namespace BuilderCall

variable {builder : TreeBuilder A} {caches : List (AnyCache A)} {call : BuilderCall A}
  {Q : Callback A Unit → Prop}

theorem stocks_plain (h : builder.Stock Q caches) (hnone : call.declares builder = [])
    (hkeeps : Building.KeepsStock Q caches call.run) : call.Stocks Q caches builder := by
  rcases hkeeps builder h with ⟨after, hafter, ⟨issued, hok⟩ | ⟨cause, herror⟩⟩
  · refine .inl ⟨issued, after, hok, ?_⟩
    rwa [hnone, List.append_nil]
  · exact .inr ⟨cause, after, herror, hafter⟩

/-- A declaration that is the whole of a call. -/
theorem stocks_declaration {item : A.Item} {declare : Building A (ObjectCache A item)}
    (hrun : call.run = do return [.endpoint .unit (← declare).endpoint.index])
    (hdeclares : call.declares builder = given (declare builder))
    (h : (∃ cache after, declare builder = .ok cache after ∧
        after.Stock Q (caches ++ [⟨item, cache⟩])) ∨
      ∃ cause after, declare builder = .error cause after ∧ after.Stock Q caches) :
    call.Stocks Q caches builder := by
  rcases h with ⟨cache, after, hok, hafter⟩ | ⟨cause, after, herror, hafter⟩
  · refine .inl ⟨_, after, by rw [hrun, Step.bind_ok hok]; rfl, ?_⟩
    rw [hdeclares, hok]
    exact hafter
  · exact .inr ⟨cause, after, by rw [hrun, Step.bind_error herror], hafter⟩

open Building in
/-- **Every call adds to the stock exactly the caches that it gives out**, if the handlers in it
are of the right kind. -/
theorem stocks (call : BuilderCall A) (hdoes : call.Does Q) (h : builder.Stock Q caches) :
    call.Stocks Q caches builder := by
  cases call with
  | group above name =>
      exact stocks_plain h rfl (((KeepsStock.add _ name _ (by rintro _ ⟨⟩)).map _).map _)
  | key above name codec =>
      exact stocks_plain h rfl (((KeepsStock.add _ name _ (by rintro _ ⟨⟩)).map _).map _)
  | typedGroup name supply =>
      exact stocks_plain h rfl (((KeepsStock.add _ name _ (by rintro _ ⟨⟩)).map _).map _)
  | view above name narrow widen =>
      exact stocks_plain h rfl (((KeepsStock.add _ name _ (by rintro _ ⟨⟩)).map _).map _)
  | dynamic child name pick =>
      exact stocks_plain h rfl (((KeepsStock.add _ name _ (by rintro _ ⟨⟩)).map _).map _)
  | link above target name childOf =>
      exact stocks_plain h rfl ((KeepsStock.link above target name childOf).map _)
  | endpoint above name decode =>
      exact stocks_plain h rfl ((KeepsStock.endpoint above name hdoes).map _)
  | keyedEndpoint above name codec decode =>
      refine stocks_plain h rfl (((KeepsStock.add _ name _ ?_).map _).map _)
      rintro endpoint ⟨⟩
      exact hdoes
  | signal above name handle =>
      exact stocks_plain h rfl (((KeepsStock.endpoint above name hdoes).bind fun declared =>
        (KeepsStock.setPayloadLength declared 0).map fun _ => declared).map _)
  | setPayloadLength target bytes =>
      exact stocks_plain h rfl ((KeepsStock.setPayloadLength target bytes).map _)
  | onMissing target handler =>
      exact stocks_plain h rfl ((KeepsStock.onMissing target handler).map _)
  | cache name codec =>
      exact stocks_declaration rfl rfl
        (stock_cacheWithCapacity h name codec builder.revision.maxCacheEntries)
  | cacheWithCapacity name codec maxEntries =>
      exact stocks_declaration rfl rfl (stock_cacheWithCapacity h name codec maxEntries)

end BuilderCall

/-- The stock of a builder on which calls were made. -/
theorem Stocked.stock {revision : Revision} {allowed : List (Handle A) → BuilderCall A → Prop}
    {Q : Callback A Unit → Prop} (hdoes : ∀ handles call, allowed handles call → call.Does Q)
    {builder : TreeBuilder A} {handles : List (Handle A)} {caches : List (AnyCache A)}
    (h : Stocked revision allowed builder handles caches) : builder.Stock Q caches := by
  induction h with
  | new => exact TreeBuilder.stock_new Q revision
  | answered call _ hallowed hcall ih =>
      rcases call.stocks (hdoes _ _ hallowed) ih with
        ⟨issued, after, hok, hafter⟩ | ⟨cause, after, herror, -⟩
      · cases hcall.symm.trans hok
        exact hafter
      · cases hcall.symm.trans herror
  | refused call _ hallowed hcall ih =>
      rcases call.stocks (hdoes _ _ hallowed) ih with
        ⟨issued, after, hok, -⟩ | ⟨cause, after, herror, hafter⟩
      · cases hcall.symm.trans hok
      · cases hcall.symm.trans herror
        exact hafter

/-- The stock of a tree whose handlers leave the caches to the library. -/
theorem Stocked.tree {revision : Revision} {builder : TreeBuilder A} {handles : List (Handle A)}
    {caches : List (AnyCache A)}
    (h : Stocked revision (fun _ call => call.KeepsCaches) builder handles caches) :
    builder.build.Stock caches :=
  (h.stock fun _ _ hkeeps => hkeeps.does).tree

end PathWire

/-
Built trees are well typed.

A handle tells its user the type of the values seen below a node, and a program gets handles from
the builder only.  So the handles given out so far are the types of the tree: a carrier hangs
below a node that offers the type it starts from, a group passes on what its parent offers, and an
endpoint takes what its parent offers.  The one node without a handle that others hang below is
the group of the caches.  No node offers two types, so whoever knows a handle knows what kind of
value he will find: below a carrier it is the one that the carrier gives, and a link gives what its
target offers.
-/
import PathWire.Proofs.Basic
import PathWire.Proofs.Tree.Shape

namespace PathWire

variable {A : Application}

/-- The type of the values above a carrier. -/
def Carrier.upper : Carrier A → ContextType A
  | @key _ parent _ _ | @view _ parent _ _ _ | @link _ parent _ _ _ => parent
  | attachment _ => .unit

/-- The type of the values below a carrier. -/
def Carrier.lower : Carrier A → ContextType A
  | @key _ _ child _ | @view _ _ child _ _ | @attachment _ _ child _ | @link _ _ child _ _ => child

/-- A call that is made with handles that were given out. -/
def BuilderCall.Honest (handles : List (Handle A)) (call : BuilderCall A) : Prop :=
  ∀ handle ∈ call.uses, handle ∈ handles

namespace TreeBuilder

variable {builder after : TreeBuilder A} {handles : List (Handle A)}

/-- The children of a node see values of a type. -/
def Offers (builder : TreeBuilder A) (handles : List (Handle A)) (type : ContextType A)
    (index : NodeIndex) : Prop :=
  .parent type index ∈ handles ∨ type = .unit ∧ builder.cacheGroup = some index

/-- A node fits below a parent. -/
structure Fits (builder : TreeBuilder A) (handles : List (Handle A)) (parent : Option NodeIndex)
    (kind : NodeKind A) : Prop where
  carried : ∀ {carrier above}, kind.carrier? = some carrier → parent = some above →
    builder.Offers handles carrier.upper above
  ended : ∀ {endpoint above}, kind = .endpoint endpoint → parent = some above →
    builder.Offers handles endpoint.type above
  linked : ∀ {target carrier}, kind = .link target carrier →
    builder.Offers handles carrier.lower target
  orphan : kind = .root ∨ kind.isDynamic = true → parent = none

/-- The handles given out tell the types of a builder's nodes. -/
structure Typed (builder : TreeBuilder A) (handles : List (Handle A)) : Prop where
  top : .parent .unit .root ∈ handles
  root : ∀ {type}, builder.Offers handles type .root → type = .unit
  known : ∀ {type index}, builder.Offers handles type index →
    ∃ node, builder.node? index = some node
  fits : ∀ {index node}, builder.node? index = some node →
    builder.Fits handles node.parent node.kind
  grouped : ∀ {index node above type}, builder.node? index = some node → node.kind = .group →
    node.parent = some above → builder.Offers handles type index →
    builder.Offers handles type above
  pointed : ∀ {type index}, .endpoint type index ∈ handles → ∃ node endpoint,
    builder.node? index = some node ∧ node.kind.endpoint? = some endpoint ∧ endpoint.type = type
  alone : ∀ {type other index}, builder.Offers handles type index →
    builder.Offers handles other index → type = other
  lowered : ∀ {index node carrier type}, builder.node? index = some node →
    node.kind = .carrier carrier → builder.Offers handles type index → type = carrier.lower

theorem typed_new (revision : Revision) :
    (new revision : TreeBuilder A).Typed [.parent .unit .root] where
  top := List.mem_singleton_self _
  root := by
    rintro type (h | ⟨h, -⟩)
    · cases List.mem_singleton.mp h
      rfl
    · exact h
  known := by
    rintro type index (h | ⟨-, h⟩)
    · cases List.mem_singleton.mp h
      exact ⟨rootNode, rfl⟩
    · cases h
  fits := by
    intro index node hnode
    obtain ⟨-, rfl⟩ := node?_new revision hnode
    constructor
    · intro carrier above hcarrier
      cases hcarrier
    · intro endpoint above hkind
      cases hkind
    · intro target carrier hkind
      cases hkind
    · exact fun _ => rfl
  grouped := by
    intro index node above type hnode hkind
    obtain ⟨-, rfl⟩ := node?_new revision hnode
    cases hkind
  pointed := by
    intro type index h
    cases List.mem_singleton.mp h
  alone := by
    rintro type other index (h | ⟨-, h⟩) (h' | ⟨-, h'⟩)
    · cases List.mem_singleton.mp h
      cases List.mem_singleton.mp h'
      rfl
    · cases h'
    · cases h
    · cases h
  lowered := by
    intro index node carrier type hnode hkind
    obtain ⟨-, rfl⟩ := node?_new revision hnode
    cases hkind

/-! ### Nodes that fit -/

theorem fits_group {parent : Option NodeIndex} : builder.Fits handles parent .group where
  carried h := by cases h
  ended h := by cases h
  linked h := by cases h
  orphan h := by rcases h with h | h <;> cases h

theorem fits_dynamic {resolver : Option (Resolver A)} :
    builder.Fits handles none (.dynamic resolver) where
  carried h := by cases h
  ended h := by cases h
  linked h := by cases h
  orphan _ := rfl

theorem fits_endpoint {endpoint : EndpointDef A} {above : NodeIndex}
    (h : builder.Offers handles endpoint.type above) :
    builder.Fits handles (some above) (.endpoint endpoint) where
  carried h := by cases h
  ended := by
    rintro other place ⟨⟩ ⟨⟩
    exact h
  linked h := by cases h
  orphan h := by rcases h with h | h <;> cases h

/-- A node that carries a value fits below a node that offers what the carrier starts from, if it
does not link to a node that offers something else. -/
theorem fits_carrier {kind : NodeKind A} {carrier : Carrier A} {above : NodeIndex}
    (hkind : kind.carrier? = some carrier) (h : builder.Offers handles carrier.upper above)
    (hlinked : ∀ {target carrier}, kind = .link target carrier →
      builder.Offers handles carrier.lower target) :
    builder.Fits handles (some above) kind where
  carried := by
    rintro other place hother ⟨⟩
    cases hkind.symm.trans hother
    exact h
  ended := by
    rintro other place rfl
    cases hkind
  linked := hlinked
  orphan := by
    rintro (rfl | h)
    · cases hkind
    · cases kind with
      | dynamic resolver => cases hkind
      | _ => cases h

/-- What fits goes on to fit if no node offers less. -/
theorem Fits.mono {issued : List (Handle A)} {parent : Option NodeIndex} {kind : NodeKind A}
    (hfits : builder.Fits handles parent kind)
    (hoffers : ∀ {type index}, builder.Offers handles type index →
      after.Offers issued type index) : after.Fits issued parent kind where
  carried hcarrier habove := hoffers (hfits.carried hcarrier habove)
  ended hkind habove := hoffers (hfits.ended hkind habove)
  linked hkind := hoffers (hfits.linked hkind)
  orphan := hfits.orphan

/-! ### Edits -/

/-- A kind that has changed in the missing-keys handler at most. -/
def KindKept (before kind : NodeKind A) : Prop :=
  kind = before ∨ ∃ handler : MissingHandler A,
    kind = before.mapEndpoint fun e => { e with onMissing := some handler }

namespace KindKept

variable {before kind : NodeKind A}

/-- What is no endpoint has not changed at all. -/
theorem plain (h : KindKept before kind) (hnone : kind.endpoint? = none) : before = kind := by
  rcases h with rfl | ⟨handler, rfl⟩
  · rfl
  · cases before with
    | endpoint | keyedEndpoint => cases hnone
    | _ => rfl

/-- An endpoint stays one, and takes the same values. -/
theorem endpoint? (h : KindKept before kind) {endpoint : EndpointDef A}
    (hendpoint : before.endpoint? = some endpoint) :
    ∃ other, kind.endpoint? = some other ∧ other.type = endpoint.type := by
  rcases h with rfl | ⟨handler, rfl⟩
  · exact ⟨endpoint, hendpoint, rfl⟩
  · cases before with
    | endpoint found | keyedEndpoint carrier found =>
        cases hendpoint
        exact ⟨_, rfl, rfl⟩
    | _ => cases hendpoint

theorem fits (h : KindKept before kind) {parent : Option NodeIndex}
    (hfits : builder.Fits handles parent before) : builder.Fits handles parent kind := by
  rcases h with rfl | ⟨handler, rfl⟩
  · exact hfits
  · cases before with
    | endpoint endpoint =>
        refine ⟨hfits.carried, ?_, (by rintro _ _ ⟨⟩), (by rintro (h | h) <;> cases h)⟩
        rintro changed above ⟨⟩ habove
        show builder.Offers handles endpoint.type above
        exact hfits.ended rfl habove
    | keyedEndpoint carrier endpoint =>
        refine ⟨hfits.carried, ?_, (by rintro _ _ ⟨⟩), (by rintro (h | h) <;> cases h)⟩
        intro changed above hkind
        cases hkind
    | _ => exact hfits

end KindKept

/-- Types stay if the nodes do and the new ones fit. -/
theorem Typed.of_nodes (h : builder.Typed handles) (hgroup : after.cacheGroup = builder.cacheGroup)
    (hkept : ∀ {index old}, builder.node? index = some old → ∃ node, after.node? index = some node ∧
      node.parent = old.parent ∧ KindKept old.kind node.kind)
    (hnew : ∀ {index node}, after.node? index = some node → builder.node? index = none →
      builder.Fits handles node.parent node.kind) : after.Typed handles := by
  have hoffers : ∀ {type index}, after.Offers handles type index ↔
      builder.Offers handles type index := by
    intro type index
    unfold Offers
    rw [hgroup]
  constructor
  case top => exact h.top
  case root => exact fun hoffer => h.root (hoffers.mp hoffer)
  case known =>
    intro type index hoffer
    obtain ⟨old, hold⟩ := h.known (hoffers.mp hoffer)
    obtain ⟨node, hnode, -⟩ := hkept hold
    exact ⟨node, hnode⟩
  case fits =>
    intro index node hnode
    cases hold : builder.node? index with
    | none => exact (hnew hnode hold).mono hoffers.mpr
    | some old =>
        obtain ⟨same, hsame, hparent, hkind⟩ := hkept hold
        cases hnode.symm.trans hsame
        rw [hparent]
        exact (hkind.fits (h.fits hold)).mono hoffers.mpr
  case grouped =>
    intro index node above type hnode hkind habove hoffer
    obtain ⟨old, hold⟩ := h.known (hoffers.mp hoffer)
    obtain ⟨same, hsame, hparent, hkept⟩ := hkept hold
    cases hnode.symm.trans hsame
    have hgroup : old.kind = .group := (hkept.plain (by rw [hkind]; rfl)).trans hkind
    exact hoffers.mpr (h.grouped hold hgroup (hparent ▸ habove) (hoffers.mp hoffer))
  case pointed =>
    intro type index hmem
    obtain ⟨old, endpoint, hold, hendpoint, htype⟩ := h.pointed hmem
    obtain ⟨node, hnode, -, hkept⟩ := hkept hold
    obtain ⟨other, hother, hsame⟩ := hkept.endpoint? hendpoint
    exact ⟨node, other, hnode, hother, hsame.trans htype⟩
  case alone => exact fun hone hother => h.alone (hoffers.mp hone) (hoffers.mp hother)
  case lowered =>
    intro index node carrier type hnode hkind hoffer
    obtain ⟨old, hold⟩ := h.known (hoffers.mp hoffer)
    obtain ⟨same, hsame, -, hkept⟩ := hkept hold
    cases hnode.symm.trans hsame
    have hcarrier : old.kind = .carrier carrier := (hkept.plain (by rw [hkind]; rfl)).trans hkind
    exact h.lowered hold hcarrier (hoffers.mp hoffer)

theorem Typed.push (h : builder.Typed handles) {parent : Option NodeIndex} (name : String)
    (ownLength : LengthHint) {kind : NodeKind A} (hfits : builder.Fits handles parent kind) :
    (builder.push parent name ownLength kind).Typed handles := by
  refine h.of_nodes rfl ?_ ?_
  · intro index old hold
    obtain ⟨node, hnode, hkept⟩ := node?_push_of_old hold
    exact ⟨node, hnode, hkept.parent, .inl hkept.kind⟩
  · intro index node hnode hnone
    rcases node?_push_cases hnode with ⟨-, rfl⟩ | ⟨old, hold, -⟩
    · exact hfits
    · rw [hnone] at hold
      cases hold

theorem Typed.retouch (h : builder.Typed handles) (target : NodeIndex)
    {change : Node A → Node A} (hchange : ∀ node : Node A, node.Retouched (change node)) :
    (builder.retouch target change).Typed handles := by
  refine h.of_nodes rfl ?_ ?_
  · intro index old hold
    obtain ⟨node, hnode, hretouched⟩ := node?_retouch_of_old hchange hold
    exact ⟨node, hnode, hretouched.parent, hretouched.kind⟩
  · intro index node hnode hnone
    obtain ⟨old, hold, -⟩ := node?_retouch_cases hchange hnode
    rw [hnone] at hold
    cases hold

/-- A group below the root can be made the group of the caches if there is no handle to it. -/
theorem Typed.grouping (h : builder.Typed handles) (hnone : builder.cacheGroup = none)
    {group : NodeIndex} {node : Node A} (hnode : builder.node? group = some node)
    (hparent : node.parent = some .root) (hgroup : node.kind = .group)
    (hfree : ∀ type, ¬ builder.Offers handles type group) (slots : Nat) :
    ({ builder with cacheGroup := some group, cacheSlots := slots } : TreeBuilder A).Typed
      handles := by
  have hkept : ∀ {type index}, builder.Offers handles type index →
      Offers { builder with cacheGroup := some group, cacheSlots := slots } handles type index := by
    rintro type index (hmem | ⟨-, hgroup⟩)
    · exact .inl hmem
    · rw [hnone] at hgroup
      cases hgroup
  have hback : ∀ {type index},
      Offers { builder with cacheGroup := some group, cacheSlots := slots } handles type index →
        builder.Offers handles type index ∨ type = .unit ∧ index = group := by
    rintro type index (hmem | ⟨htype, hgroup⟩)
    · exact .inl (.inl hmem)
    · exact .inr ⟨htype, (Option.some.inj hgroup).symm⟩
  constructor
  case top => exact h.top
  case root =>
    intro type hoffer
    rcases hback hoffer with hoffer | ⟨htype, -⟩
    · exact h.root hoffer
    · exact htype
  case known =>
    intro type index hoffer
    rcases hback hoffer with hoffer | ⟨-, rfl⟩
    · exact h.known hoffer
    · exact ⟨node, hnode⟩
  case fits =>
    intro index found hfound
    exact (h.fits hfound).mono hkept
  case grouped =>
    intro index found above type hfound hkind habove hoffer
    rcases hback hoffer with hoffer | ⟨rfl, rfl⟩
    · exact hkept (h.grouped hfound hkind habove hoffer)
    · cases hnode.symm.trans hfound
      rw [hparent] at habove
      cases habove
      exact .inl h.top
  case pointed => exact h.pointed
  case alone =>
    intro type other index hone hother
    rcases hback hone with hold | ⟨rfl, rfl⟩
    · rcases hback hother with hold' | ⟨-, rfl⟩
      · exact h.alone hold hold'
      · exact absurd hold (hfree type)
    · rcases hback hother with hold' | ⟨rfl, -⟩
      · exact absurd hold' (hfree other)
      · rfl
  case lowered =>
    intro index found carrier type hfound hkind hoffer
    rcases hback hoffer with hoffer | ⟨-, rfl⟩
    · exact h.lowered hfound hkind hoffer
    · cases hnode.symm.trans hfound
      rw [hgroup] at hkind
      cases hkind

/-! ### Handles -/

/-- A handle tells the truth about its node, and is the first to do so. -/
def Backs (builder : TreeBuilder A) (handles : List (Handle A)) : Handle A → Prop
  | .parent type index => (∀ other, ¬ builder.Offers handles other index) ∧
    ∃ node, builder.node? index = some node ∧
      (∀ above, node.kind = .group → node.parent = some above →
        builder.Offers handles type above) ∧
      ∀ carrier, node.kind = .carrier carrier → type = carrier.lower
  | .endpoint type index => ∃ node endpoint, builder.node? index = some node ∧
    node.kind.endpoint? = some endpoint ∧ endpoint.type = type
  | .link _ _ _ _ => True

/-- Handles that tell the truth and do not contradict each other. -/
structure Issuable (builder : TreeBuilder A) (handles issued : List (Handle A)) : Prop where
  backed : ∀ handle ∈ issued, builder.Backs handles handle
  alone : ∀ {type other index}, .parent type index ∈ issued → .parent other index ∈ issued →
    type = other

theorem issuable_none : builder.Issuable handles [] where
  backed _ hmem := by cases hmem
  alone hmem := by cases hmem

theorem issuable_one {handle : Handle A} (h : builder.Backs handles handle) :
    builder.Issuable handles [handle] where
  backed other hmem := by rwa [List.mem_singleton.mp hmem]
  alone hone hother := by
    have hsame := (List.mem_singleton.mp hone).trans (List.mem_singleton.mp hother).symm
    exact (Handle.parent.inj hsame).1

/-- Such handles can be given out. -/
theorem Typed.issue (h : builder.Typed handles) {issued : List (Handle A)}
    (hissued : builder.Issuable handles issued) : builder.Typed (handles ++ issued) := by
  have hkept : ∀ {type index}, builder.Offers handles type index →
      builder.Offers (handles ++ issued) type index :=
    fun hoffer => hoffer.imp (List.mem_append_left issued) id
  have hback : ∀ {type index}, builder.Offers (handles ++ issued) type index →
      builder.Offers handles type index ∨ .parent type index ∈ issued := by
    rintro type index (hmem | hgroup)
    · exact (List.mem_append.mp hmem).imp .inl id
    · exact .inl (.inr hgroup)
  constructor
  case top => exact List.mem_append_left issued h.top
  case root =>
    intro type hoffer
    rcases hback hoffer with hoffer | hmem
    · exact h.root hoffer
    · exact absurd (.inl h.top) ((hissued.backed _ hmem).1 .unit)
  case known =>
    intro type index hoffer
    rcases hback hoffer with hoffer | hmem
    · exact h.known hoffer
    · obtain ⟨-, node, hnode, -⟩ := hissued.backed _ hmem
      exact ⟨node, hnode⟩
  case fits =>
    intro index node hnode
    exact (h.fits hnode).mono hkept
  case grouped =>
    intro index node above type hnode hkind habove hoffer
    rcases hback hoffer with hoffer | hmem
    · exact hkept (h.grouped hnode hkind habove hoffer)
    · obtain ⟨-, found, hfound, hgroup, -⟩ := hissued.backed _ hmem
      cases hnode.symm.trans hfound
      exact hkept (hgroup above hkind habove)
  case pointed =>
    intro type index hmem
    rcases List.mem_append.mp hmem with hmem | hmem
    · exact h.pointed hmem
    · exact hissued.backed _ hmem
  case alone =>
    intro type other index hone hother
    rcases hback hone with hone | hone
    · rcases hback hother with hother | hother
      · exact h.alone hone hother
      · exact absurd hone ((hissued.backed _ hother).1 type)
    · rcases hback hother with hother | hother
      · exact absurd hother ((hissued.backed _ hone).1 other)
      · exact hissued.alone hone hother
  case lowered =>
    intro index node carrier type hnode hkind hoffer
    rcases hback hoffer with hoffer | hmem
    · exact h.lowered hnode hkind hoffer
    · obtain ⟨-, found, hfound, -, hcarrier⟩ := hissued.backed _ hmem
      cases hnode.symm.trans hfound
      exact hcarrier carrier hkind

end TreeBuilder

/-! ### Steps of the builder -/

namespace Building

open TreeBuilder

variable {α β : Type} {handles : List (Handle A)}

/-- A step that keeps the types and, if it is not refused, brings about `post`. -/
def Keeps (handles : List (Handle A)) (pre : TreeBuilder A → Prop) (step : Building A α)
    (post : α → TreeBuilder A → Prop) : Prop :=
  ∀ builder : TreeBuilder A, builder.Typed handles → pre builder → match step builder with
    | .ok answer after => after.Typed handles ∧ post answer after
    | .error _ after => after.Typed handles

namespace Keeps

variable {pre : TreeBuilder A → Prop} {step : Building A α} {post : α → TreeBuilder A → Prop}

theorem pure {answer : α} (h : ∀ builder : TreeBuilder A, builder.Typed handles → pre builder →
    post answer builder) : Keeps handles pre (Pure.pure answer) post :=
  fun builder htyped hpre => ⟨htyped, h builder htyped hpre⟩

theorem refuse (cause : ProtocolError) : Keeps handles pre (throw cause) post :=
  fun _ htyped _ => htyped

theorem look : Keeps handles pre get fun found builder => found = builder ∧ pre builder :=
  fun _ htyped hpre => ⟨htyped, rfl, hpre⟩

theorem bind {next : α → Building A β} {final : β → TreeBuilder A → Prop}
    (hstep : Keeps handles pre step post)
    (hnext : ∀ answer, Keeps handles (post answer) (next answer) final) :
    Keeps handles pre (step >>= next) final := by
  intro builder htyped hpre
  have hfirst := hstep builder htyped hpre
  cases hresult : step builder with
  | ok answer between =>
      rw [hresult] at hfirst
      rw [Step.bind_ok hresult]
      exact hnext answer between hfirst.1 hfirst.2
  | error cause between =>
      rw [hresult] at hfirst
      rw [Step.bind_error hresult]
      exact hfirst

theorem map {f : α → β} {final : β → TreeBuilder A → Prop} (hstep : Keeps handles pre step post)
    (h : ∀ answer builder, post answer builder → final (f answer) builder) :
    Keeps handles pre (do return f (← step)) final :=
  hstep.bind fun answer => pure fun builder _ => h answer builder

theorem imp {final : α → TreeBuilder A → Prop} (hstep : Keeps handles pre step post)
    (h : ∀ answer builder, post answer builder → final answer builder) :
    Keeps handles pre step final := by
  intro builder htyped hpre
  have hresult := hstep builder htyped hpre
  cases hstep : step builder with
  | ok answer after =>
      rw [hstep] at hresult
      exact ⟨hresult.1, h answer after hresult.2⟩
  | error cause after =>
      rw [hstep] at hresult
      exact hresult

theorem weaken {other : TreeBuilder A → Prop} (hstep : Keeps handles pre step post)
    (h : ∀ builder : TreeBuilder A, builder.Typed handles → other builder → pre builder) :
    Keeps handles other step post :=
  fun builder htyped hother => hstep builder htyped (h builder htyped hother)

end Keeps

/-- A node of the given kind below the given parent, to which there is no handle yet. -/
def Declared (handles : List (Handle A)) (parent : Option NodeIndex) (kind : NodeKind A)
    (index : NodeIndex) (builder : TreeBuilder A) : Prop :=
  (∀ type, ¬ builder.Offers handles type index) ∧ ∃ node, builder.node? index = some node ∧
    node.parent = parent ∧ node.kind = kind

theorem keeps_add (parent : Option NodeIndex) (name : String) (ownLength : LengthHint)
    (kind : NodeKind A) :
    Keeps handles (fun builder => builder.Fits handles parent kind)
      (add parent name ownLength kind) (Declared handles parent kind) := by
  intro builder htyped hfits
  cases hname : builder.checkName parent name with
  | error cause =>
      rw [add_eq_error ownLength kind hname]
      exact htyped
  | ok checked =>
      rw [add_eq_ok ownLength kind hname]
      refine ⟨htyped.push name ownLength hfits, ?_, ?_⟩
      · intro type hoffer
        obtain ⟨node, hnode⟩ := htyped.known hoffer
        cases hnode.symm.trans builder.node?_nextIndex
      · exact ⟨builder.fresh parent name ownLength kind, node?_push_nextIndex, rfl, rfl⟩

theorem Declared.backs_parent {parent : Option NodeIndex} {kind : NodeKind A} {index : NodeIndex}
    {builder : TreeBuilder A} {type : ContextType A}
    (h : Declared handles parent kind index builder)
    (hgroup : ∀ above, kind = .group → parent = some above → builder.Offers handles type above)
    (hcarrier : ∀ carrier, kind = .carrier carrier → type = carrier.lower) :
    builder.Backs handles (.parent type index) := by
  obtain ⟨hfree, node, hnode, rfl, rfl⟩ := h
  exact ⟨hfree, node, hnode, hgroup, hcarrier⟩

theorem Declared.backs_endpoint {parent : Option NodeIndex} {kind : NodeKind A}
    {index : NodeIndex} {builder : TreeBuilder A} {endpoint : EndpointDef A}
    (h : Declared handles parent kind index builder) (hkind : kind.endpoint? = some endpoint) :
    builder.Backs handles (.endpoint endpoint.type index) := by
  obtain ⟨-, node, hnode, -, rfl⟩ := h
  exact ⟨node, endpoint, hnode, hkind, rfl⟩

theorem keeps_modifyNode (index : NodeIndex) {change : Node A → Node A}
    (hchange : ∀ node : Node A, node.Retouched (change node)) {type : ContextType A}
    {target : NodeIndex} {pre : TreeBuilder A → Prop}
    (hpre : ∀ builder, pre builder → builder.Backs handles (.endpoint type target)) :
    Keeps handles pre (modifyNode index change)
      fun _ builder => builder.Backs handles (.endpoint type target) := by
  intro builder htyped h
  obtain ⟨node, endpoint, hnode, hendpoint, htype⟩ := hpre builder h
  rw [modifyNode_eq]
  cases builder.node? index with
  | none => exact htyped
  | some found =>
      refine ⟨htyped.retouch index hchange, ?_⟩
      obtain ⟨after, hafter, hretouched⟩ := node?_retouch_of_old hchange hnode
      have hkept : KindKept node.kind after.kind := hretouched.kind
      obtain ⟨other, hother, hsame⟩ := hkept.endpoint? hendpoint
      exact ⟨after, other, hafter, hother, hsame.trans htype⟩

/-- Declaring a group does not make it the group of the caches. -/
theorem keeps_firstGroup : Keeps handles (fun builder : TreeBuilder A => builder.cacheGroup = none)
    (add (some .root) "cache" (.fixed 0) .group)
    fun group builder =>
      Declared handles (some .root) .group group builder ∧ builder.cacheGroup = none := by
  intro builder htyped hnone
  have hadd := keeps_add (some .root) "cache" (.fixed 0) .group builder htyped fits_group
  cases hresult : add (some .root) "cache" (.fixed 0) .group builder with
  | error cause after =>
      rw [hresult] at hadd
      exact hadd
  | ok group after =>
      rw [hresult] at hadd
      refine ⟨hadd.1, hadd.2, ?_⟩
      rw [(add_ok hresult).2]
      exact hnone

/-- The group of the caches passes on the unit type of the root. -/
theorem keeps_cacheGroup : Keeps handles (fun _ => True) (cacheGroup (A := A))
    fun group builder => builder.Offers handles .unit group := by
  refine Keeps.look.bind fun found => ?_
  cases hgroup : found.cacheGroup with
  | some group =>
      refine .pure ?_
      rintro builder - ⟨rfl, -⟩
      exact .inr ⟨rfl, hgroup⟩
  | none =>
      refine (keeps_firstGroup.weaken ?_).bind fun group => ?_
      · rintro _ - ⟨rfl, -⟩
        exact hgroup
      have hcount : Keeps handles
          (fun builder =>
            Declared handles (some .root) .group group builder ∧ builder.cacheGroup = none)
          (modify fun builder => { builder with cacheGroup := some group })
          fun _ builder => builder.Offers handles .unit group := by
        rintro builder htyped ⟨⟨hfree, node, hnode, hparent, hkind⟩, hnone⟩
        exact ⟨htyped.grouping hnone hnode hparent hkind hfree builder.cacheSlots,
          .inr ⟨rfl, rfl⟩⟩
      exact hcount.bind fun _ => .pure fun builder _ hoffer => hoffer

/-! ### Declarations, one by one -/

variable {type parent child : ContextType A}

theorem keeps_group {above : Parent type} (name : String)
    (h : .parent type above.index ∈ handles) : Keeps handles (fun _ => True) (group above name)
      fun ref builder => builder.Backs handles (.parent type ref.index) := by
  refine ((keeps_add _ name _ _).weaken fun _ _ _ => fits_group).map ?_
  intro index builder hdeclared
  refine hdeclared.backs_parent ?_ (by rintro _ ⟨⟩)
  rintro _ - ⟨⟩
  exact .inl h

/-- A node that carries a value below what its parent offers. -/
theorem keeps_carrier {above : NodeIndex} (name : String) (codec : Carrier A)
    (h : .parent codec.upper above ∈ handles) : Keeps handles (fun _ => True)
      (carrier above name codec)
      fun index builder => builder.Backs handles (.parent codec.lower index) := by
  unfold carrier
  refine ((keeps_add _ name _ _).weaken ?_).imp ?_
  · exact fun _ _ _ => fits_carrier rfl (.inl h) (by rintro _ _ ⟨⟩)
  · intro index builder hdeclared
    refine hdeclared.backs_parent (by rintro _ ⟨⟩) ?_
    rintro _ ⟨⟩
    rfl

theorem keeps_dynamic (child : ContextType A) (name : String)
    (pick : Option (A.Env → child.El → Option (DynamicLink child))) :
    Keeps handles (fun _ => True) (dynamic child name pick)
      fun ref builder => builder.Backs handles (.parent child ref.index) := by
  refine Keeps.map ((keeps_add none name _ _).weaken ?_) ?_
  · exact fun _ _ _ => fits_dynamic
  intro index builder hdeclared
  exact hdeclared.backs_parent (by rintro _ ⟨⟩) (by rintro _ ⟨⟩)

theorem keeps_link {above : Parent parent} {target : Parent child} (name : String)
    (childOf : A.Env → parent.El → Option child.El) (h : .parent parent above.index ∈ handles)
    (htarget : .parent child target.index ∈ handles) :
    Keeps handles (fun _ => True) (link above target name childOf) fun _ _ => True := by
  refine Keeps.look.bind fun found => ?_
  have hadd : Keeps handles (fun builder => found = builder ∧ True) (do
      let index ← add (some above.index) name (.fixed 0)
        (.link target.index (.link name childOf))
      return (⟨index, target.index⟩ : LinkRef parent child)) fun _ _ => True := by
    refine ((keeps_add _ name _ _).weaken ?_).map fun _ _ _ => trivial
    refine fun _ _ _ => fits_carrier rfl (.inl h) ?_
    rintro _ _ ⟨⟩
    exact .inl htarget
  cases found.node? target.index with
  | none => exact (Keeps.refuse _).bind fun _ => hadd
  | some node =>
      cases hdynamic : node.kind.isDynamic with
      | false =>
          simp only [hdynamic]
          exact (Keeps.refuse _).bind fun _ => hadd
      | true =>
          simp only [hdynamic]
          exact hadd

theorem keeps_endpoint {above : Parent type} (name : String)
    (decode : A.Env → type.El → MessageContext A → Callback A Unit) :
    Keeps handles (fun builder => builder.Offers handles type above.index)
      (endpoint above name decode)
      fun ref builder => builder.Backs handles (.endpoint type ref.index) := by
  refine Keeps.map ((keeps_add _ name _ _).weaken ?_) ?_
  · exact fun _ _ hoffer => fits_endpoint hoffer
  · exact fun _ _ hdeclared => hdeclared.backs_endpoint rfl

theorem keeps_keyedEndpoint {above : Parent parent} (name : String)
    (codec : ContextKey A parent child)
    (decode : A.Env → child.El → MessageContext A → Callback A Unit)
    (h : .parent parent above.index ∈ handles) :
    Keeps handles (fun _ => True) (keyedEndpoint above name codec decode)
      fun ref builder => builder.Backs handles (.endpoint child ref.index) := by
  refine Keeps.map ((keeps_add _ name _ _).weaken ?_) ?_
  · exact fun _ _ _ => fits_carrier rfl (.inl h) (by rintro _ _ ⟨⟩)
  · exact fun _ _ hdeclared => hdeclared.backs_endpoint rfl

/-- Setting the length of an endpoint's payload leaves it an endpoint. -/
theorem keeps_setPayloadLength (target : EndpointRef type) (bytes : Nat) :
    Keeps handles (fun builder => builder.Backs handles (.endpoint type target.index))
      (setPayloadLength target bytes)
      fun _ builder => builder.Backs handles (.endpoint type target.index) := by
  refine Keeps.look.bind fun found => keeps_modifyNode target.index ?_ ?_
  · exact fun _ => ⟨rfl, rfl, rfl, .inl rfl⟩
  · exact fun _ h => h.2

theorem keeps_onMissing (target : EndpointRef type) (handler : MissingHandler A) :
    Keeps handles (fun builder => builder.Backs handles (.endpoint type target.index))
      (onMissing target handler)
      fun _ builder => builder.Backs handles (.endpoint type target.index) := by
  refine Keeps.look.bind fun found => ?_
  cases found.node? target.index with
  | none => exact .refuse _
  | some node =>
      have hmodify : Keeps handles (fun builder => found = builder ∧
          builder.Backs handles (.endpoint type target.index))
          (modifyNode target.index (handlingMissing handler))
          fun _ builder => builder.Backs handles (.endpoint type target.index) := by
        refine keeps_modifyNode target.index ?_ ?_
        · exact fun _ => ⟨rfl, rfl, rfl, .inr ⟨handler, rfl⟩⟩
        · exact fun _ h => h.2
      by_cases hmissing : node.kind.endpoint?.isNone = true
      · simp only [if_pos hmissing]
        exact (Keeps.refuse _).bind fun _ => hmodify
      · simp only [if_neg hmissing]
        exact hmodify

theorem keeps_cacheWithCapacity {item : A.Item} (name : String) (codec : ObjectCodec A item)
    (maxEntries : UInt32) : Keeps handles (fun _ => True)
      (cacheWithCapacity name codec maxEntries)
      fun cache builder => builder.Backs handles (.endpoint .unit cache.endpoint.index) := by
  refine keeps_cacheGroup.bind fun group => Keeps.look.bind fun found => ?_
  refine ((keeps_endpoint name _).weaken fun _ _ h => h.2).bind fun ref => ?_
  have hcount : Keeps handles
      (fun builder : TreeBuilder A => builder.Backs handles (.endpoint .unit ref.index))
      (modify fun builder => { builder with cacheSlots := found.cacheSlots + 1 })
      fun _ builder => builder.Backs handles (.endpoint .unit ref.index) := by
    intro builder htyped hbacks
    exact ⟨htyped.of_nodes rfl (fun hold => ⟨_, hold, rfl, .inl rfl⟩)
      (fun hnode hnone => by cases hnode.symm.trans hnone), hbacks⟩
  exact hcount.bind fun _ => .pure fun builder _ hbacks => hbacks

end Building

open Building TreeBuilder in
/-- **A call made with handles that were given out keeps the types**, and the handles that it
gives out tell the truth. -/
theorem BuilderCall.keeps {handles : List (Handle A)} (call : BuilderCall A)
    (hhonest : call.Honest handles) (htop : .parent .unit .root ∈ handles) :
    Keeps handles (fun _ => True) call.run
      fun issued builder => builder.Issuable handles issued := by
  have hused : ∀ {handle : Handle A} {rest : List (Handle A)}, call.uses = handle :: rest →
      handle ∈ handles := fun huses => hhonest _ (huses ▸ List.mem_cons_self)
  cases call with
  | group above name => exact (keeps_group name (hused rfl)).map fun _ _ => issuable_one
  | @key _ child above name codec =>
      have hkey : Keeps handles (fun _ => True) (Building.key above name codec)
          fun ref builder => builder.Backs handles (.parent child ref.index) :=
        (keeps_carrier name (.key codec) (hused rfl)).map fun _ _ h => h
      exact hkey.map fun _ _ => issuable_one
  | @typedGroup _ child name supply =>
      have hgroup : Keeps handles (fun _ => True) (Building.typedGroup name supply)
          fun ref builder => builder.Backs handles (.parent child ref.index) :=
        (keeps_carrier name (.attachment supply) htop).map fun _ _ h => h
      exact hgroup.map fun _ _ => issuable_one
  | @view _ child above name narrow widen =>
      have hview : Keeps handles (fun _ => True) (Building.view above name narrow widen)
          fun ref builder => builder.Backs handles (.parent child ref.index) :=
        (keeps_carrier name (.view narrow widen) (hused rfl)).map fun _ _ h => h
      exact hview.map fun _ _ => issuable_one
  | dynamic child name pick => exact (keeps_dynamic child name pick).map fun _ _ => issuable_one
  | @link owner child above target name childOf =>
      have htarget : .parent child target.index ∈ handles :=
        hhonest _ (List.mem_cons_of_mem _ (List.mem_singleton_self _))
      refine (keeps_link name childOf (hused rfl) htarget).map fun _ _ _ => issuable_one ?_
      trivial
  | endpoint above name decode =>
      refine ((keeps_endpoint name decode).weaken ?_).map fun _ _ => issuable_one
      exact fun _ _ _ => .inl (hused rfl)
  | keyedEndpoint above name codec decode =>
      exact (keeps_keyedEndpoint name codec decode (hused rfl)).map fun _ _ => issuable_one
  | signal above name handle =>
      refine Keeps.map ?_ fun _ _ => issuable_one
      refine ((keeps_endpoint name handle).weaken ?_).bind fun declared => ?_
      · exact fun _ _ _ => .inl (hused rfl)
      · exact (keeps_setPayloadLength declared 0).map fun _ _ h => h
  | setPayloadLength target bytes =>
      refine ((keeps_setPayloadLength target bytes).weaken ?_).map fun _ _ _ => issuable_none
      exact fun _ htyped _ => htyped.pointed (hused rfl)
  | onMissing target handler =>
      refine ((keeps_onMissing target handler).weaken ?_).map fun _ _ _ => issuable_none
      exact fun _ htyped _ => htyped.pointed (hused rfl)
  | cache name codec =>
      refine Keeps.map ?_ fun _ _ => issuable_one
      refine Keeps.look.bind fun found => (keeps_cacheWithCapacity name codec _).weaken ?_
      exact fun _ _ _ => trivial
  | cacheWithCapacity name codec maxEntries =>
      exact (keeps_cacheWithCapacity name codec maxEntries).map fun _ _ => issuable_one

/-- **What handles say of a built tree is true**, if no handle was made up. -/
theorem Built.typed {revision : Revision} {builder : TreeBuilder A} {handles : List (Handle A)}
    (h : Built revision (fun handles call => call.Honest handles) builder handles) :
    builder.Typed handles := by
  induction h with
  | new => exact TreeBuilder.typed_new revision
  | answered call _ hallowed hcall ih =>
      have hkeeps := call.keeps hallowed ih.top _ ih trivial
      rw [hcall] at hkeeps
      exact hkeeps.1.issue hkeeps.2
  | refused call _ hallowed hcall ih =>
      have hkeeps := call.keeps hallowed ih.top _ ih trivial
      rw [hcall] at hkeeps
      exact hkeeps

end PathWire

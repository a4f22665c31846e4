/-
The types of values on the way down.

A message's keys are read from the root down, each below the value before it.  A node suits a value
if its children expect a value of that type, and if an endpoint there takes it.  The root suits the
unit value, and going down keeps it so: a group hands on the value from above, a carrier is given
the type that it starts from and gives the one that its children see, and a link has the children
of its target, which see the type that the link gives wherever it hangs.
-/
import PathWire.Proofs.Peer.Route
import PathWire.Proofs.Tree.Typed

namespace PathWire

variable {A : Application}

/-! ### Where children hang -/

namespace Tree

variable {tree : Tree A} {index above child target : NodeIndex} {node : Node A}

/-- The node that the children seen below a node hang below: the target of a link, and else the
node itself. -/
def base (tree : Tree A) (index : NodeIndex) : NodeIndex := (tree.linkTarget? index).getD index

theorem base_own (hnode : tree.node? index = some node) (h : node.kind.target? = none) :
    tree.base index = index := by
  rw [base, linkTarget?_eq hnode, h, Option.getD_none]

theorem base_link (hnode : tree.node? index = some node) (h : node.kind.target? = some target) :
    tree.base index = target := by
  rw [base, linkTarget?_eq hnode, h, Option.getD_some]

/-- A child that is seen below a node hangs below its base. -/
theorem Shaped.hangs (hshaped : tree.Shaped) (h : child ∈ tree.childrenOf above) :
    ∃ node, tree.node? child = some node ∧ node.parent = some (tree.base above) := by
  obtain ⟨⟨node, hnode⟩, -⟩ := hshaped.seen h
  refine ⟨node, hnode, ?_⟩
  unfold childrenOf at h
  cases habove : tree.node? above with
  | none => simp [habove] at h
  | some upper =>
      simp only [habove] at h
      cases htarget : upper.kind.target? with
      | none =>
          simp only [htarget] at h
          rw [base_own habove htarget]
          exact hshaped.hung habove h hnode
      | some target =>
          simp only [htarget] at h
          cases hbase : tree.node? target with
          | none => simp [hbase] at h
          | some base =>
              simp only [hbase, Option.map_some, Option.getD_some] at h
              rw [base_link habove htarget]
              exact hshaped.hung hbase h hnode

/-- No child is seen below an endpoint. -/
theorem Shaped.childless (hshaped : tree.Shaped) (hnode : tree.node? index = some node)
    {endpoint : EndpointDef A} (hendpoint : node.kind.endpoint? = some endpoint) :
    child ∉ tree.childrenOf index := by
  intro hchild
  have htarget : node.kind.target? = none := by
    cases hkind : node.kind with
    | link => simp [hkind, NodeKind.endpoint?] at hendpoint
    | _ => rfl
  obtain ⟨below, hbelow, hparent⟩ := hshaped.hangs hchild
  rw [base_own hnode htarget] at hparent
  obtain ⟨upper, hupper, hleaf, -⟩ := hshaped.listed hbelow hparent
  cases hnode.symm.trans hupper
  cases hkind : node.kind with
  | endpoint | keyedEndpoint => simp [hkind, NodeKind.leafLabel?] at hleaf
  | _ => simp [hkind, NodeKind.endpoint?] at hendpoint

end Tree

/-- An endpoint with a value of its own takes the value that its carrier gives. -/
theorem Built.keyed {revision : Revision} {allowed : List (Handle A) → BuilderCall A → Prop}
    {builder : TreeBuilder A} {handles : List (Handle A)}
    (h : Built revision allowed builder handles) {index : NodeIndex} {node : Node A}
    (hnode : builder.build.node? index = some node) {carrier : Carrier A}
    {endpoint : EndpointDef A} (hkind : node.kind = .keyedEndpoint carrier endpoint) :
    endpoint.type = carrier.lower := by
  refine h.kinds (Q := fun kind => ∀ carrier endpoint, kind = .keyedEndpoint carrier endpoint →
    endpoint.type = carrier.lower) ?_ ?_ ?_ hnode carrier endpoint hkind
  · intro carrier endpoint hkind
    cases hkind
  · intro handles call kind hcall hadds carrier endpoint hkind
    subst hkind
    cases call with
    | keyedEndpoint =>
        cases hadds
        rfl
    | cache name codec => rcases hadds with hkind | ⟨slot, maxEntries, hkind⟩ <;> cases hkind
    | cacheWithCapacity name codec maxEntries =>
        rcases hadds with hkind | ⟨slot, hkind⟩ <;> cases hkind
    | setPayloadLength | onMissing => exact hadds.elim
    | _ => cases hadds
  · intro kind handler hkind carrier endpoint hchanged
    cases kind with
    | keyedEndpoint own before =>
        cases hchanged
        exact hkind _ before rfl
    | _ => cases hchanged

/-! ### Nodes that suit a value -/

namespace TreeBuilder

variable {builder : TreeBuilder A} {handles : List (Handle A)}

/-- The children seen below a node expect a value of this type, and an endpoint there takes it. -/
structure Suits (builder : TreeBuilder A) (handles : List (Handle A)) (index : NodeIndex)
    (value : Value A) : Prop where
  expected : ∀ {child type}, child ∈ builder.build.childrenOf index →
    builder.Offers handles type (builder.build.base index) → type = value.type
  taken : ∀ {node endpoint}, builder.node? index = some node →
    node.kind.endpoint? = some endpoint → endpoint.type = value.type

section Suits

variable {above index : NodeIndex} {node : Node A} {value : Value A}

/-- A node that is no endpoint suits the values that its children expect. -/
theorem suits_inner (hnode : builder.node? index = some node) (hnone : node.kind.endpoint? = none)
    {base : NodeIndex} (hbase : builder.build.base index = base)
    (hexpected : ∀ {type}, builder.Offers handles type base → type = value.type) :
    builder.Suits handles index value where
  expected _ hoffer := hexpected (hbase ▸ hoffer)
  taken := by
    intro found endpoint hfound hendpoint
    cases hnode.symm.trans hfound
    rw [hnone] at hendpoint
    cases hendpoint

/-- An endpoint suits the values that it takes. -/
theorem suits_end (hshaped : builder.build.Shaped) (hnode : builder.node? index = some node)
    {endpoint : EndpointDef A} (hendpoint : node.kind.endpoint? = some endpoint)
    (htype : endpoint.type = value.type) : builder.Suits handles index value where
  expected hbelow := absurd hbelow (hshaped.childless hnode hendpoint)
  taken := by
    intro found other hfound hother
    cases hnode.symm.trans hfound
    cases hendpoint.symm.trans hother
    exact htype

theorem Typed.suits_root (htyped : builder.Typed handles) (hnode : builder.node? .root = some node)
    (hkind : node.kind = .root) : builder.Suits handles .root .unit := by
  have hbase : builder.build.base .root = .root := Tree.base_own hnode (by rw [hkind]; rfl)
  exact suits_inner hnode (by rw [hkind]; rfl) hbase htyped.root

/-- A node below another one, and not at the top of a tree of its own. -/
theorem Typed.not_top (htyped : builder.Typed handles) {upper : NodeIndex}
    (hnode : builder.node? index = some node) (hparent : node.parent = some upper) :
    node.kind ≠ .root ∧ node.kind.isDynamic = false := by
  have horphan := (htyped.fits hnode).orphan
  constructor
  · intro hkind
    rw [horphan (.inl hkind)] at hparent
    cases hparent
  · by_contra hdynamic
    rw [horphan (.inr (by simpa using hdynamic))] at hparent
    cases hparent

/-- A node without a value of its own suits the value from above. -/
theorem Suits.plain (hshaped : builder.build.Shaped) (htyped : builder.Typed handles)
    (h : builder.Suits handles above value) (hchild : index ∈ builder.build.childrenOf above)
    (hnode : builder.node? index = some node) (hcarrier : node.kind.carrier? = none) :
    builder.Suits handles index value := by
  obtain ⟨same, hsame, hparent⟩ := hshaped.hangs hchild
  cases hnode.symm.trans hsame
  obtain ⟨hroot, hdynamic⟩ := htyped.not_top hnode hparent
  cases hkind : node.kind with
  | root => exact absurd hkind hroot
  | dynamic resolver => simp [hkind, NodeKind.isDynamic] at hdynamic
  | carrier | link | keyedEndpoint => simp [hkind, NodeKind.carrier?] at hcarrier
  | group =>
      have hbase : builder.build.base index = index := Tree.base_own hnode (by rw [hkind]; rfl)
      refine suits_inner hnode (by rw [hkind]; rfl) hbase fun hoffer => ?_
      exact h.expected hchild (htyped.grouped hnode hkind hparent hoffer)
  | endpoint endpoint =>
      refine suits_end hshaped hnode (by rw [hkind]; rfl) ?_
      exact h.expected hchild ((htyped.fits hnode).ended hkind hparent)

/-- A carrier starts from the value above it. -/
theorem Suits.upper (hshaped : builder.build.Shaped) (htyped : builder.Typed handles)
    (h : builder.Suits handles above value) (hchild : index ∈ builder.build.childrenOf above)
    (hnode : builder.node? index = some node) {carrier : Carrier A}
    (hcarrier : node.kind.carrier? = some carrier) : carrier.upper = value.type := by
  obtain ⟨same, hsame, hparent⟩ := hshaped.hangs hchild
  cases hnode.symm.trans hsame
  exact h.expected hchild ((htyped.fits hnode).carried hcarrier hparent)

/-- A node with a value of its own suits what its carrier gives, wherever it is reached. -/
theorem suits_lower {revision : Revision} {allowed : List (Handle A) → BuilderCall A → Prop}
    (hbuilt : Built revision allowed builder handles) (htyped : builder.Typed handles)
    (hnode : builder.node? index = some node) {carrier : Carrier A}
    (hcarrier : node.kind.carrier? = some carrier) (hvalue : value.type = carrier.lower) :
    builder.Suits handles index value := by
  cases hkind : node.kind with
  | root | group | dynamic | endpoint => simp [hkind, NodeKind.carrier?] at hcarrier
  | carrier own =>
      obtain rfl : own = carrier := by simpa [hkind, NodeKind.carrier?] using hcarrier
      have hbase : builder.build.base index = index := Tree.base_own hnode (by rw [hkind]; rfl)
      refine suits_inner hnode (by rw [hkind]; rfl) hbase fun hoffer => ?_
      rw [hvalue]
      exact htyped.lowered hnode hkind hoffer
  | link target own =>
      obtain rfl : own = carrier := by simpa [hkind, NodeKind.carrier?] using hcarrier
      have hbase : builder.build.base index = target := Tree.base_link hnode (by rw [hkind]; rfl)
      refine suits_inner hnode (by rw [hkind]; rfl) hbase fun hoffer => ?_
      rw [hvalue]
      exact htyped.alone hoffer ((htyped.fits hnode).linked hkind)
  | keyedEndpoint own endpoint =>
      obtain rfl : own = carrier := by simpa [hkind, NodeKind.carrier?] using hcarrier
      refine suits_end hbuilt.shaped hnode (by rw [hkind]; rfl) ?_
      rw [hvalue]
      exact hbuilt.keyed hnode hkind

end Suits

end TreeBuilder

end PathWire

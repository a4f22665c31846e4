/-
Links that the sender chooses.

A sender may name the link for a Dynamic node on the way instead of leaving it to the node's
resolver.  A climb puts its nodes on top of whatever is below it already, so what a choice changes
can be seen from the route: if the climb comes by no link to the Dynamic node it is the same climb
with and without the choice, and above the chosen link it goes on with the owner that belongs to
it.  The choice is for the Dynamic node and not for one place on the way, so it is in force above
its own link too; if the owner's way comes by the same Dynamic node once more, then the climb goes
round for ever.
-/
import PathWire.Proofs.Peer.Faithful
import PathWire.Proofs.Peer.Resolution
import PathWire.Proofs.Tree.Descent

namespace PathWire

variable {A : Application} {tree : Tree A}

/-! ### Routes on top of routes -/

namespace Route

/-- A route with another one on top of it. -/
def append (upper lower : Route A) : Route A where
  nodes := upper.nodes ++ lower.nodes
  keys := upper.keys ++ lower.keys
  values := upper.values ++ lower.values

variable {upper below lower route : Route A} {index target : NodeIndex} {value : Value A}

@[simp] theorem append_nodes : (upper.append lower).nodes = upper.nodes ++ lower.nodes := rfl

@[simp] theorem addKey_nodes : (below.addKey index value).nodes = index :: below.nodes := rfl

@[simp] theorem addNode_nodes : (below.addNode index).nodes = index :: below.nodes := rfl

@[simp] theorem empty_nodes : (empty : Route A).nodes = [] := rfl

theorem append_empty (upper : Route A) : upper.append .empty = upper := by
  simp [append, empty]

theorem addKey_append (upper lower : Route A) (index : NodeIndex) (value : Value A) :
    upper.append (lower.addKey index value)
      = (upper.append (Route.empty.addKey index value)).append lower := by
  simp [append, addKey, empty]

theorem addNode_append (upper lower : Route A) (index : NodeIndex) :
    upper.append (lower.addNode index)
      = (upper.append (Route.empty.addNode index)).append lower := by
  simp [append, addNode, empty]

/-- A route comes by a link to a Dynamic node. -/
def Meets (tree : Tree A) (target : NodeIndex) (route : Route A) : Prop :=
  ∃ index ∈ route.nodes, tree.linkTarget? index = some target

theorem not_meets_empty : ¬ (empty : Route A).Meets tree target := by
  rintro ⟨index, hmem, -⟩
  cases hmem

@[simp] theorem meets_append : (upper.append lower).Meets tree target ↔
    upper.Meets tree target ∨ lower.Meets tree target := by
  simp [Meets, or_and_right, exists_or]

@[simp] theorem meets_addKey : (below.addKey index value).Meets tree target ↔
    tree.linkTarget? index = some target ∨ below.Meets tree target := by
  simp [Meets]

@[simp] theorem meets_addNode : (below.addNode index).Meets tree target ↔
    tree.linkTarget? index = some target ∨ below.Meets tree target := by
  simp [Meets]

/-! ### Climbs on top of routes -/

section Climbs

variable {env : A.Env} {chosen other : Option (LinkChoice A)} {above : NodeIndex} {left : Nat}
  {node linkNode : Node A}

/-- A climb does not look at what is below. -/
theorem Climbs.apart (h : Climbs tree env chosen index value below route) :
    ∃ upper : Route A, route = upper.append below ∧
      ∀ lower, Climbs tree env chosen index value lower (upper.append lower) := by
  induction h with
  | root hnode hkind => exact ⟨.empty, rfl, fun lower => .root hnode hkind⟩
  | dynamic hnode hkind hlink hlinkNode htarget habove _ ih =>
      obtain ⟨upper, rfl, hupper⟩ := ih
      refine ⟨_, addKey_append upper _ _ _, fun lower => ?_⟩
      rw [← addKey_append]
      exact .dynamic hnode hkind hlink hlinkNode htarget habove (hupper _)
  | carrier hnode hcarrier hvalue habove _ ih =>
      obtain ⟨upper, rfl, hupper⟩ := ih
      refine ⟨_, addKey_append upper _ _ _, fun lower => ?_⟩
      rw [← addKey_append]
      exact .carrier hnode hcarrier hvalue habove (hupper _)
  | plain hnode hcarrier hroot hdynamic habove _ ih =>
      obtain ⟨upper, rfl, hupper⟩ := ih
      refine ⟨_, addNode_append upper _ _, fun lower => ?_⟩
      rw [← addNode_append]
      exact .plain hnode hcarrier hroot hdynamic habove (hupper _)

theorem Climbs.split (h : Climbs tree env chosen index value below route) :
    ∃ upper, Climbs tree env chosen index value .empty upper ∧ route = upper.append below := by
  obtain ⟨upper, rfl, hupper⟩ := h.apart
  have hown := hupper .empty
  rw [append_empty] at hown
  exact ⟨upper, hown, rfl⟩

theorem Climbs.lift (h : Climbs tree env chosen index value .empty upper) (lower : Route A) :
    Climbs tree env chosen index value lower (upper.append lower) := by
  obtain ⟨same, hsame, hupper⟩ := h.apart
  rw [append_empty] at hsame
  rw [hsame]
  exact hupper lower

/-! ### The function climbs -/

/-- At a Dynamic node the climb goes on above the link for it. -/
theorem climb_linked {resolver : Option (Resolver A)} {link : LinkChoice A}
    (hnode : tree.node? index = some node) (hkind : node.kind = .dynamic resolver)
    (hlink : linkFor env chosen index node.name resolver value = .ok link)
    (hlinkNode : tree.node? link.link = some linkNode)
    (htarget : linkNode.kind.target? = some index) (habove : linkNode.parent = some above) :
    climb tree env chosen (left + 1) index value below
      = climb tree env chosen left above link.parent (below.addKey link.link value) := by
  conv => lhs; unfold climb
  rw [Result.bind_ok (Tree.node_of_node? hnode)]
  simp only [hkind]
  rw [Result.bind_ok hlink, Result.bind_ok (Tree.node_of_node? hlinkNode)]
  simp only [htarget, bne_self_eq_false, Bool.false_eq_true, if_false, Route.above, habove]
  rfl

/-- A carrier derives the value above its own. -/
theorem climb_carrier {carrier : Carrier A} {parentValue : Value A}
    (hnode : tree.node? index = some node) (hcarrier : node.kind.carrier? = some carrier)
    (hvalue : carrier.toParent env value = .ok parentValue) (habove : node.parent = some above) :
    climb tree env chosen (left + 1) index value below
      = climb tree env chosen left above parentValue (below.addKey index value) := by
  obtain ⟨hroot, hdynamic⟩ := NodeKind.concrete_of_carrier? (Option.isSome_of_eq_some hcarrier)
  rw [climb_step hnode hroot hdynamic]
  simp only [hcarrier]
  rw [Result.bind_ok hvalue]
  simp only [Route.above, habove]
  rfl

theorem climb_plain (hnode : tree.node? index = some node) (hcarrier : node.kind.carrier? = none)
    (hroot : node.kind ≠ .root) (hdynamic : node.kind.isDynamic = false)
    (habove : node.parent = some above) :
    climb tree env chosen (left + 1) index value below
      = climb tree env chosen left above value (below.addNode index) := by
  rw [climb_step hnode hroot hdynamic]
  simp only [hcarrier, Route.above, habove]
  rfl

/-- Every climb that is short enough is found. -/
theorem Climbs.climb_eq (h : Climbs tree env chosen index value below route) :
    ∀ left, route.nodes.length < below.nodes.length + left →
      climb tree env chosen left index value below = .ok route := by
  induction h with
  | root hnode hkind =>
      intro left hleft
      obtain ⟨left, rfl⟩ := Nat.exists_eq_add_one.mpr (show 0 < left by omega)
      exact climb_root hnode hkind
  | dynamic hnode hkind hlink hlinkNode htarget habove hrest ih =>
      intro left hleft
      have hlonger := hrest.suffix.length_le
      rw [length_addKey] at hlonger ih
      obtain ⟨left, rfl⟩ := Nat.exists_eq_add_one.mpr (show 0 < left by omega)
      rw [climb_linked hnode hkind hlink hlinkNode htarget habove]
      exact ih _ (by omega)
  | carrier hnode hcarrier hvalue habove hrest ih =>
      intro left hleft
      have hlonger := hrest.suffix.length_le
      rw [length_addKey] at hlonger ih
      obtain ⟨left, rfl⟩ := Nat.exists_eq_add_one.mpr (show 0 < left by omega)
      rw [climb_carrier hnode hcarrier hvalue habove]
      exact ih _ (by omega)
  | plain hnode hcarrier hroot hdynamic habove hrest ih =>
      intro left hleft
      have hlonger := hrest.suffix.length_le
      rw [length_addNode] at hlonger ih
      obtain ⟨left, rfl⟩ := Nat.exists_eq_add_one.mpr (show 0 < left by omega)
      rw [climb_plain hnode hcarrier hroot hdynamic habove]
      exact ih _ (by omega)

/-- There is one climb from a node with a value. -/
theorem Climbs.unique {another : Route A} (h : Climbs tree env chosen index value below route)
    (hanother : Climbs tree env chosen index value below another) : route = another := by
  have hfirst := h.climb_eq (route.nodes.length + another.nodes.length + 1) (by omega)
  have hsecond := hanother.climb_eq (route.nodes.length + another.nodes.length + 1) (by omega)
  exact Except.ok.inj (hfirst.symm.trans hsecond)

/-- A route is found if there is a climb to it that is not too deep. -/
theorem resolve_eq_ok : resolve tree env index value chosen = .ok route ↔
    Climbs tree env chosen index value .empty route ∧
      route.nodes.length ≤ tree.revision.maxPathDepth := by
  constructor
  · intro h
    obtain ⟨hclimbs, hlength⟩ := climb_ok _ h
    rw [empty_nodes, List.length_nil] at hlength
    exact ⟨hclimbs, by omega⟩
  · rintro ⟨hclimbs, hlength⟩
    refine hclimbs.climb_eq _ ?_
    rw [empty_nodes, List.length_nil]
    omega

end Climbs

/-! ### Climbs with and without a choice -/

section Choice

variable {env : A.Env} {choice : LinkChoice A} {above : NodeIndex} {name : String}
  {resolver : Option (Resolver A)} {node : Node A}

theorem linkFor_chosen (env : A.Env) (choice : LinkChoice A) (name : String)
    (resolver : Option (Resolver A)) (value : Value A) :
    linkFor env (some choice) choice.dynamic name resolver value = .ok choice := by
  unfold linkFor
  rw [Option.filter_some, if_pos (beq_self_eq_true _)]
  rfl

/-- A choice says nothing about other Dynamic nodes. -/
theorem linkFor_other (h : index ≠ choice.dynamic) :
    linkFor env (some choice) index name resolver value
      = linkFor env none index name resolver value := by
  have hother : (choice.dynamic == index) = false := beq_eq_false_iff_ne.mpr h.symm
  unfold linkFor
  rw [Option.filter_some, hother]
  rfl

variable {chosen other : Option (LinkChoice A)} {upper below lower route : Route A}

/-- A climb that does not come by a Dynamic node is the same whatever the link for it. -/
theorem Climbs.swap {dynamic : NodeIndex}
    (hsame : ∀ target name resolver value, target ≠ dynamic →
      linkFor env chosen target name resolver value = linkFor env other target name resolver value)
    (h : Climbs tree env chosen index value below route) :
    ¬ route.Meets tree dynamic → Climbs tree env other index value below route := by
  induction h with
  | root hnode hkind => exact fun _ => .root hnode hkind
  | @dynamic index _ _ _ route _ linkNode _ link hnode hkind hlink hlinkNode htarget habove hrest
      ih =>
      intro havoids
      have hlinked := (Tree.linkTarget?_eq hlinkNode).trans htarget
      have hne : index ≠ dynamic := by
        rintro rfl
        exact havoids ⟨link.link, hrest.suffix.subset List.mem_cons_self, hlinked⟩
      rw [hsame _ _ _ _ hne] at hlink
      exact .dynamic hnode hkind hlink hlinkNode htarget habove (ih havoids)
  | carrier hnode hcarrier hvalue habove _ ih =>
      exact fun havoids => .carrier hnode hcarrier hvalue habove (ih havoids)
  | plain hnode hcarrier hroot hdynamic habove _ ih =>
      exact fun havoids => .plain hnode hcarrier hroot hdynamic habove (ih havoids)

/-- A climb that does not come by the chosen link's Dynamic node needs no choice. -/
theorem Climbs.unchosen (h : Climbs tree env (some choice) index value below route)
    (havoids : ¬ route.Meets tree choice.dynamic) : Climbs tree env none index value below route :=
  h.swap (fun _ _ _ _ hne => linkFor_other hne) havoids

theorem Climbs.under (h : Climbs tree env none index value below route)
    (havoids : ¬ route.Meets tree choice.dynamic) :
    Climbs tree env (some choice) index value below route :=
  h.swap (fun _ _ _ _ hne => (linkFor_other hne).symm) havoids

/-- Nothing hangs below a link. -/
theorem linkTarget?_above (hshaped : tree.Shaped) (hnode : tree.node? index = some node)
    (habove : node.parent = some above) : tree.linkTarget? above = none := by
  obtain ⟨upper, hupper, hleaf, -⟩ := hshaped.listed hnode habove
  rw [Tree.linkTarget?_eq hupper, NodeKind.target?_of_leafLabel? hleaf]

/-- Where a climb comes by the chosen link's Dynamic node for the first time, it puts the link
there and goes on with the owner. -/
theorem Climbs.meeting (hshaped : tree.Shaped)
    (h : Climbs tree env (some choice) index value below route) :
    tree.linkTarget? index = none → ¬ below.Meets tree choice.dynamic →
      route.Meets tree choice.dynamic →
      ∃ (above : NodeIndex) (owned : Value A) (lower upper : Route A),
        tree.linkTarget? choice.link = some choice.dynamic ∧
        tree.parent? choice.link = some above ∧ ¬ lower.Meets tree choice.dynamic ∧
        Climbs tree env (some choice) above choice.parent .empty upper ∧
        route = upper.append (lower.addKey choice.link owned) := by
  induction h with
  | root _ _ => exact fun _ havoids hmeets => absurd hmeets havoids
  | @dynamic index above value below _ node linkNode resolver link _ _ hlink hlinkNode htarget
      habove hrest ih =>
      intro _ havoids hmeets
      have hlinked := (Tree.linkTarget?_eq hlinkNode).trans htarget
      by_cases hindex : index = choice.dynamic
      · subst hindex
        cases (linkFor_chosen env choice node.name resolver value).symm.trans hlink
        obtain ⟨upper, hupper, rfl⟩ := hrest.split
        refine ⟨above, value, below, upper, hlinked, ?_, havoids, hupper, rfl⟩
        rw [Tree.parent?_eq hlinkNode, habove]
      · refine ih (linkTarget?_above hshaped hlinkNode habove) ?_ hmeets
        rw [meets_addKey, hlinked, Option.some.injEq]
        exact not_or.mpr ⟨hindex, havoids⟩
  | carrier hnode _ _ habove _ ih =>
      intro hplace havoids hmeets
      refine ih (linkTarget?_above hshaped hnode habove) ?_ hmeets
      rw [meets_addKey, hplace]
      exact not_or.mpr ⟨(Option.some_ne_none _).symm, havoids⟩
  | plain hnode _ _ _ habove _ ih =>
      intro hplace havoids hmeets
      refine ih (linkTarget?_above hshaped hnode habove) ?_ hmeets
      rw [meets_addNode, hplace]
      exact not_or.mpr ⟨(Option.some_ne_none _).symm, havoids⟩

theorem parent?_eq_some (h : tree.parent? index = some above) :
    ∃ node, tree.node? index = some node ∧ node.parent = some above :=
  Option.bind_eq_some_iff.mp h

/-- With the choice in force, the owner's way does not come by the Dynamic node again: a way that
did would go on with the owner there, and so be a part of itself. -/
theorem Climbs.owner_avoids (hshaped : tree.Shaped) (habove : tree.parent? choice.link = some above)
    (h : Climbs tree env (some choice) above choice.parent .empty upper) :
    ¬ upper.Meets tree choice.dynamic := by
  intro hmeets
  obtain ⟨linkNode, hlinkNode, hparent⟩ := parent?_eq_some habove
  obtain ⟨again, owned, lower, shorter, -, hagain, -, hshorter, hupper⟩ :=
    h.meeting hshaped (linkTarget?_above hshaped hlinkNode hparent) not_meets_empty hmeets
  cases habove.symm.trans hagain
  obtain rfl := hshorter.unique h
  have hlength := congrArg (fun route : Route A => route.nodes.length) hupper
  simp at hlength

/-! ### Going round

A climb that is at the chosen link's Dynamic node, or on a way that leads there, comes back to it
time and again if the owner's own way does. -/

/-- The way that resolvers find from a node leads to a Dynamic node. -/
def Leads (tree : Tree A) (env : A.Env) (target index : NodeIndex) (value : Value A) : Prop :=
  index = target ∨ tree.linkTarget? index = none ∧
    ∃ route, Climbs tree env none index value .empty route ∧ route.Meets tree target

/-- One turn of a climb that leads to the chosen link's Dynamic node. -/
theorem Leads.step (hshaped : tree.Shaped) {goal : Node A}
    (hgoal : tree.node? choice.dynamic = some goal) (hkind : goal.kind = .dynamic resolver)
    (htarget : tree.linkTarget? choice.link = some choice.dynamic)
    (habove : tree.parent? choice.link = some above)
    (howner : Climbs tree env none above choice.parent .empty upper)
    (hmeets : upper.Meets tree choice.dynamic)
    (h : Leads tree env choice.dynamic index value) (below : Route A) (left : Nat) :
    ∃ next upperValue longer, Leads tree env choice.dynamic next upperValue ∧
      longer.nodes.length = below.nodes.length + 1 ∧
      climb tree env (some choice) (left + 1) index value below
        = climb tree env (some choice) left next upperValue longer := by
  obtain ⟨linkNode, hlinkNode, hparent⟩ := parent?_eq_some habove
  by_cases hindex : index = choice.dynamic
  · subst hindex
    rw [Tree.linkTarget?_eq hlinkNode] at htarget
    exact ⟨above, choice.parent, _,
      .inr ⟨linkTarget?_above hshaped hlinkNode hparent, upper, howner, hmeets⟩,
      length_addKey below choice.link value,
      climb_linked hgoal hkind (linkFor_chosen env choice _ _ _) hlinkNode htarget hparent⟩
  obtain ⟨hplace, route, hroute, hmeets⟩ := h.resolve_left hindex
  cases hroute with
  | root _ _ => exact absurd hmeets not_meets_empty
  | @dynamic _ next _ _ _ node linkNode _ link hnode hkind hlink hlinkNode htarget hnext hrest =>
      obtain ⟨rest, hway, rfl⟩ := hrest.split
      have hlinked := (Tree.linkTarget?_eq hlinkNode).trans htarget
      have hcome : rest.Meets tree choice.dynamic := by
        simpa [hlinked, hindex, not_meets_empty] using hmeets
      rw [← linkFor_other hindex] at hlink
      exact ⟨next, link.parent, _,
        .inr ⟨linkTarget?_above hshaped hlinkNode hnext, rest, hway, hcome⟩,
        length_addKey below link.link value,
        climb_linked hnode hkind hlink hlinkNode htarget hnext⟩
  | @carrier _ next _ upperValue _ _ node _ hnode hcarrier hvalue hnext hrest =>
      obtain ⟨rest, hway, rfl⟩ := hrest.split
      have hcome : rest.Meets tree choice.dynamic := by
        simpa [hplace, not_meets_empty] using hmeets
      exact ⟨next, upperValue, _,
        .inr ⟨linkTarget?_above hshaped hnode hnext, rest, hway, hcome⟩,
        length_addKey below index value, climb_carrier hnode hcarrier hvalue hnext⟩
  | @plain _ next _ _ _ node hnode hcarrier hroot hdynamic hnext hrest =>
      obtain ⟨rest, hway, rfl⟩ := hrest.split
      have hcome : rest.Meets tree choice.dynamic := by
        simpa [hplace, not_meets_empty] using hmeets
      exact ⟨next, value, _,
        .inr ⟨linkTarget?_above hshaped hnode hnext, rest, hway, hcome⟩,
        length_addNode below index, climb_plain hnode hcarrier hroot hdynamic hnext⟩

/-- **A climb that goes round gets too deep.** -/
theorem Leads.too_deep (hshaped : tree.Shaped) {goal : Node A}
    (hgoal : tree.node? choice.dynamic = some goal) (hkind : goal.kind = .dynamic resolver)
    (htarget : tree.linkTarget? choice.link = some choice.dynamic)
    (habove : tree.parent? choice.link = some above)
    (howner : Climbs tree env none above choice.parent .empty upper)
    (hmeets : upper.Meets tree choice.dynamic) (left : Nat) :
    ∀ {index : NodeIndex} {value : Value A} {below : Route A},
      Leads tree env choice.dynamic index value →
      left + below.nodes.length = tree.revision.maxPathDepth + 1 →
      climb tree env (some choice) left index value below = .error
        (.pathTooDeep (tree.revision.maxPathDepth + 1) tree.revision.maxPathDepth) := by
  induction left with
  | zero =>
      intro index value below _ hleft
      rw [Nat.zero_add] at hleft
      rw [← hleft]
      rfl
  | succ left ih =>
      intro index value below h hleft
      obtain ⟨next, upperValue, longer, hnext, hlength, hclimb⟩ :=
        h.step hshaped hgoal hkind htarget habove howner hmeets below left
      rw [hclimb]
      exact ih hnext (by omega)

end Choice

end Route

/-! ### Up to the Dynamic node

Below the Dynamic node there is nothing to choose.  The climb follows the parents, and every node
on the way has a value of its own type. -/

/-- The carrier finds the value above every value of its type. -/
def Carrier.Derives (carrier : Carrier A) : Prop :=
  ∀ env value, value.type = carrier.lower → ∃ upper, carrier.toParent env value = .ok upper

theorem Carrier.key_derives {parent child : ContextType A} (codec : ContextKey A parent child) :
    (Carrier.key codec).Derives := by
  rintro env ⟨type, data⟩ rfl
  exact ⟨_, Result.bind_ok (Value.as_eq.mpr rfl)⟩

theorem Carrier.view_derives {parent child : ContextType A}
    (narrow : A.Env → parent.El → Option child.El) (widen : A.Env → child.El → parent.El) :
    (Carrier.view narrow widen).Derives := by
  rintro env ⟨type, data⟩ rfl
  exact ⟨_, Result.bind_ok (Value.as_eq.mpr rfl)⟩

theorem Carrier.attachment_derives {attached child : ContextType A}
    (supply : A.Env → attached.El → Option child.El) : (Carrier.attachment supply).Derives :=
  fun _ _ _ => ⟨.unit, rfl⟩

/-- Links apart, every carrier of a built tree derives. -/
theorem Built.derives {revision : Revision} {allowed : List (Handle A) → BuilderCall A → Prop}
    {builder : TreeBuilder A} {handles : List (Handle A)}
    (h : Built revision allowed builder handles) {index : NodeIndex} {node : Node A}
    (hnode : builder.build.node? index = some node) (hplace : node.kind.target? = none)
    {carrier : Carrier A} (hcarrier : node.kind.carrier? = some carrier) : carrier.Derives := by
  refine h.kinds (Q := fun kind => ∀ carrier, kind.target? = none → kind.carrier? = some carrier →
    carrier.Derives) ?_ ?_ ?_ hnode carrier hplace hcarrier
  · intro carrier _ hcarrier
    cases hcarrier
  · intro handles call kind hcall hadds carrier hplace hcarrier
    cases call with
    | key above name codec =>
        cases hadds
        cases hcarrier
        exact Carrier.key_derives codec
    | keyedEndpoint above name codec decode =>
        cases hadds
        cases hcarrier
        exact Carrier.key_derives codec
    | typedGroup name supply =>
        cases hadds
        cases hcarrier
        exact Carrier.attachment_derives supply
    | view above name narrow widen =>
        cases hadds
        cases hcarrier
        exact Carrier.view_derives narrow widen
    | link =>
        cases hadds
        cases hplace
    | cache => rcases hadds with rfl | ⟨slot, maxEntries, rfl⟩ <;> cases hcarrier
    | cacheWithCapacity => rcases hadds with rfl | ⟨slot, rfl⟩ <;> cases hcarrier
    | setPayloadLength | onMissing => exact hadds.elim
    | group | dynamic | endpoint | signal =>
        cases hadds
        cases hcarrier
  · intro kind handler hkind carrier hplace hcarrier
    cases kind with
    | keyedEndpoint => exact hkind carrier hplace hcarrier
    | carrier | link => exact hkind carrier hplace hcarrier
    | _ => cases hcarrier

theorem Tree.Lineage.ne_nil {way : List NodeIndex} {index : NodeIndex}
    (h : tree.Lineage way index) : way ≠ [] := by
  cases h with
  | top => exact List.cons_ne_nil _ _
  | child => exact List.concat_ne_nil _ _

section Built

variable {revision : Revision} {builder : TreeBuilder A} {handles : List (Handle A)}
  {env : A.Env} {index : NodeIndex} {node : Node A} {value : Value A}

/-- A value that stands at a carrier is of the type that the carrier gives. -/
theorem Built.held_lower {allowed : List (Handle A) → BuilderCall A → Prop}
    (hbuilt : Built revision allowed builder handles) (htyped : builder.Typed handles)
    (hnode : builder.build.node? index = some node) (hplace : node.kind.target? = none)
    {carrier : Carrier A} (hcarrier : node.kind.carrier? = some carrier) {type : ContextType A}
    (hheld : builder.Holds handles index type) : type = carrier.lower := by
  obtain ⟨same, hsame, hheld⟩ := hheld
  cases hnode.symm.trans hsame
  cases hkind : node.kind with
  | root | group | dynamic | endpoint => simp [hkind, NodeKind.carrier?] at hcarrier
  | link => simp [hkind, NodeKind.target?] at hplace
  | carrier own =>
      obtain rfl : own = carrier := by simpa [hkind, NodeKind.carrier?] using hcarrier
      rcases hheld with ⟨-, hoffer⟩ | ⟨endpoint, hendpoint, -⟩
      · exact htyped.lowered hnode hkind hoffer
      · simp [hkind, NodeKind.endpoint?] at hendpoint
  | keyedEndpoint own endpoint =>
      obtain rfl : own = carrier := by simpa [hkind, NodeKind.carrier?] using hcarrier
      rcases hheld with ⟨hleaf, -⟩ | ⟨other, hother, rfl⟩
      · simp [hkind, NodeKind.leafLabel?] at hleaf
      · obtain rfl : endpoint = other := by simpa [hkind, NodeKind.endpoint?] using hother
        exact hbuilt.keyed hnode hkind

open Route in
/-- A climb along the parents comes to their top, whatever is below and whatever is chosen. -/
theorem Built.climb_lineage {allowed : List (Handle A) → BuilderCall A → Prop}
    (hbuilt : Built revision allowed builder handles) (htyped : builder.Typed handles)
    (env : A.Env) {ancestry : List NodeIndex} (h : builder.build.Lineage ancestry index) :
    ∀ {top : NodeIndex} {way : List NodeIndex} {value : Value A}, ancestry = top :: way →
      builder.build.linkTarget? index = none → builder.Holds handles index value.type →
      ∃ (owned : Value A) (lower : Route A), lower.nodes = way ∧
        ∀ chosen left below, climb builder.build env chosen (left + way.length) index value below
          = climb builder.build env chosen left top owned (lower.append below) := by
  induction h with
  | top =>
      intro top way value hancestry _ _
      cases hancestry
      exact ⟨value, .empty, rfl, fun _ _ _ => rfl⟩
  | @child ancestry above index node hlineage hnode habove ih =>
      intro top way value hancestry hplace hheld
      obtain ⟨first, rest, rfl⟩ := List.exists_cons_of_ne_nil hlineage.ne_nil
      rw [List.cons_append] at hancestry
      cases hancestry
      have hupper := linkTarget?_above hbuilt.shaped hnode habove
      rw [Tree.linkTarget?_eq hnode] at hplace
      cases hcarrier : node.kind.carrier? with
      | some carrier =>
          obtain ⟨upper, hvalue⟩ := hbuilt.derives hnode hplace hcarrier env value
            (hbuilt.held_lower htyped hnode hplace hcarrier hheld)
          have hoffers := (htyped.fits hnode).carried hcarrier habove
          rw [← Carrier.toParent_type hvalue] at hoffers
          have hupperHeld := TreeBuilder.holds_above hbuilt.shaped hnode habove hoffers
          obtain ⟨owned, lower, rfl, hclimb⟩ := ih rfl hupper hupperHeld
          refine ⟨owned, lower.append (Route.empty.addKey index value), rfl,
            fun chosen left below => ?_⟩
          rw [List.length_append, List.length_singleton, ← Nat.add_assoc,
            climb_carrier hnode hcarrier hvalue habove, hclimb, addKey_append]
      | none =>
          obtain ⟨hroot, hdynamic⟩ := htyped.not_top hnode habove
          have hoffers := htyped.holds_plain hnode hcarrier hroot hdynamic habove hheld
          have hupperHeld := TreeBuilder.holds_above hbuilt.shaped hnode habove hoffers
          obtain ⟨owned, lower, rfl, hclimb⟩ := ih rfl hupper hupperHeld
          refine ⟨owned, lower.append (Route.empty.addNode index), rfl,
            fun chosen left below => ?_⟩
          rw [List.length_append, List.length_singleton, ← Nat.add_assoc,
            climb_plain hnode hcarrier hroot hdynamic habove, hclimb, addNode_append]

end Built

open Route in
/-- **A chosen link is put in the place of its Dynamic node, below the way that resolvers find for
the owner**, if that way does not come by the Dynamic node itself; and if it does, then the climb
goes round until it is too deep.  This is so for every tree that was built with handles given out,
every endpoint below the Dynamic node and every value of its type. -/
theorem chosen_link_composes {revision : Revision} {builder : TreeBuilder A}
    {handles : List (Handle A)}
    (hbuilt : Built revision (fun handles call => call.Honest handles) builder handles)
    {endpoint : NodeIndex} {value : Value A} (hendpoint : .endpoint value.type endpoint ∈ handles)
    {choice : LinkChoice A}
    (htarget : builder.build.linkTarget? choice.link = some choice.dynamic)
    {way : List NodeIndex} (hway : builder.build.Lineage (choice.dynamic :: way) endpoint)
    {above : NodeIndex} (habove : builder.build.parent? choice.link = some above) {env : A.Env}
    {upper : Route A} (howner : resolve builder.build env above choice.parent none = .ok upper)
    (hdepth : upper.nodes.length + 1 + way.length ≤ builder.build.revision.maxPathDepth) :
    (¬ upper.Meets builder.build choice.dynamic → ∃ (owned : Value A) (lower : Route A),
      lower.nodes = way ∧ resolve builder.build env endpoint value (some choice)
        = .ok (upper.append (lower.addKey choice.link owned))) ∧
    (upper.Meets builder.build choice.dynamic →
      resolve builder.build env endpoint value (some choice) = .error
        (.pathTooDeep (builder.build.revision.maxPathDepth + 1)
          builder.build.revision.maxPathDepth)) := by
  have htyped := hbuilt.typed
  obtain ⟨node, found, hnode, hfound, htype⟩ := htyped.pointed hendpoint
  have hplace : builder.build.linkTarget? endpoint = none := by
    have hplain := NodeKind.concrete_of_endpoint? (Option.isSome_of_eq_some hfound)
    have hnode : builder.build.node? endpoint = some node := hnode
    rw [Tree.linkTarget?_eq hnode, hplain.2.2]
  have hheld : builder.Holds handles endpoint value.type :=
    ⟨node, hnode, .inr ⟨found, hfound, htype⟩⟩
  obtain ⟨owned, lower, rfl, hclimb⟩ := hbuilt.climb_lineage htyped env hway rfl hplace hheld
  obtain ⟨linkNode, hlinkNode, hparent⟩ := parent?_eq_some habove
  rw [Tree.linkTarget?_eq hlinkNode] at htarget
  have hsound := hbuilt.grown (TreeBuilder.sound_new _) fun _ _ hgrowth => hgrowth.sound
  obtain ⟨goal, hgoal, hdynamic⟩ := hsound.wellFormed.linked hlinkNode htarget
  obtain ⟨resolver, hkind⟩ : ∃ resolver, goal.kind = .dynamic resolver := by
    cases hkind : goal.kind with
    | dynamic resolver => exact ⟨resolver, rfl⟩
    | _ => simp [hkind, NodeKind.isDynamic] at hdynamic
  obtain ⟨hclimbs, -⟩ := resolve_eq_ok.mp howner
  have hcome : resolve builder.build env endpoint value (some choice)
      = climb builder.build env (some choice)
        (builder.build.revision.maxPathDepth - lower.nodes.length + 1) choice.dynamic owned lower := by
    have hleft : builder.build.revision.maxPathDepth + 1
        = builder.build.revision.maxPathDepth - lower.nodes.length + 1 + lower.nodes.length := by
      omega
    rw [resolve, hleft, hclimb, append_empty]
  rw [hcome]
  constructor
  · intro havoids
    refine ⟨owned, lower, rfl, ?_⟩
    rw [climb_linked hgoal hkind (linkFor_chosen env choice _ _ _) hlinkNode htarget hparent]
    refine ((hclimbs.under havoids).lift _).climb_eq _ ?_
    rw [append_nodes, List.length_append, length_addKey]
    omega
  · intro hmeets
    refine Leads.too_deep hbuilt.shaped hgoal hkind ?_ habove hclimbs hmeets _ (.inl rfl) ?_
    · exact (Tree.linkTarget?_eq hlinkNode).trans htarget
    · omega

namespace Crates

open Scenario (app valType)

/-- Whatever its labels say, the crate stands on the floor. -/
def onFloor : LinkChoice app := ⟨⟨3⟩, ⟨1⟩, .unit⟩

/-- The crate is in another one, which has only the outer label. -/
def inOuter : LinkChoice app := ⟨⟨2⟩, ⟨1⟩, labelled ["outer"]⟩

theorem open_below : builder.build.Lineage [⟨1⟩, ⟨4⟩] ⟨4⟩ := by
  have htop : builder.build.Lineage [⟨1⟩] ⟨1⟩ := .top rfl rfl
  exact htop.child rfl rfl

/-- A crate is opened on the floor. -/
theorem chosen_link_composes_floor : ∃ (owned : Value app) (lower : Route app),
    lower.nodes = [⟨4⟩] ∧
    Route.resolve builder.build {} ⟨4⟩ (labelled ["inner", "outer"]) (some onFloor)
      = .ok (Route.empty.append (lower.addKey ⟨3⟩ owned)) := by
  have hendpoint : Handle.endpoint (labelled ["inner", "outer"]).type ⟨4⟩ ∈ handles := by
    simp [handles, labelled]
  have htarget : builder.build.linkTarget? onFloor.link = some onFloor.dynamic := rfl
  have habove : builder.build.parent? onFloor.link = some .root := rfl
  have howner : Route.resolve builder.build {} .root onFloor.parent none = .ok .empty := rfl
  obtain ⟨hfound, -⟩ :=
    chosen_link_composes built hendpoint htarget open_below habove howner (by decide)
  exact hfound Route.not_meets_empty

/-- The outer crate stands on the floor, which the resolver finds, and the inner one is in it, which
the resolver finds too.  But the way through the link that says so is not found. -/
theorem crate_in_crate_not_found :
    builder.build.linkTarget? inOuter.link = some inOuter.dynamic ∧
      builder.build.Lineage [inOuter.dynamic, ⟨4⟩] ⟨4⟩ ∧
      builder.build.parent? inOuter.link = some ⟨1⟩ ∧
      Route.resolve builder.build {} ⟨1⟩ inOuter.parent none
        = .ok ⟨[⟨3⟩], [⟨3⟩], [labelled ["outer"]]⟩ ∧
      1 + 1 + 1 ≤ builder.build.revision.maxPathDepth ∧
      Route.resolve builder.build {} ⟨4⟩ (labelled ["inner", "outer"]) none
        = .ok ⟨[⟨3⟩, ⟨2⟩, ⟨4⟩], [⟨3⟩, ⟨2⟩], [labelled ["outer"], labelled ["inner", "outer"]]⟩ ∧
      Route.resolve builder.build {} ⟨4⟩ (labelled ["inner", "outer"]) (some inOuter)
        = .error (.pathTooDeep 33 32) := by
  have howner : Route.resolve builder.build {} ⟨1⟩ inOuter.parent none
      = .ok ⟨[⟨3⟩], [⟨3⟩], [labelled ["outer"]]⟩ := rfl
  have hfound : Route.resolve builder.build {} ⟨4⟩ (labelled ["inner", "outer"]) none
      = .ok ⟨[⟨3⟩, ⟨2⟩, ⟨4⟩], [⟨3⟩, ⟨2⟩], [labelled ["outer"], labelled ["inner", "outer"]]⟩ :=
    rfl
  have hleads : Route.Leads builder.build {} inOuter.dynamic ⟨4⟩ (labelled ["inner", "outer"]) :=
    .inr ⟨rfl, _, (Route.resolve_eq_ok.mp hfound).1, ⟨3⟩, List.mem_cons_self, rfl⟩
  have habove : builder.build.parent? inOuter.link = some ⟨1⟩ := rfl
  refine ⟨rfl, open_below, habove, howner, by decide, hfound, ?_⟩
  exact hleads.too_deep formed.shaped rfl rfl rfl habove (Route.resolve_eq_ok.mp howner).1
    ⟨⟨3⟩, List.mem_cons_self, rfl⟩ 33 rfl

end Crates

end PathWire

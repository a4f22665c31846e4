/-
From the endpoint up, and from the names down.

A sender climbs from the endpoint to the root and puts a link in the place of every Dynamic node
it comes to.  A receiver walks the names of that path down from the root and looks through every
link to the children of its target.  In a well-shaped tree both see the same nodes: what the
climb put together `Descends`, and the walk follows whatever descends.
-/
import PathWire.Peer.Route
import PathWire.Proofs.Basic
import PathWire.Proofs.Tree.Shape

namespace PathWire

variable {A : Application} {tree : Tree A}

/-! ### Going down -/

/-- A node that may have children is no link. -/
theorem NodeKind.target?_of_leafLabel? {kind : NodeKind A} (h : kind.leafLabel? = none) :
    kind.target? = none := by
  cases kind with
  | link target carrier => cases h
  | _ => rfl

namespace Tree

/-- The nodes lead down from a node: each is among the children seen below the one before. -/
def Descends (tree : Tree A) : NodeIndex → List NodeIndex → Prop
  | _, [] => True
  | above, index :: rest => index ∈ tree.childrenOf above ∧ tree.Descends index rest

/-- A node that may have children shows its own. -/
theorem childrenOf_own {index : NodeIndex} {node : Node A} (h : tree.node? index = some node)
    (hleaf : node.kind.leafLabel? = none) : tree.childrenOf index = node.children := by
  simp only [childrenOf, h, NodeKind.target?_of_leafLabel? hleaf]

/-- A link shows the children of its target. -/
theorem childrenOf_link {index target : NodeIndex} {node upper : Node A}
    (h : tree.node? index = some node) (htarget : node.kind.target? = some target)
    (hupper : tree.node? target = some upper) : tree.childrenOf index = upper.children := by
  simp only [childrenOf, h, htarget, hupper, Option.map_some, Option.getD_some]

/-- Children that are seen below a node are nodes of the tree, with different names. -/
theorem Shaped.seen (hshaped : tree.Shaped) {above child : NodeIndex}
    (h : child ∈ tree.childrenOf above) :
    (∃ node, tree.node? child = some node) ∧ ∀ other ∈ tree.childrenOf above,
      tree.name other = tree.name child → other = child := by
  have hown : ∃ place upper, tree.node? place = some upper ∧
      tree.childrenOf above = upper.children := by
    unfold childrenOf at h ⊢
    cases hnode : tree.node? above with
    | none => simp [hnode] at h
    | some node =>
        simp only [hnode] at h
        cases htarget : node.kind.target? with
        | none => exact ⟨above, node, hnode, by simp only [htarget]⟩
        | some target =>
            simp only [htarget] at h
            cases hupper : tree.node? target with
            | none => simp [hupper] at h
            | some upper =>
                exact ⟨target, upper, hupper, by
                  simp only [htarget, hupper, Option.map_some, Option.getD_some]⟩
  obtain ⟨place, upper, hupper, hsame⟩ := hown
  rw [hsame] at h ⊢
  exact ⟨hshaped.known hupper h, fun other hother hname => hshaped.apart hupper hother h hname⟩

theorem isNamed_iff {name : String} {index : NodeIndex} {node : Node A}
    (h : tree.node? index = some node) :
    tree.isNamed name index = true ↔ tree.name index = name := by
  simp [isNamed, Tree.name, h]

/-- A child is found by its name. -/
theorem Shaped.child?_name (hshaped : tree.Shaped) {above child : NodeIndex}
    (h : child ∈ tree.childrenOf above) : tree.child? above (tree.name child) = some child := by
  obtain ⟨⟨node, hnode⟩, hapart⟩ := hshaped.seen h
  unfold child?
  cases hfound : (tree.childrenOf above).find? (tree.isNamed (tree.name child)) with
  | none =>
      have hmissed := List.find?_eq_none.mp hfound child h
      exact absurd ((isNamed_iff hnode).mpr rfl) hmissed
  | some found =>
      have hmem := List.mem_of_find?_eq_some hfound
      obtain ⟨⟨other, hother⟩, -⟩ := hshaped.seen hmem
      have hname := (isNamed_iff hother).mp (List.find?_some hfound)
      rw [hapart found hmem hname]

end Tree

/-- The names of nodes that lead down lead to these nodes. -/
theorem ResolvedPath.walk_names (hshaped : tree.Shaped) (nodes : List NodeIndex) :
    ∀ (above : List NodeIndex) (last : NodeIndex), tree.Descends last nodes →
      walk tree above last (nodes.map tree.name)
        = .ok (above ++ nodes, (last :: nodes).getLast (List.cons_ne_nil last nodes)) := by
  induction nodes with
  | nil => intro above last _; simp [walk]
  | cons index rest ih =>
      intro above last h
      obtain ⟨hchild, hrest⟩ := h
      simp only [List.map_cons, walk, hshaped.child?_name hchild, ih _ index hrest,
        List.append_assoc, List.singleton_append, List.getLast_cons_cons]

/-- The carriers of nodes that lead down are found. -/
theorem ResolvedPath.carriers_of_descends (hshaped : tree.Shaped) (nodes : List NodeIndex) :
    ∀ {above : NodeIndex}, tree.Descends above nodes → ∃ keys, carriers tree nodes = .ok keys := by
  induction nodes with
  | nil => exact fun _ => ⟨[], rfl⟩
  | cons index rest ih =>
      intro above hdescends
      obtain ⟨⟨node, hnode⟩, -⟩ := hshaped.seen hdescends.1
      obtain ⟨keys, hkeys⟩ := ih hdescends.2
      unfold carriers
      rw [Result.bind_ok (Tree.node_of_node? hnode), Result.bind_ok hkeys]
      exact ⟨_, rfl⟩

/-- A path that messages can travel on: it leads down from the root to an endpoint, and is not
too deep. -/
structure Tree.Passable (tree : Tree A) (path : Path) : Prop where
  descends : tree.Descends .root path
  depth : path.length ≤ tree.revision.maxPathDepth
  ends : ∃ endpoint, path.getLast? = some endpoint ∧ tree.isEndpoint endpoint = true

/-- **A path is found by its names.** -/
theorem Tree.Passable.ofNames {path : Path} (h : tree.Passable path) (hshaped : tree.Shaped) :
    ResolvedPath.ofNames tree (path.map tree.name) = ResolvedPath.ofNodes tree path := by
  obtain ⟨endpoint, hlast, hendpoint⟩ := h.ends
  have hend : (NodeIndex.root :: path).getLast (List.cons_ne_nil _ _) = endpoint := by
    rw [← Option.some.injEq, ← hlast, ← List.getLast?_eq_some_getLast]
    cases path with
    | nil => cases hlast
    | cons index rest => rfl
  have hwalk := ResolvedPath.walk_names hshaped path [] .root h.descends
  rw [hend, List.nil_append] at hwalk
  have hdepth : ¬ tree.revision.maxPathDepth < (path.map tree.name).length := by
    rw [List.length_map]
    exact Nat.not_lt.mpr h.depth
  unfold ResolvedPath.ofNames
  simp only [if_neg hdepth, hwalk, bind, Except.bind, hendpoint, if_true]

/-! ### From the names down -/

theorem Tree.name_of_child? {above child : NodeIndex} {name : String}
    (h : tree.child? above name = some child) : tree.name child = name := by
  have hnamed : tree.isNamed name child = true := List.find?_some h
  unfold isNamed at hnamed
  cases hnode : tree.node? child with
  | none => simp [hnode] at hnamed
  | some node => simpa [Tree.name, hnode] using hnamed

namespace ResolvedPath

/-- A chain of names leads down the tree, by nodes that have these names. -/
theorem walk_ok (names : List String) : ∀ {above nodes : List NodeIndex} {last final : NodeIndex},
    walk tree above last names = .ok (nodes, final) → ∃ below, nodes = above ++ below ∧
      tree.Descends last below ∧ (last :: below).getLast? = some final ∧
      below.map tree.name = names := by
  induction names with
  | nil =>
      intro above nodes last final h
      cases h
      exact ⟨[], (List.append_nil _).symm, trivial, rfl, rfl⟩
  | cons name rest ih =>
      intro above nodes last final h
      unfold walk at h
      cases hchild : tree.child? last name with
      | none => simp only [hchild] at h; cases h
      | some child =>
          simp only [hchild] at h
          obtain ⟨below, rfl, hdescends, hlast, rfl⟩ := ih h
          refine ⟨child :: below, by simp, ⟨?_, hdescends⟩, hlast, ?_⟩
          · exact List.mem_of_find?_eq_some hchild
          · rw [List.map_cons, Tree.name_of_child? hchild]

/-- **A path that is found by its names is one that messages can travel on**, with these names. -/
theorem ofNames_ok (hroot : tree.isEndpoint .root = false) {names : List String}
    {resolved : ResolvedPath} (h : ofNames tree names = .ok resolved) :
    (tree.Passable resolved.path ∧ ofNodes tree resolved.path = .ok resolved) ∧
      resolved.path.map tree.name = names := by
  unfold ofNames at h
  by_cases hdeep : tree.revision.maxPathDepth < names.length
  · simp only [if_pos hdeep] at h
    cases h
  simp only [if_neg hdeep] at h
  obtain ⟨⟨nodes, last⟩, hwalk, h⟩ := Result.of_bind_ok h
  obtain ⟨below, rfl, hdescends, hlast, hnames⟩ := walk_ok names hwalk
  by_cases hendpoint : tree.isEndpoint last = true
  · simp only [hendpoint, if_true] at h
    have hends : nodes.getLast? = some last := by
      cases nodes with
      | nil =>
          have hlast : NodeIndex.root = last := Option.some.inj hlast
          rw [← hlast, hroot] at hendpoint
          cases hendpoint
      | cons first rest => exact hlast
    obtain ⟨keys, hkeys, hresolved⟩ := Result.of_bind_ok h
    cases hresolved
    rw [← hnames, List.length_map] at hdeep
    exact ⟨⟨⟨hdescends, Nat.le_of_not_lt hdeep, last, hends, hendpoint⟩, h⟩, hnames⟩
  · simp only [hendpoint] at h
    cases h

end ResolvedPath

/-! ### Going up -/

namespace Route

variable {env : A.Env} {chosen : Option (LinkChoice A)}

/-- A climb from a node with a value, on top of the route `below`, that ends with the last
route. -/
inductive Climbs (tree : Tree A) (env : A.Env) (chosen : Option (LinkChoice A)) :
    NodeIndex → Value A → Route A → Route A → Prop
  | root {index : NodeIndex} {value : Value A} {below : Route A} {node : Node A}
      (hnode : tree.node? index = some node) (hkind : node.kind = .root) :
      Climbs tree env chosen index value below below
  | dynamic {index above : NodeIndex} {value : Value A} {below route : Route A}
      {node linkNode : Node A} {resolver : Option (Resolver A)} {link : LinkChoice A}
      (hnode : tree.node? index = some node) (hkind : node.kind = .dynamic resolver)
      (hlink : linkFor env chosen index node.name resolver value = .ok link)
      (hlinkNode : tree.node? link.link = some linkNode)
      (htarget : linkNode.kind.target? = some index) (habove : linkNode.parent = some above)
      (hrest : Climbs tree env chosen above link.parent (below.addKey link.link value) route) :
      Climbs tree env chosen index value below route
  | carrier {index above : NodeIndex} {value parentValue : Value A} {below route : Route A}
      {node : Node A} {carrier : Carrier A} (hnode : tree.node? index = some node)
      (hcarrier : node.kind.carrier? = some carrier)
      (hvalue : carrier.toParent env value = .ok parentValue) (habove : node.parent = some above)
      (hrest : Climbs tree env chosen above parentValue (below.addKey index value) route) :
      Climbs tree env chosen index value below route
  | plain {index above : NodeIndex} {value : Value A} {below route : Route A} {node : Node A}
      (hnode : tree.node? index = some node) (hcarrier : node.kind.carrier? = none)
      (hroot : node.kind ≠ .root) (hdynamic : node.kind.isDynamic = false)
      (habove : node.parent = some above)
      (hrest : Climbs tree env chosen above value (below.addNode index) route) :
      Climbs tree env chosen index value below route

theorem length_addKey (route : Route A) (index : NodeIndex) (value : Value A) :
    (route.addKey index value).nodes.length = route.nodes.length + 1 := rfl

theorem length_addNode (route : Route A) (index : NodeIndex) :
    (route.addNode index).nodes.length = route.nodes.length + 1 := rfl

theorem above_ok {node : Node A} {index : NodeIndex} (h : above node = .ok index) :
    node.parent = some index := by
  unfold above at h
  cases hparent : node.parent with
  | none => simp [hparent] at h
  | some parent => simpa [hparent] using h

/-- The three ways a climb can take at a node. -/
theorem root_or_dynamic_or_plain (kind : NodeKind A) : kind = .root ∨
    (∃ resolver, kind = .dynamic resolver) ∨ kind ≠ .root ∧ kind.isDynamic = false := by
  cases kind with
  | root => exact .inl rfl
  | dynamic resolver => exact .inr (.inl ⟨resolver, rfl⟩)
  | _ => exact .inr (.inr ⟨nofun, rfl⟩)

section Step

variable {left : Nat} {index : NodeIndex} {value : Value A} {below route : Route A} {node : Node A}

/-- The climb ends at the root. -/
theorem climb_root (hnode : tree.node? index = some node) (hkind : node.kind = .root) :
    climb tree env chosen (left + 1) index value below = .ok below := by
  unfold climb
  rw [Result.bind_ok (Tree.node_of_node? hnode)]
  simp only [hkind]
  rfl

/-- At a Dynamic node the climb goes on above a link to it. -/
theorem climb_dynamic {resolver : Option (Resolver A)} (hnode : tree.node? index = some node)
    (hkind : node.kind = .dynamic resolver)
    (h : climb tree env chosen (left + 1) index value below = .ok route) :
    ∃ link linkNode above, linkFor env chosen index node.name resolver value = .ok link ∧
      tree.node? link.link = some linkNode ∧ linkNode.kind.target? = some index ∧
      linkNode.parent = some above ∧
      climb tree env chosen left above link.parent (below.addKey link.link value) = .ok route := by
  unfold climb at h
  rw [Result.bind_ok (Tree.node_of_node? hnode)] at h
  simp only [hkind] at h
  obtain ⟨link, hlink, h⟩ := Result.of_bind_ok h
  obtain ⟨linkNode, hlinkNode, h⟩ := Result.of_bind_ok h
  by_cases htarget : linkNode.kind.target? = some index
  · simp only [htarget, bne_self_eq_false, Bool.false_eq_true, if_false] at h
    obtain ⟨above, habove, h⟩ := Result.of_bind_ok h
    exact ⟨link, linkNode, above, hlink, Tree.node_ok hlinkNode, htarget, above_ok habove, h⟩
  · have hmismatch : (linkNode.kind.target? != some index) = true := by
      simpa using htarget
    simp [hmismatch, throw, throwThe, MonadExceptOf.throw, bind, Except.bind] at h

/-- A step of the climb from a node that is neither the root nor a Dynamic node. -/
theorem climb_step (hnode : tree.node? index = some node) (hroot : node.kind ≠ .root)
    (hdynamic : node.kind.isDynamic = false) :
    climb tree env chosen (left + 1) index value below =
      (match node.kind.carrier? with
      | some carrier => do
        let parentValue ← carrier.toParent env value
        climb tree env chosen left (← above node) parentValue (below.addKey index value)
      | none => do climb tree env chosen left (← above node) value (below.addNode index)) := by
  conv => lhs; unfold climb
  rw [Result.bind_ok (Tree.node_of_node? hnode)]
  cases hkind : node.kind with
  | root => exact absurd hkind hroot
  | dynamic resolver => simp [hkind, NodeKind.isDynamic] at hdynamic
  | _ => rfl

end Step

/-- What a climb that succeeds has done, and how many nodes it can have found. -/
theorem climb_ok : ∀ (left : Nat) {index : NodeIndex} {value : Value A} {below route : Route A},
    climb tree env chosen left index value below = .ok route →
      Climbs tree env chosen index value below route ∧
        route.nodes.length < below.nodes.length + left := by
  intro left
  induction left with
  | zero => intro index value below route h; cases h
  | succ left ih =>
      intro index value below route h
      obtain ⟨node, hnode, -⟩ := Result.of_bind_ok (by unfold climb at h; exact h)
      have hnode := Tree.node_ok hnode
      rcases root_or_dynamic_or_plain node.kind with hroot | ⟨resolver, hkind⟩ | ⟨hroot, hdynamic⟩
      · rw [climb_root hnode hroot] at h
        cases h
        exact ⟨.root hnode hroot, by omega⟩
      · obtain ⟨link, linkNode, above, hlink, hlinkNode, htarget, habove, hrest⟩ :=
          climb_dynamic hnode hkind h
        obtain ⟨hclimbs, hlength⟩ := ih hrest
        rw [length_addKey] at hlength
        exact ⟨.dynamic hnode hkind hlink hlinkNode htarget habove hclimbs, by omega⟩
      · rw [climb_step hnode hroot hdynamic] at h
        cases hcarrier : node.kind.carrier? with
        | some carrier =>
            simp only [hcarrier] at h
            obtain ⟨parentValue, hvalue, h⟩ := Result.of_bind_ok h
            obtain ⟨above, habove, h⟩ := Result.of_bind_ok h
            obtain ⟨hclimbs, hlength⟩ := ih h
            rw [length_addKey] at hlength
            exact ⟨.carrier hnode hcarrier hvalue (above_ok habove) hclimbs, by omega⟩
        | none =>
            simp only [hcarrier] at h
            obtain ⟨above, habove, h⟩ := Result.of_bind_ok h
            obtain ⟨hclimbs, hlength⟩ := ih h
            rw [length_addNode] at hlength
            exact ⟨.plain hnode hcarrier hroot hdynamic (above_ok habove) hclimbs, by omega⟩

/-! ### What the climb puts together

By induction on the climb: every node is pushed on top of a route that hangs below it. -/

/-- The nodes of a route hang below a node: the first is one of its own children, and the others
lead down from there. -/
def Hangs (tree : Tree A) (index : NodeIndex) (nodes : List NodeIndex) : Prop :=
  ∀ first rest, nodes = first :: rest → ∃ node, tree.node? index = some node ∧
    node.kind.leafLabel? = none ∧ first ∈ node.children ∧ tree.Descends first rest

/-- A node that is no link leads down to what hangs below it. -/
theorem Hangs.descends {index : NodeIndex} {nodes : List NodeIndex} (h : Hangs tree index nodes) :
    tree.Descends index nodes := by
  cases nodes with
  | nil => trivial
  | cons first rest =>
      obtain ⟨node, hnode, hleaf, hmem, hrest⟩ := h first rest rfl
      exact ⟨Tree.childrenOf_own hnode hleaf ▸ hmem, hrest⟩

/-- A link leads down to what hangs below its target. -/
theorem Hangs.descends_link {index target : NodeIndex} {nodes : List NodeIndex} {node : Node A}
    (h : Hangs tree target nodes) (hnode : tree.node? index = some node)
    (htarget : node.kind.target? = some target) : tree.Descends index nodes := by
  cases nodes with
  | nil => trivial
  | cons first rest =>
      obtain ⟨upper, hupper, -, hmem, hrest⟩ := h first rest rfl
      exact ⟨Tree.childrenOf_link hnode htarget hupper ▸ hmem, hrest⟩

/-- A node on top of what it leads down to hangs below its parent. -/
theorem hangs_cons (hshaped : tree.Shaped) {index above : NodeIndex} {nodes : List NodeIndex}
    {node : Node A} (hnode : tree.node? index = some node) (habove : node.parent = some above)
    (h : tree.Descends index nodes) : Hangs tree above (index :: nodes) := by
  intro first rest hcons
  cases hcons
  obtain ⟨upper, hupper, hleaf, hmem⟩ := hshaped.listed hnode habove
  exact ⟨upper, hupper, hleaf, hmem, h⟩

namespace Climbs

variable {index : NodeIndex} {value : Value A} {below route : Route A}

/-- The nodes of the route lead down from the root. -/
theorem descends (hshaped : tree.Shaped) (h : Climbs tree env chosen index value below route) :
    Hangs tree index below.nodes → tree.Descends .root route.nodes := by
  induction h with
  | root hnode hkind =>
      intro hbelow
      obtain rfl := hshaped.root hnode hkind
      exact hbelow.descends
  | dynamic _ _ _ hlinkNode htarget habove _ ih =>
      intro hbelow
      exact ih (hangs_cons hshaped hlinkNode habove (hbelow.descends_link hlinkNode htarget))
  | carrier hnode _ _ habove _ ih =>
      intro hbelow
      exact ih (hangs_cons hshaped hnode habove hbelow.descends)
  | plain hnode _ _ _ habove _ ih =>
      intro hbelow
      exact ih (hangs_cons hshaped hnode habove hbelow.descends)

theorem carriers_cons {index : NodeIndex} {nodes keys : List NodeIndex} {node : Node A}
    (hnode : tree.node? index = some node)
    (h : ResolvedPath.carriers tree nodes = .ok keys) :
    ResolvedPath.carriers tree (index :: nodes)
      = .ok (if node.kind.carrier?.isSome then index :: keys else keys) := by
  unfold ResolvedPath.carriers
  rw [Result.bind_ok (Tree.node_of_node? hnode), Result.bind_ok h]
  rfl

/-- A link carries a value. -/
theorem carrier?_of_target? {kind : NodeKind A} {target : NodeIndex}
    (h : kind.target? = some target) : kind.carrier?.isSome = true := by
  cases kind with
  | link => rfl
  | _ => cases h

/-- The keys of the route are its nodes with a carrier. -/
theorem carriers (h : Climbs tree env chosen index value below route) :
    ResolvedPath.carriers tree below.nodes = .ok below.keys →
      ResolvedPath.carriers tree route.nodes = .ok route.keys := by
  induction h with
  | root _ _ => exact id
  | dynamic _ _ _ hlinkNode htarget _ _ ih =>
      intro hbelow
      refine ih ((carriers_cons hlinkNode hbelow).trans ?_)
      rw [carrier?_of_target? htarget]
      rfl
  | carrier hnode hcarrier _ _ _ ih =>
      intro hbelow
      refine ih ((carriers_cons hnode hbelow).trans ?_)
      rw [hcarrier]
      rfl
  | plain hnode hcarrier _ _ _ _ ih =>
      intro hbelow
      refine ih ((carriers_cons hnode hbelow).trans ?_)
      rw [hcarrier]
      rfl

/-- The route ends with what was below. -/
theorem suffix (h : Climbs tree env chosen index value below route) :
    below.nodes <:+ route.nodes := by
  induction h with
  | root _ _ => exact List.suffix_refl _
  | dynamic _ _ _ _ _ _ _ ih => exact (List.suffix_cons _ _).trans ih
  | carrier _ _ _ _ _ ih => exact (List.suffix_cons _ _).trans ih
  | plain _ _ _ _ _ _ ih => exact (List.suffix_cons _ _).trans ih

end Climbs

/-- The route of an endpoint ends there. -/
theorem Climbs.getLast? {endpoint : NodeIndex} {value : Value A} {route : Route A}
    (h : Climbs tree env chosen endpoint value .empty route)
    (hendpoint : tree.isEndpoint endpoint = true) : route.nodes.getLast? = some endpoint := by
  have hlast : ∀ {nodes : List NodeIndex}, [endpoint] <:+ nodes →
      nodes.getLast? = some endpoint := by
    rintro nodes ⟨upper, rfl⟩
    simp
  cases h with
  | root hnode hkind => simp [Tree.isEndpoint, hnode, hkind, NodeKind.endpoint?] at hendpoint
  | dynamic hnode hkind => simp [Tree.isEndpoint, hnode, hkind, NodeKind.endpoint?] at hendpoint
  | carrier _ _ _ _ hrest => exact hlast hrest.suffix
  | plain _ _ _ _ _ hrest => exact hlast hrest.suffix

/-- **The route of a message is a path that the peer finds by its names**, with the carriers that
the sender wrote. -/
theorem resolve_ok (hshaped : tree.Shaped) {endpoint : NodeIndex} {value : Value A}
    {route : Route A} (hendpoint : tree.isEndpoint endpoint = true)
    (h : resolve tree env endpoint value chosen = .ok route) :
    tree.Passable route.nodes ∧ ResolvedPath.carriers tree route.nodes = .ok route.keys := by
  obtain ⟨hclimbs, hlength⟩ := climb_ok _ h
  refine ⟨⟨hclimbs.descends hshaped (by intro first rest hcons; cases hcons), ?_, endpoint,
    hclimbs.getLast? hendpoint, hendpoint⟩, hclimbs.carriers rfl⟩
  simp only [empty, List.length_nil] at hlength
  omega

end Route

end PathWire

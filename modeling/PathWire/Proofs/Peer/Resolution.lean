/-
The climb comes to an end, and the route it finds is sound.

Above a link the climb goes on with whatever parent the application names, and an application may
well say that a thing is inside itself.  The shape of the tree does not bound such a climb.  What
does is its depth: a turn of the loop puts one node on top of the route or is the last.  So the
loop is looked at turn by turn here, without a bound of its own, and what callbacks look up may
change from one turn to the next.  What a turn keeps is `Under`, all that is true of the route
below the node that the climb has come to.
-/
import PathWire.Proofs.Peer.Route
import PathWire.Proofs.Tree.WellFormed

namespace PathWire

variable {A : Application} {tree : Tree A}

/-! ### Well-formed trees -/

theorem NodeKind.leaf_of_leafLabel? {kind : NodeKind A} (h : kind.leafLabel? ≠ none) :
    kind.endpoint?.isSome = true ∨ kind.target?.isSome = true := by
  cases kind with
  | endpoint | keyedEndpoint => exact .inl rfl
  | link => exact .inr rfl
  | _ => exact absurd rfl h

/-- A well-formed tree has the shape that paths need. -/
theorem Tree.WellFormed.shaped (h : tree.WellFormed) : tree.Shaped where
  root hnode hkind := (h.root hnode).mp hkind
  listed {index above node} hnode hparent := by
    obtain ⟨-, upper, hupper, hcount⟩ := h.hung hnode hparent
    have hmem : index ∈ upper.children := List.count_pos_iff.mp (by omega)
    refine ⟨upper, hupper, ?_, hmem⟩
    by_contra hleaf
    rw [h.leaf hupper (NodeKind.leaf_of_leafLabel? hleaf)] at hmem
    cases hmem
  known hupper hchild := by
    obtain ⟨node, hnode, -⟩ := h.listed hupper hchild
    exact ⟨node, hnode⟩
  apart hupper hone hother hname := List.inj_on_of_nodup_map (h.apart hupper) hone hother hname
  hung hupper hchild hnode := by
    obtain ⟨found, hfound, hparent⟩ := h.listed hupper hchild
    cases hfound.symm.trans hnode
    exact hparent

/-- A node that can stand on a path: neither a root nor a Dynamic node. -/
def Tree.Concrete (tree : Tree A) (index : NodeIndex) : Prop :=
  ∃ node, tree.node? index = some node ∧ node.kind ≠ .root ∧ node.kind.isDynamic = false

theorem NodeKind.concrete_of_carrier? {kind : NodeKind A} (h : kind.carrier?.isSome = true) :
    kind ≠ .root ∧ kind.isDynamic = false := by
  cases kind with
  | root | dynamic => cases h
  | _ => exact ⟨nofun, rfl⟩

theorem NodeKind.concrete_of_endpoint? {kind : NodeKind A} (h : kind.endpoint?.isSome = true) :
    kind ≠ .root ∧ kind.isDynamic = false ∧ kind.target? = none := by
  cases kind with
  | endpoint | keyedEndpoint => exact ⟨nofun, rfl, rfl⟩
  | _ => cases h

/-- An endpoint is a node that is neither a root nor a Dynamic node, and no link. -/
theorem Tree.endpoint_node {index : NodeIndex} (h : tree.isEndpoint index = true) :
    ∃ node, tree.node? index = some node ∧
      node.kind ≠ .root ∧ node.kind.isDynamic = false ∧ node.kind.target? = none := by
  unfold Tree.isEndpoint at h
  cases hnode : tree.node? index with
  | none => simp [hnode] at h
  | some node =>
      rw [hnode] at h
      exact ⟨node, rfl, NodeKind.concrete_of_endpoint? h⟩

/-- Whether a node of the tree carries a value. -/
def Tree.carries (tree : Tree A) (index : NodeIndex) : Bool :=
  ((tree.node? index).bind (·.kind.carrier?)).isSome

/-- The keys of a path are those of its nodes that carry a value. -/
theorem ResolvedPath.carriers_eq_filter (nodes : List NodeIndex) :
    ∀ {keys : List NodeIndex}, carriers tree nodes = .ok keys →
      keys = nodes.filter tree.carries := by
  induction nodes with
  | nil =>
      intro keys h
      cases h
      rfl
  | cons index rest ih =>
      intro keys h
      obtain ⟨node, hnode, h⟩ := Result.of_bind_ok h
      obtain ⟨others, hothers, h⟩ := Result.of_bind_ok h
      cases h
      obtain rfl := ih hothers
      have hcarries : tree.carries index = node.kind.carrier?.isSome := by
        simp only [Tree.carries, Tree.node_ok hnode, Option.bind_some]
      rw [List.filter_cons, hcarries]

namespace Route

/-! ### The loop -/

/-- How far a climb has come: to a node, with its value and the route below it, or to the end. -/
inductive Ascent (A : Application) where
  | going (index : NodeIndex) (value : Value A) (below : Route A)
  | done (route : Route A)

/-- A turn of the loop at the node `index`, in which callbacks look up in `env`. -/
def rise (tree : Tree A) (env : A.Env) (chosen : Option (LinkChoice A)) (index : NodeIndex)
    (value : Value A) (below : Route A) : Except ProtocolError (Ascent A) := do
  if tree.revision.maxPathDepth < below.nodes.length then
    throw (.pathTooDeep below.nodes.length tree.revision.maxPathDepth)
  let node ← tree.node index
  match node.kind with
  | .root => return .done below
  | .dynamic resolver =>
    let link ← linkFor env chosen index node.name resolver value
    let linkNode ← tree.node link.link
    if linkNode.kind.target? != some index then
      throw (.linkMismatch linkNode.name node.name)
    return .going (← above linkNode) link.parent (below.addKey link.link value)
  | kind =>
    match kind.carrier? with
    | some carrier =>
      let parentValue ← carrier.toParent env value
      return .going (← above node) parentValue (below.addKey index value)
    | none => return .going (← above node) value (below.addNode index)

/-- A turn of the loop; one that has ended stays as it is. -/
def turn (tree : Tree A) (chosen : Option (LinkChoice A)) (env : A.Env) :
    Ascent A → Except ProtocolError (Ascent A)
  | .going index value below => rise tree env chosen index value below
  | .done route => return .done route

/-- The loop after as many turns as there are `envs`, one for each. -/
def turns (tree : Tree A) (chosen : Option (LinkChoice A)) (envs : List A.Env)
    (ascent : Ascent A) : Except ProtocolError (Ascent A) :=
  envs.foldlM (fun ascent env => turn tree chosen env ascent) ascent

/-- The rest of a climb that may look at `left` more nodes. -/
def Ascent.finish (tree : Tree A) (env : A.Env) (chosen : Option (LinkChoice A)) (left : Nat) :
    Ascent A → Except ProtocolError (Route A)
  | .going index value below => climb tree env chosen left index value below
  | .done route => return route

section Turns

variable {env : A.Env} {envs : List A.Env} {chosen : Option (LinkChoice A)} {left : Nat}
  {index : NodeIndex} {value : Value A} {below route : Route A}

theorem turns_done (route : Route A) :
    turns tree chosen envs (.done route) = .ok (.done route) := by
  induction envs with
  | nil => rfl
  | cons env envs ih => exact ih

theorem turns_going (env : A.Env) (envs : List A.Env) :
    turns tree chosen (env :: envs) (.going index value below)
      = rise tree env chosen index value below >>= turns tree chosen envs := by
  unfold turns
  rw [List.foldlM_cons]
  rfl

theorem rise_too_deep (h : tree.revision.maxPathDepth < below.nodes.length) :
    rise tree env chosen index value below
      = .error (.pathTooDeep below.nodes.length tree.revision.maxPathDepth) := by
  unfold rise
  rw [if_pos h]
  rfl

section Node

variable {node : Node A} (hdepth : below.nodes.length ≤ tree.revision.maxPathDepth)
  (hnode : tree.node? index = some node)

include hdepth hnode

theorem rise_root (hkind : node.kind = .root) :
    rise tree env chosen index value below = .ok (.done below) := by
  unfold rise
  rw [if_neg (Nat.not_lt.mpr hdepth), Result.bind_ok (Tree.node_of_node? hnode)]
  simp only [hkind]
  rfl

theorem rise_dynamic {resolver : Option (Resolver A)} (hkind : node.kind = .dynamic resolver) :
    rise tree env chosen index value below = do
      let link ← linkFor env chosen index node.name resolver value
      let linkNode ← tree.node link.link
      if linkNode.kind.target? != some index then
        throw (.linkMismatch linkNode.name node.name)
      return .going (← above linkNode) link.parent (below.addKey link.link value) := by
  unfold rise
  rw [if_neg (Nat.not_lt.mpr hdepth), Result.bind_ok (Tree.node_of_node? hnode)]
  simp only [hkind]

/-- A turn at a node that is neither the root nor a Dynamic node. -/
theorem rise_step (hroot : node.kind ≠ .root) (hdynamic : node.kind.isDynamic = false) :
    rise tree env chosen index value below =
      (match node.kind.carrier? with
      | some carrier => do
        let parentValue ← carrier.toParent env value
        return .going (← above node) parentValue (below.addKey index value)
      | none => do return .going (← above node) value (below.addNode index)) := by
  unfold rise
  rw [if_neg (Nat.not_lt.mpr hdepth), Result.bind_ok (Tree.node_of_node? hnode)]
  cases hkind : node.kind with
  | root => exact absurd hkind hroot
  | dynamic resolver => simp [hkind, NodeKind.isDynamic] at hdynamic
  | _ => rfl

end Node

/-- A climb is the loop with what callbacks look up kept fixed. -/
theorem climb_succ (hdepth : below.nodes.length ≤ tree.revision.maxPathDepth) :
    climb tree env chosen (left + 1) index value below
      = rise tree env chosen index value below >>= Ascent.finish tree env chosen left := by
  cases hnode : tree.node? index with
  | none =>
      unfold climb rise
      rw [if_neg (Nat.not_lt.mpr hdepth)]
      simp only [Tree.node, hnode]
      rfl
  | some node =>
      rcases root_or_dynamic_or_plain node.kind with hroot | ⟨resolver, hkind⟩ | ⟨hroot, hdynamic⟩
      · rw [climb_root hnode hroot, rise_root hdepth hnode hroot]
        rfl
      · rw [rise_dynamic hdepth hnode hkind]
        unfold climb
        simp only [Result.bind_ok (Tree.node_of_node? hnode), hkind, bind_assoc]
        refine bind_congr fun link => bind_congr fun linkNode => ?_
        by_cases hmismatch : (linkNode.kind.target? != some index) = true
        · simp only [if_pos hmismatch]
          rfl
        · simp only [if_neg hmismatch, bind_assoc, pure_bind, Ascent.finish]
      · rw [climb_step hnode hroot hdynamic, rise_step hdepth hnode hroot hdynamic]
        cases node.kind.carrier? with
        | some carrier => simp only [bind_assoc, pure_bind, Ascent.finish]
        | none => simp only [bind_assoc, pure_bind, Ascent.finish]

end Turns

/-! ### What a turn does -/

/-- How the value right above a key comes from the key's own: a link has been chosen together with
the parent instance that is above it, and any other carrier derives what is above. -/
inductive Raises (tree : Tree A) (env : A.Env) (chosen : Option (LinkChoice A)) :
    NodeIndex → Value A → Value A → Prop
  | link {target : NodeIndex} {goal : Node A} {resolver : Option (Resolver A)} {value : Value A}
      {link : LinkChoice A} (htarget : tree.linkTarget? link.link = some target)
      (hgoal : tree.node? target = some goal) (hkind : goal.kind = .dynamic resolver)
      (hlink : linkFor env chosen target goal.name resolver value = .ok link) :
      Raises tree env chosen link.link value link.parent
  | carrier {index : NodeIndex} {node : Node A} {carrier : Carrier A} {value upper : Value A}
      (hnode : tree.node? index = some node) (htarget : node.kind.target? = none)
      (hcarrier : node.kind.carrier? = some carrier)
      (hvalue : carrier.toParent env value = .ok upper) : Raises tree env chosen index value upper

/-- A turn ends at the root, or it puts a node on top of the route: the one that the climb has come
to, or a link in its place. -/
inductive Rises (tree : Tree A) (env : A.Env) (chosen : Option (LinkChoice A)) :
    NodeIndex → Value A → Route A → Ascent A → Prop
  | root {index : NodeIndex} {value : Value A} {below : Route A} {node : Node A}
      (hnode : tree.node? index = some node) (hkind : node.kind = .root) :
      Rises tree env chosen index value below (.done below)
  | key {index place above : NodeIndex} {value upper : Value A} {below : Route A} {node : Node A}
      (hplace : place = index ∨ node.kind.target? = some index)
      (hnode : tree.node? place = some node) (habove : node.parent = some above)
      (hcarries : node.kind.carrier?.isSome = true)
      (hraises : Raises tree env chosen place value upper) :
      Rises tree env chosen index value below (.going above upper (below.addKey place value))
  | plain {index above : NodeIndex} {value : Value A} {below : Route A} {node : Node A}
      (hnode : tree.node? index = some node) (habove : node.parent = some above)
      (hcarrier : node.kind.carrier? = none) (hroot : node.kind ≠ .root)
      (hdynamic : node.kind.isDynamic = false) :
      Rises tree env chosen index value below (.going above value (below.addNode index))

section Turns

variable {env : A.Env} {chosen : Option (LinkChoice A)} {index : NodeIndex} {value : Value A}
  {below : Route A} {next : Ascent A} {node : Node A}

/-- What a turn that succeeds has done at a node that is no link. -/
theorem rise_ok (hdepth : below.nodes.length ≤ tree.revision.maxPathDepth)
    (hnode : tree.node? index = some node) (hplace : node.kind.target? = none)
    (h : rise tree env chosen index value below = .ok next) :
    Rises tree env chosen index value below next := by
  rcases root_or_dynamic_or_plain node.kind with hroot | ⟨resolver, hkind⟩ | ⟨hroot, hdynamic⟩
  · rw [rise_root hdepth hnode hroot] at h
    cases h
    exact .root hnode hroot
  · rw [rise_dynamic hdepth hnode hkind] at h
    obtain ⟨link, hlink, h⟩ := Result.of_bind_ok h
    obtain ⟨linkNode, hlinkNode, h⟩ := Result.of_bind_ok h
    have hlinkNode := Tree.node_ok hlinkNode
    by_cases hmismatch : (linkNode.kind.target? != some index) = true
    · rw [if_pos hmismatch] at h
      cases h
    rw [if_neg hmismatch] at h
    obtain ⟨above, habove, h⟩ := Result.of_bind_ok h
    cases h
    have htarget : linkNode.kind.target? = some index := by simpa using hmismatch
    refine .key (.inr htarget) hlinkNode (above_ok habove) (Climbs.carrier?_of_target? htarget) ?_
    exact .link ((Tree.linkTarget?_eq hlinkNode).trans htarget) hnode hkind hlink
  · rw [rise_step hdepth hnode hroot hdynamic] at h
    cases hcarrier : node.kind.carrier? with
    | some carrier =>
        simp only [hcarrier] at h
        obtain ⟨upper, hvalue, h⟩ := Result.of_bind_ok h
        obtain ⟨above, habove, h⟩ := Result.of_bind_ok h
        cases h
        exact .key (.inl rfl) hnode (above_ok habove) (by rw [hcarrier]; rfl)
          (.carrier hnode hplace hcarrier hvalue)
    | none =>
        simp only [hcarrier] at h
        obtain ⟨above, habove, h⟩ := Result.of_bind_ok h
        cases h
        exact .plain hnode (above_ok habove) hcarrier hroot hdynamic

end Turns

/-! ### What the turns have put together -/

/-- The values of some keys, both top-down, with the value above them: from the value that was sent
every key makes the one above it. -/
inductive Derived (tree : Tree A) (envs : List A.Env) (chosen : Option (LinkChoice A))
    (sent : Value A) : List NodeIndex → List (Value A) → Value A → Prop
  | sent : Derived tree envs chosen sent [] [] sent
  | raised {keys : List NodeIndex} {values : List (Value A)} {index : NodeIndex}
      {value upper : Value A} {env : A.Env}
      (hbelow : Derived tree envs chosen sent keys values value) (henv : env ∈ envs)
      (hraises : Raises tree env chosen index value upper) :
      Derived tree envs chosen sent (index :: keys) (value :: values) upper

namespace Derived

variable {envs : List A.Env} {chosen : Option (LinkChoice A)} {sent upper : Value A}
  {keys : List NodeIndex} {values : List (Value A)}

theorem aligned (h : Derived tree envs chosen sent keys values upper) :
    values.length = keys.length := by
  induction h with
  | sent => rfl
  | raised _ _ _ ih => rw [List.length_cons, List.length_cons, ih]

/-- The lowest value is the one that was sent. -/
theorem lowest (h : Derived tree envs chosen sent keys values upper) :
    (upper :: values).getLast? = some sent := by
  induction h with
  | sent => rfl
  | raised _ _ _ ih => rwa [List.getLast?_cons_cons]

/-- Each value was made by the key below it. -/
theorem chain (h : Derived tree envs chosen sent keys values upper) :
    (keys.zip values).IsChain fun above below =>
      ∃ env ∈ envs, Raises tree env chosen below.1 below.2 above.2 := by
  induction h with
  | sent => exact .nil
  | raised hbelow _ _ ih =>
      cases hbelow with
      | sent => exact .singleton _
      | raised _ henv hraises => exact .cons_cons ⟨_, henv, hraises⟩ ih

end Derived

/-- A route that was found rightly for a value sent to an endpoint, with callbacks that looked up in
some of `envs`. -/
structure Sound (tree : Tree A) (envs : List A.Env) (chosen : Option (LinkChoice A))
    (endpoint : NodeIndex) (sent : Value A) (route : Route A) : Prop where
  /-- The first node is a child of the root, and each further one of the node before it or, after
  a link, of its target, -/
  descends : tree.Descends .root route.nodes
  /-- which is a Dynamic node. -/
  linked : ∀ index ∈ route.nodes, ∀ target, tree.linkTarget? index = some target →
    ∃ goal, tree.node? target = some goal ∧ goal.kind.isDynamic = true
  /-- The last node is the endpoint. -/
  ends : route.nodes.getLast? = some endpoint
  /-- None of them is a root or a Dynamic node, -/
  concrete : ∀ index ∈ route.nodes, tree.Concrete index
  /-- and they are not too many. -/
  depth : route.nodes.length ≤ tree.revision.maxPathDepth
  /-- The keys are the nodes that carry a value, -/
  carrying : route.keys = route.nodes.filter tree.carries
  /-- which is what the receiver finds too. -/
  agreed : (ResolvedPath.ofNodes tree route.nodes).map (·.keys) = .ok route.keys
  /-- Each has a value, -/
  aligned : route.values.length = route.keys.length
  /-- the lowest the one that was sent, -/
  lowest : route.keys ≠ [] → route.values.getLast? = some sent
  /-- and each of the others the one that comes from the key below. -/
  raised : (route.keys.zip route.values).IsChain fun above below =>
    ∃ env ∈ envs, Raises tree env chosen below.1 below.2 above.2

/-- A climb to an endpoint's ancestor: the nodes that are below it on the route. -/
structure Stands (tree : Tree A) (endpoint index : NodeIndex) (nodes : List NodeIndex) : Prop where
  /-- The climb has not come to a link, since nothing hangs below one. -/
  place : ∃ node, tree.node? index = some node ∧ node.kind.target? = none
  hangs : Hangs tree index nodes
  concrete : ∀ index ∈ nodes, tree.Concrete index
  /-- The climb began at the endpoint. -/
  ends : nodes.getLast?.getD index = endpoint

/-- A climb that has come to a node: the route below it. -/
structure Under (tree : Tree A) (envs : List A.Env) (chosen : Option (LinkChoice A))
    (endpoint : NodeIndex) (sent : Value A) (index : NodeIndex) (value : Value A)
    (below : Route A) : Prop where
  stands : Stands tree endpoint index below.nodes
  carriers : ResolvedPath.carriers tree below.nodes = .ok below.keys
  derived : Derived tree envs chosen sent below.keys below.values value

section Turns

variable {env : A.Env} {envs : List A.Env} {chosen : Option (LinkChoice A)}
  {endpoint index place above : NodeIndex} {sent value upper : Value A} {below route : Route A}
  {nodes : List NodeIndex} {node : Node A}

/-- The node that a climb has come to, or a link in its place, goes on top. -/
theorem Stands.put (hformed : tree.WellFormed) (hendpoint : tree.isEndpoint endpoint = true)
    (h : Stands tree endpoint index nodes) (hplace : place = index ∨ node.kind.target? = some index)
    (hnode : tree.node? place = some node) (habove : node.parent = some above)
    (hroot : node.kind ≠ .root) (hdynamic : node.kind.isDynamic = false) :
    Stands tree endpoint above (place :: nodes) where
  place := by
    obtain ⟨upper, hupper, hleaf, -⟩ := hformed.shaped.listed hnode habove
    exact ⟨upper, hupper, NodeKind.target?_of_leafLabel? hleaf⟩
  hangs := by
    refine hangs_cons hformed.shaped hnode habove ?_
    rcases hplace with rfl | htarget
    · exact h.hangs.descends
    · exact h.hangs.descends_link hnode htarget
  concrete := List.forall_mem_cons.mpr ⟨⟨node, hnode, hroot, hdynamic⟩, h.concrete⟩
  ends := by
    rw [List.getLast?_cons, Option.getD_some]
    rcases hplace with rfl | htarget
    · exact h.ends
    · cases hlast : nodes.getLast? with
      | some last =>
          have hends := h.ends
          rwa [hlast] at hends
      | none =>
          -- There is no link to an endpoint.
          obtain rfl : index = endpoint := by simpa [hlast] using h.ends
          obtain ⟨goal, hgoal, hgoalDynamic⟩ := hformed.linked hnode htarget
          obtain ⟨found, hfound, -, hplain, -⟩ := Tree.endpoint_node hendpoint
          cases hfound.symm.trans hgoal
          cases hplain.symm.trans hgoalDynamic

/-- **A turn keeps what is true of the route.** -/
theorem Under.going (hformed : tree.WellFormed) (hendpoint : tree.isEndpoint endpoint = true)
    (h : Under tree envs chosen endpoint sent index value below) (henv : env ∈ envs)
    {longer : Route A}
    (hrises : Rises tree env chosen index value below (.going above upper longer)) :
    Under tree envs chosen endpoint sent above upper longer ∧
      longer.nodes.length = below.nodes.length + 1 := by
  cases hrises with
  | key hplace hnode habove hcarries hraises =>
      obtain ⟨hroot, hdynamic⟩ := NodeKind.concrete_of_carrier? hcarries
      refine ⟨⟨h.stands.put hformed hendpoint hplace hnode habove hroot hdynamic, ?_,
        h.derived.raised henv hraises⟩, rfl⟩
      refine (Climbs.carriers_cons hnode h.carriers).trans ?_
      rw [hcarries]
      rfl
  | plain hnode habove hcarrier hroot hdynamic =>
      refine ⟨⟨h.stands.put hformed hendpoint (.inl rfl) hnode habove hroot hdynamic, ?_,
        h.derived⟩, rfl⟩
      refine (Climbs.carriers_cons hnode h.carriers).trans ?_
      rw [hcarrier]
      rfl

/-- A route is sound once the root is reached. -/
theorem Under.done (hformed : tree.WellFormed) (hendpoint : tree.isEndpoint endpoint = true)
    (h : Under tree envs chosen endpoint sent index value below)
    (hdepth : below.nodes.length ≤ tree.revision.maxPathDepth)
    (hrises : Rises tree env chosen index value below (.done route)) :
    Sound tree envs chosen endpoint sent route := by
  cases hrises with
  | root hnode hkind =>
      obtain rfl := (hformed.root hnode).mp hkind
      refine ⟨h.stands.hangs.descends, ?_, ?_, h.stands.concrete, hdepth,
        ResolvedPath.carriers_eq_filter _ h.carriers, ?_, h.derived.aligned, ?_, h.derived.chain⟩
      · intro index _ target htarget
        obtain ⟨node, hnode, htarget⟩ := Option.bind_eq_some_iff.mp htarget
        exact hformed.linked hnode htarget
      · cases hlast : below.nodes.getLast? with
        | some last =>
            have hends := h.stands.ends
            rw [hlast] at hends
            rw [← hends]
            rfl
        | none =>
            -- The root is no endpoint.
            obtain rfl : NodeIndex.root = endpoint := by simpa [hlast] using h.stands.ends
            obtain ⟨found, hfound, hroot, -⟩ := Tree.endpoint_node hendpoint
            cases hfound.symm.trans hnode
            exact absurd hkind hroot
      · simp only [ResolvedPath.ofNodes, Result.bind_ok h.carriers]
        rfl
      · intro hkeys
        have hlowest := h.derived.lowest
        cases hvalues : below.values with
        | nil =>
            have haligned := h.derived.aligned
            rw [hvalues] at haligned
            exact absurd (List.length_eq_zero_iff.mp haligned.symm) hkeys
        | cons first rest => rwa [hvalues, List.getLast?_cons_cons] at hlowest

/-- **Every climb comes to an end.**  `left` is how many nodes it may still look at, so that many
turns and one more are enough; and if callbacks look up in one place all the time then this is what
the bounded climb answers. -/
theorem Under.settles (hformed : tree.WellFormed) (hendpoint : tree.isEndpoint endpoint = true)
    (left : Nat) : ∀ {seen : List A.Env} {index : NodeIndex} {value : Value A} {below : Route A},
      seen ⊆ envs → left < seen.length →
      Under tree envs chosen endpoint sent index value below →
      left + below.nodes.length = tree.revision.maxPathDepth + 1 →
      ∃ result : Except ProtocolError (Route A),
        turns tree chosen seen (.going index value below) = result.map .done ∧
        (∀ env, (∀ other ∈ seen, other = env) →
          result = climb tree env chosen left index value below) ∧
        ∀ route, result = .ok route → Sound tree envs chosen endpoint sent route := by
  induction left with
  | zero =>
      intro seen index value below _ hseen _ hleft
      obtain ⟨env, rest, rfl⟩ := List.exists_cons_of_length_pos hseen
      have hdeep : tree.revision.maxPathDepth < below.nodes.length := by omega
      refine ⟨.error (.pathTooDeep below.nodes.length tree.revision.maxPathDepth), ?_,
        fun _ _ => rfl, nofun⟩
      rw [turns_going, rise_too_deep hdeep]
      rfl
  | succ left ih =>
      intro seen index value below hsub hseen hunder hleft
      obtain ⟨env, rest, rfl⟩ := List.exists_cons_of_length_pos (Nat.zero_lt_of_lt hseen)
      obtain ⟨henv, hrest⟩ := List.cons_subset.mp hsub
      have hdepth : below.nodes.length ≤ tree.revision.maxPathDepth := by omega
      obtain ⟨node, hnode, hplace⟩ := hunder.stands.place
      rw [turns_going]
      cases hrise : rise tree env chosen index value below with
      | error cause =>
          refine ⟨.error cause, rfl, fun other hother => ?_, nofun⟩
          obtain rfl := hother env List.mem_cons_self
          rw [climb_succ hdepth, hrise]
          rfl
      | ok next =>
          have hrises := rise_ok hdepth hnode hplace hrise
          cases next with
          | done route =>
              refine ⟨.ok route, turns_done route, fun other hother => ?_, ?_⟩
              · obtain rfl := hother env List.mem_cons_self
                rw [climb_succ hdepth, hrise]
                rfl
              · rintro found hfound
                cases hfound
                exact hunder.done hformed hendpoint hdepth hrises
          | going above upper longer =>
              obtain ⟨hlonger, hlength⟩ := hunder.going hformed hendpoint henv hrises
              obtain ⟨result, hresult, hsame, hsound⟩ :=
                ih hrest (Nat.lt_of_succ_lt_succ hseen) hlonger (by omega)
              refine ⟨result, hresult, fun other hother => ?_, hsound⟩
              rw [hsame other fun env henv => hother env (List.mem_cons_of_mem _ henv)]
              obtain rfl := hother env List.mem_cons_self
              rw [climb_succ hdepth, hrise]
              rfl

end Turns

end Route

/-- **Finding a route comes to an end, and the route is sound.**  This is so for every well-formed
tree and whatever the callbacks answer, in each turn something else if they like: `envs` is what
they look up in, turn after turn. -/
theorem resolution_settles (hformed : tree.WellFormed) {endpoint : NodeIndex}
    (hendpoint : tree.isEndpoint endpoint = true) (value : Value A)
    (chosen : Option (LinkChoice A)) {envs : List A.Env}
    (hturns : tree.revision.maxPathDepth + 2 ≤ envs.length) :
    ∃ result : Except ProtocolError (Route A),
      Route.turns tree chosen envs (.going endpoint value .empty) = result.map .done ∧
      (∀ env, (∀ other ∈ envs, other = env) →
        result = Route.resolve tree env endpoint value chosen) ∧
      ∀ route, result = .ok route → Route.Sound tree envs chosen endpoint value route := by
  obtain ⟨node, hnode, -, -, hplace⟩ := Tree.endpoint_node hendpoint
  have hstart : Route.Under tree envs chosen endpoint value endpoint value .empty := by
    refine ⟨⟨⟨node, hnode, hplace⟩, ?_, nofun, rfl⟩, rfl, .sent⟩
    intro first rest hcons
    cases hcons
  exact hstart.settles hformed hendpoint (tree.revision.maxPathDepth + 1)
    (List.Subset.refl envs) hturns rfl

/-! Crates in crates.  A crate is a chain of labels, its own in front of those of the crates around
it.  The outermost stands on the floor, and a crate without any label is in itself. -/

namespace Crates

open Scenario (app valType Atom Chain)

/-- The link for a crate, with the crate around it if there is one. -/
def place : Chain → DynamicLink valType
  | [] => ⟨valType, ⟨⟨2⟩, ⟨1⟩⟩, []⟩
  | [_] => ⟨.unit, ⟨⟨3⟩, ⟨1⟩⟩, ()⟩
  | _ :: outer => ⟨valType, ⟨⟨2⟩, ⟨1⟩⟩, outer⟩

def crate : Parent valType := ⟨⟨1⟩⟩

def declareCrate : BuilderCall app :=
  .dynamic valType "crate" (some fun _ labels => some (place labels))

def declareInside : BuilderCall app := .link crate crate "inside" fun _ _ => none

def declareFloor : BuilderCall app := .link .root crate "floor" fun _ _ => none

def declareOpen : BuilderCall app := .signal crate "open" fun _ _ _ => pure ()

/-- The tree under construction. -/
def builder : TreeBuilder app :=
  match (declareCrate.run >>= fun _ => declareInside.run >>= fun _ => declareFloor.run >>= fun _ =>
    declareOpen.run) (.new .zero) with
  | .ok _ builder | .error _ builder => builder

theorem declared : ∃ crate inside floor,
    declareCrate.run (.new .zero) = .ok [.parent valType ⟨1⟩] crate ∧
      declareInside.run crate = .ok [.link valType valType ⟨2⟩ ⟨1⟩] inside ∧
      declareFloor.run inside = .ok [.link .unit valType ⟨3⟩ ⟨1⟩] floor ∧
      declareOpen.run floor = .ok [.endpoint valType ⟨4⟩] builder :=
  ⟨_, _, _, rfl, rfl, rfl, rfl⟩

/-- The handles that were given out. -/
def handles : List (Handle app) :=
  [.parent .unit .root, .parent valType ⟨1⟩, .link valType valType ⟨2⟩ ⟨1⟩,
    .link .unit valType ⟨3⟩ ⟨1⟩, .endpoint valType ⟨4⟩]

theorem built : Built .zero (fun handles call => call.Honest handles) builder handles := by
  obtain ⟨crate, inside, floor, hcrate, hinside, hfloor, hopen⟩ := declared
  refine .answered declareOpen (.answered declareFloor (.answered declareInside
    (.answered declareCrate .new ?_ hcrate) ?_ hinside) ?_ hfloor) ?_ hopen
  all_goals
    simp [BuilderCall.Honest, BuilderCall.uses, declareCrate, declareInside, declareFloor,
      declareOpen, Crates.crate, Parent.root]

theorem formed : builder.build.WellFormed := by
  have hsound := built.grown (TreeBuilder.sound_new _) fun _ _ hgrowth => hgrowth.sound
  exact hsound.wellFormed

/-- A crate as a context value. -/
def labelled (labels : List String) : Value app := ⟨valType, labels.map .text⟩

/-- What callbacks look up in, as often as a climb can ask. -/
def envs : List Scenario.Names := List.replicate 34 {}

/-- There is a way to a crate in a crate.  The way to the crate that is in itself gets too deep. -/
theorem crates_settle :
    Route.Sound builder.build envs none ⟨4⟩ (labelled ["inner", "outer"])
        ⟨[⟨3⟩, ⟨2⟩, ⟨4⟩], [⟨3⟩, ⟨2⟩], [labelled ["outer"], labelled ["inner", "outer"]]⟩ ∧
      Route.turns builder.build none envs (.going ⟨4⟩ (labelled []) .empty)
        = .error (.pathTooDeep 33 32) := by
  have hopen : builder.build.isEndpoint ⟨4⟩ = true := rfl
  have hturns : builder.build.revision.maxPathDepth + 2 ≤ envs.length := Nat.le_refl _
  have hsame : ∀ other ∈ envs, other = {} := fun _ => List.eq_of_mem_replicate
  obtain ⟨result, -, hresult, hsound⟩ :=
    resolution_settles formed hopen (labelled ["inner", "outer"]) none hturns
  obtain ⟨deep, hdeep, hcause, -⟩ := resolution_settles formed hopen (labelled []) none hturns
  refine ⟨hsound _ ((hresult {} hsame).trans rfl), ?_⟩
  rw [hdeep, hcause {} hsame]
  rfl

end Crates

end PathWire

/-
The shape of a built tree.

A node is listed among its parent's children, the children of a node have different names, and
only the node at the start is a root.  That is all it takes for a chain of names to lead to one
node at most, and for the way up from a node to be a way down to it.
-/
import PathWire.Proofs.Tree.Built

namespace PathWire

variable {A : Application}

namespace TreeBuilder

variable {builder after : TreeBuilder A} {index : NodeIndex} {node : Node A}

/-! ### Looking nodes up after an edit -/

/-- A new builder has the root only. -/
theorem node?_new (revision : Revision) {index : NodeIndex} {node : Node A}
    (h : (new revision).node? index = some node) : index = .root ∧ node = rootNode := by
  obtain ⟨position⟩ := index
  cases position with
  | zero => exact ⟨rfl, (Option.some.inj h).symm⟩
  | succ position => simp [new, node?] at h

/-- The node that a builder adds. -/
def fresh (builder : TreeBuilder A) (parent : Option NodeIndex) (name : String)
    (ownLength : LengthHint) (kind : NodeKind A) : Node A where
  name := name
  parent := parent
  children := []
  ownLength := ownLength
  length := (match parent with
    | some above => builder.lengthOf above
    | none => .fixed 0).add ownLength
  kind := kind

/-- The index of the next node. -/
def nextIndex (builder : TreeBuilder A) : NodeIndex := ⟨builder.nodes.size⟩

theorem node?_nextIndex (builder : TreeBuilder A) : builder.node? builder.nextIndex = none := by
  simp [node?, nextIndex]

/-- The nodes of a builder with one more node. -/
theorem node?_push (builder : TreeBuilder A) (parent : Option NodeIndex) (name : String)
    (ownLength : LengthHint) (kind : NodeKind A) (index : NodeIndex) :
    (builder.push parent name ownLength kind).node? index =
      if index = builder.nextIndex then some (builder.fresh parent name ownLength kind)
      else (builder.node? index).map fun node =>
        if parent = some index then adopt builder.nextIndex node else node := by
  obtain ⟨position⟩ := index
  cases parent with
  | none =>
      simp only [node?, push, nextIndex, Array.getElem?_push, NodeIndex.mk.injEq]
      by_cases hnew : position = builder.nodes.size
      · simp [hnew, fresh]
      · simp [hnew]
  | some above =>
      obtain ⟨place⟩ := above
      simp only [node?, push, nextIndex, Array.getElem?_push, Array.size_modify,
        Array.getElem?_modify, NodeIndex.mk.injEq, Option.some.injEq]
      by_cases hnew : position = builder.nodes.size
      · simp [hnew, fresh]
      · by_cases hplace : place = position
        · simp [hnew, hplace]
        · simp [hnew, hplace]

/-- What a node keeps when another one is added: all but a new last child. -/
structure Kept (builder : TreeBuilder A) (above : Option NodeIndex) (index : NodeIndex)
    (old node : Node A) : Prop where
  name : node.name = old.name
  parent : node.parent = old.parent
  kind : node.kind = old.kind
  children : node.children = old.children ∨
    above = some index ∧ node.children = old.children ++ [builder.nextIndex]

variable {parent : Option NodeIndex} {name : String} {ownLength : LengthHint} {kind : NodeKind A}

theorem kept_adopt (node : Node A) :
    Kept builder parent index node
      (if parent = some index then adopt builder.nextIndex node else node) := by
  by_cases hparent : parent = some index
  · rw [if_pos hparent]
    exact ⟨rfl, rfl, rfl, .inr ⟨hparent, rfl⟩⟩
  · rw [if_neg hparent]
    exact ⟨rfl, rfl, rfl, .inl rfl⟩

/-- A node that was there before is still there. -/
theorem node?_push_of_old (h : builder.node? index = some node) :
    ∃ kept, (builder.push parent name ownLength kind).node? index = some kept ∧
      Kept builder parent index node kept := by
  have hold : index ≠ builder.nextIndex := by
    rintro rfl
    simp [node?_nextIndex] at h
  refine ⟨_, ?_, kept_adopt node⟩
  rw [node?_push, if_neg hold, h, Option.map_some]

/-- Every other node is the new one. -/
theorem node?_push_cases (h : (builder.push parent name ownLength kind).node? index = some node) :
    (index = builder.nextIndex ∧ node = builder.fresh parent name ownLength kind) ∨
      ∃ old, builder.node? index = some old ∧ Kept builder parent index old node := by
  rw [node?_push] at h
  by_cases hnew : index = builder.nextIndex
  · rw [if_pos hnew] at h
    exact .inl ⟨hnew, (Option.some.inj h).symm⟩
  · rw [if_neg hnew] at h
    obtain ⟨old, hold, hchanged⟩ := Option.map_eq_some_iff.mp h
    exact .inr ⟨old, hold, hchanged ▸ kept_adopt old⟩

theorem node?_push_nextIndex :
    (builder.push parent name ownLength kind).node? builder.nextIndex =
      some (builder.fresh parent name ownLength kind) := by
  rw [node?_push, if_pos rfl]

theorem node?_retouch (builder : TreeBuilder A) (target : NodeIndex) (change : Node A → Node A)
    (index : NodeIndex) :
    (builder.retouch target change).node? index =
      (builder.node? index).map fun node => if target = index then change node else node := by
  obtain ⟨position⟩ := index
  obtain ⟨place⟩ := target
  simp only [node?, retouch, Array.getElem?_modify, NodeIndex.mk.injEq]
  by_cases hplace : place = position
  · simp [hplace]
  · simp [hplace]

theorem retouched_ite {target : NodeIndex} {change : Node A → Node A}
    (hchange : ∀ node : Node A, node.Retouched (change node)) (index : NodeIndex) (node : Node A) :
    node.Retouched (if target = index then change node else node) := by
  by_cases htarget : target = index
  · rw [if_pos htarget]
    exact hchange node
  · rw [if_neg htarget]
    exact ⟨rfl, rfl, rfl, .inl rfl⟩

/-- A node that was there before is there after one was retouched. -/
theorem node?_retouch_of_old {target : NodeIndex} {change : Node A → Node A}
    (hchange : ∀ node : Node A, node.Retouched (change node))
    (h : builder.node? index = some node) :
    ∃ after, (builder.retouch target change).node? index = some after ∧ node.Retouched after := by
  refine ⟨if target = index then change node else node, ?_, retouched_ite hchange index node⟩
  rw [node?_retouch, h, Option.map_some]

/-- There are no others. -/
theorem node?_retouch_cases {target : NodeIndex} {change : Node A → Node A}
    (hchange : ∀ node : Node A, node.Retouched (change node))
    (h : (builder.retouch target change).node? index = some node) :
    ∃ old, builder.node? index = some old ∧ old.Retouched node := by
  rw [node?_retouch] at h
  obtain ⟨old, hold, hchanged⟩ := Option.map_eq_some_iff.mp h
  exact ⟨old, hold, hchanged ▸ retouched_ite hchange index old⟩

/-- Below which node a name was found to be fit for a new one. -/
theorem checkName_below {above : NodeIndex} {name : String}
    (h : builder.checkName (some above) name = .ok ()) :
    ∃ upper, builder.node? above = some upper ∧ upper.kind.leafLabel? = none ∧
      ∀ child ∈ upper.children, builder.isNamed name child = false := by
  unfold checkName at h
  by_cases hname : isName builder.revision name = true
  · simp only [hname, Bool.not_true, Bool.false_eq_true, if_false, bind, Except.bind] at h
    cases hsiblings : builder.siblings (some above) name with
    | error cause => simp [hsiblings] at h
    | ok others =>
        have hnone : ∀ child ∈ others, builder.isNamed name child = false := by
          by_cases hany : others.any (builder.isNamed name) = true
          · simp [hsiblings, hany] at h
          · simpa using hany
        unfold TreeBuilder.siblings at hsiblings
        cases hupper : builder.node? above with
        | none => simp [hupper] at hsiblings
        | some upper =>
            cases hleaf : upper.kind.leafLabel? with
            | some label => simp [hupper, hleaf] at hsiblings
            | none =>
                simp only [hupper, hleaf, Except.ok.injEq] at hsiblings
                exact ⟨upper, rfl, hleaf, hsiblings ▸ hnone⟩
  · simp [hname, bind, Except.bind] at h

/-- A node found after an edit is new, or it was there before and keeps what tells its place and
its kind. -/
theorem Edit.node_cases {adds : NodeKind A → Prop} {mends : MissingHandler A → Prop}
    (h : Edit adds mends builder after)
    {index : NodeIndex} {node : Node A} (hnode : after.node? index = some node) :
    (builder.node? index = none ∧ adds node.kind) ∨
      ∃ old, builder.node? index = some old ∧ node.name = old.name ∧ node.parent = old.parent ∧
        (node.kind = old.kind ∨ ∃ handler : MissingHandler A,
          node.kind = old.kind.mapEndpoint fun e => { e with onMissing := some handler }) := by
  cases h with
  | push parent name ownLength hname hkind =>
      rcases node?_push_cases hnode with ⟨rfl, rfl⟩ | ⟨old, hold, hkept⟩
      · exact .inl ⟨builder.node?_nextIndex, hkind⟩
      · exact .inr ⟨old, hold, hkept.name, hkept.parent, .inl hkept.kind⟩
  | retouch target hchange hmends =>
      obtain ⟨old, hold, hretouched⟩ := node?_retouch_cases hchange hnode
      exact .inr ⟨old, hold, hretouched.name, hretouched.parent, hretouched.kind⟩
  | count group slots => exact .inr ⟨node, hnode, rfl, rfl, .inl rfl⟩

end TreeBuilder

/-! ### What `add` does -/

namespace Building

open TreeBuilder

variable {builder after : TreeBuilder A} {parent : Option NodeIndex} {name : String}

theorem add_eq_ok (ownLength : LengthHint) (kind : NodeKind A)
    (h : builder.checkName parent name = .ok ()) :
    add parent name ownLength kind builder
      = .ok builder.nextIndex (builder.push parent name ownLength kind) := by
  simp only [add, h]
  rfl

theorem add_eq_error (ownLength : LengthHint) (kind : NodeKind A) {cause : ProtocolError}
    (h : builder.checkName parent name = .error cause) :
    add parent name ownLength kind builder = .error cause builder := by
  simp only [add, h]

/-- A node that was declared is the next one. -/
theorem add_ok {ownLength : LengthHint} {kind : NodeKind A} {index : NodeIndex}
    (h : add parent name ownLength kind builder = .ok index after) :
    index = builder.nextIndex ∧ after = builder.push parent name ownLength kind := by
  cases hname : builder.checkName parent name with
  | ok checked =>
      rw [add_eq_ok ownLength kind hname] at h
      cases h
      exact ⟨rfl, rfl⟩
  | error cause =>
      rw [add_eq_error ownLength kind hname] at h
      cases h

end Building

/-- **A property of kinds of nodes holds all over a built tree** if the calls only add
nodes that have it, and if it does not depend on the missing-keys handler. -/
theorem Built.kinds {revision : Revision}
    {allowed : List (Handle A) → BuilderCall A → Prop} {Q : NodeKind A → Prop} (hroot : Q .root)
    (hadds : ∀ handles call kind, allowed handles call → call.Adds kind → Q kind)
    (hmissing : ∀ kind (handler : MissingHandler A), Q kind →
      Q (kind.mapEndpoint fun e => { e with onMissing := some handler }))
    {builder : TreeBuilder A} {handles : List (Handle A)}
    (h : Built revision allowed builder handles) {index : NodeIndex} {node : Node A}
    (hnode : builder.build.node? index = some node) : Q node.kind := by
  refine h.invariant (P := fun builder => ∀ index node, builder.node? index = some node →
    Q node.kind) ?_ ?_ index node hnode
  · intro index node hnode
    obtain ⟨-, rfl⟩ := TreeBuilder.node?_new revision hnode
    exact hroot
  · intro handles call hallowed before after hedit hbefore index node hnode
    rcases hedit.node_cases hnode with ⟨-, hkind⟩ | ⟨old, hold, -, -, hkind | ⟨handler, hkind⟩⟩
    · exact hadds handles call _ hallowed hkind
    · rw [hkind]
      exact hbefore index old hold
    · rw [hkind]
      exact hmissing _ handler (hbefore index old hold)

/-- A node is added without a missing-keys handler. -/
theorem BuilderCall.Adds.no_handler {call : BuilderCall A} {kind : NodeKind A}
    (h : call.Adds kind) {endpoint : EndpointDef A} (hendpoint : kind.endpoint? = some endpoint) :
    endpoint.onMissing = none := by
  cases call with
  | cache name codec =>
      rcases h with rfl | ⟨slot, maxEntries, rfl⟩
      · cases hendpoint
      · cases hendpoint
        rfl
  | cacheWithCapacity name codec maxEntries =>
      rcases h with rfl | ⟨slot, rfl⟩
      · cases hendpoint
      · cases hendpoint
        rfl
  | endpoint | keyedEndpoint | signal =>
      cases h
      cases hendpoint
      rfl
  | setPayloadLength | onMissing => exact h.elim
  | _ =>
      cases h
      cases hendpoint

/-- **A property of missing-keys handlers holds all over a built tree** if no others are
installed. -/
theorem Built.handlers {revision : Revision}
    {allowed : List (Handle A) → BuilderCall A → Prop} {Q : MissingHandler A → Prop}
    (hmends : ∀ handles call handler, allowed handles call → call.Mends handler → Q handler)
    {builder : TreeBuilder A} {handles : List (Handle A)}
    (h : Built revision allowed builder handles) {index : NodeIndex} {node : Node A}
    (hnode : builder.build.node? index = some node) {endpoint : EndpointDef A}
    (hendpoint : node.kind.endpoint? = some endpoint) {handler : MissingHandler A}
    (hhandler : endpoint.onMissing = some handler) : Q handler := by
  refine h.invariant (P := fun builder => ∀ index node endpoint, builder.node? index = some node →
    node.kind.endpoint? = some endpoint → ∀ handler, endpoint.onMissing = some handler →
      Q handler) ?_ ?_ index node endpoint hnode hendpoint handler hhandler
  · intro index node endpoint hnode hendpoint
    obtain ⟨-, rfl⟩ := TreeBuilder.node?_new revision hnode
    cases hendpoint
  · intro handles call hallowed before after hedit hbefore index node endpoint hnode hendpoint
    cases hedit with
    | push parent name ownLength hname hkind =>
        rcases TreeBuilder.node?_push_cases hnode with ⟨-, rfl⟩ | ⟨old, hold, hkept⟩
        · intro handler hhandler
          rw [hkind.no_handler hendpoint] at hhandler
          cases hhandler
        · exact hbefore index old endpoint hold (hkept.kind ▸ hendpoint)
    | retouch target hchange hinstalls =>
        rw [TreeBuilder.node?_retouch] at hnode
        obtain ⟨old, hold, hchanged⟩ := Option.map_eq_some_iff.mp hnode
        by_cases htarget : target = index
        · rw [if_pos htarget] at hchanged
          subst hchanged
          rcases hinstalls old with hsame | ⟨installed, hinstalled, hkind⟩
          · exact hbefore index old endpoint hold (hsame ▸ hendpoint)
          · rw [hkind] at hendpoint
            intro handler hhandler
            have hnew : endpoint.onMissing = some installed := by
              cases hold : old.kind with
              | endpoint | keyedEndpoint =>
                  rw [hold] at hendpoint
                  cases hendpoint
                  rfl
              | _ =>
                  rw [hold] at hendpoint
                  cases hendpoint
            obtain rfl := Option.some.inj (hnew.symm.trans hhandler)
            exact hmends handles call installed hallowed hinstalled
        · rw [if_neg htarget] at hchanged
          subst hchanged
          exact hbefore index old endpoint hold hendpoint
    | count group slots => exact hbefore index node endpoint hnode hendpoint

/-! ### Every built tree is well shaped -/

/-- What the position of the nodes has to do with each other. -/
structure Tree.Shaped (tree : Tree A) : Prop where
  /-- Only the node at the start is a root. -/
  root : ∀ {index : NodeIndex} {node : Node A}, tree.node? index = some node →
    node.kind = .root → index = .root
  /-- A node hangs below a node that may have children, and is one of them. -/
  listed : ∀ {index above : NodeIndex} {node : Node A}, tree.node? index = some node →
    node.parent = some above → ∃ upper, tree.node? above = some upper ∧
      upper.kind.leafLabel? = none ∧ index ∈ upper.children
  /-- Children are nodes of the tree. -/
  known : ∀ {above child : NodeIndex} {upper : Node A}, tree.node? above = some upper →
    child ∈ upper.children → ∃ node, tree.node? child = some node
  /-- Children of one node have different names. -/
  apart : ∀ {above one other : NodeIndex} {upper : Node A}, tree.node? above = some upper →
    one ∈ upper.children → other ∈ upper.children → tree.name one = tree.name other → one = other
  /-- A child hangs below the node that lists it. -/
  hung : ∀ {above child : NodeIndex} {upper node : Node A}, tree.node? above = some upper →
    child ∈ upper.children → tree.node? child = some node → node.parent = some above

namespace Tree

variable {tree : Tree A} {index : NodeIndex} {node : Node A}

theorem parent?_eq (h : tree.node? index = some node) : tree.parent? index = node.parent := by
  rw [parent?, h, Option.bind_some]

theorem linkTarget?_eq (h : tree.node? index = some node) :
    tree.linkTarget? index = node.kind.target? := by
  rw [linkTarget?, h, Option.bind_some]

theorem name_eq (h : tree.node? index = some node) : tree.name index = node.name := by
  simp [Tree.name, h]

theorem node_ok (h : tree.node index = .ok node) : tree.node? index = some node := by
  unfold Tree.node at h
  cases hnode : tree.node? index with
  | none => simp [hnode] at h
  | some found => simpa [hnode] using h

theorem node_of_node? (h : tree.node? index = some node) : tree.node index = .ok node := by
  simp only [Tree.node, h]

end Tree

namespace Node.Retouched

variable {before after : Node A}

theorem kind_root (h : before.Retouched after) (hroot : after.kind = .root) :
    before.kind = .root := by
  rcases h.kind with hkind | ⟨handler, hkind⟩
  · exact hkind ▸ hroot
  · rw [hroot] at hkind
    cases hbefore : before.kind <;> simp [hbefore, NodeKind.mapEndpoint] at hkind
    rfl

theorem leafLabel? (h : before.Retouched after) :
    after.kind.leafLabel? = before.kind.leafLabel? := by
  rcases h.kind with hkind | ⟨handler, hkind⟩
  · rw [hkind]
  · rw [hkind]
    cases before.kind <;> rfl

end Node.Retouched

namespace TreeBuilder

variable {builder after : TreeBuilder A} {index : NodeIndex} {node : Node A}

theorem name_build (h : builder.node? index = some node) : builder.build.name index = node.name :=
  Tree.name_eq h

theorem shaped_new (revision : Revision) : (new (A := A) revision).build.Shaped where
  root h _ := (node?_new revision h).1
  listed h hparent := by
    obtain ⟨-, rfl⟩ := node?_new revision h
    cases hparent
  known h hchild := by
    obtain ⟨-, rfl⟩ := node?_new revision h
    cases hchild
  apart h hone _ _ := by
    obtain ⟨-, rfl⟩ := node?_new revision h
    cases hone
  hung h hchild _ := by
    obtain ⟨-, rfl⟩ := node?_new revision h
    cases hchild

variable {parent : Option NodeIndex} {name : String} {ownLength : LengthHint} {kind : NodeKind A}

/-- A node that was there before keeps its name. -/
theorem name_push_of_old (h : builder.node? index = some node) :
    (builder.push parent name ownLength kind).build.name index = builder.build.name index := by
  obtain ⟨kept, hkept, hsame⟩ := node?_push_of_old h
  rw [name_build hkept, name_build h, hsame.name]

/-- A name that was found fit is no child's name. -/
theorem checkName_apart {above child : NodeIndex} {upper : Node A}
    (hname : builder.checkName (some above) name = .ok ())
    (hupper : builder.node? above = some upper) (hchild : child ∈ upper.children)
    (hnode : builder.node? child = some node) : builder.build.name child ≠ name := by
  intro hsame
  obtain ⟨found, hfound, -, hfit⟩ := checkName_below hname
  cases hupper.symm.trans hfound
  have hdifferent := hfit child hchild
  rw [name_build hnode] at hsame
  simp [isNamed, hnode, hsame] at hdifferent

/-- A new node keeps the shape if its name was found fit. -/
theorem shaped_push (hshaped : builder.build.Shaped)
    (hname : builder.checkName parent name = .ok ()) (hkind : kind ≠ .root) :
    (builder.push parent name ownLength kind).build.Shaped where
  root h hroot := by
    rcases node?_push_cases h with ⟨-, rfl⟩ | ⟨old, hold, hkept⟩
    · exact absurd hroot hkind
    · exact hshaped.root hold (hkept.kind ▸ hroot)
  listed {index above node} h hparent := by
    rcases node?_push_cases h with ⟨rfl, rfl⟩ | ⟨old, hold, hkept⟩
    · have hparent : parent = some above := hparent
      subst hparent
      obtain ⟨upper, hupper, hleaf, -⟩ := checkName_below hname
      refine ⟨adopt builder.nextIndex upper, ?_, hleaf, by simp [adopt]⟩
      have hold : above ≠ builder.nextIndex := by
        rintro rfl
        simp [node?_nextIndex] at hupper
      show (builder.push (some above) name ownLength kind).node? above = _
      rw [node?_push, if_neg hold, hupper, Option.map_some, if_pos rfl]
    · obtain ⟨upper, hupper, hleaf, hmem⟩ := hshaped.listed hold (hkept.parent ▸ hparent)
      obtain ⟨upper', hupper', hkept'⟩ := node?_push_of_old hupper
      refine ⟨upper', hupper', hkept'.kind ▸ hleaf, ?_⟩
      rcases hkept'.children with hsame | ⟨-, hmore⟩
      · exact hsame ▸ hmem
      · exact hmore ▸ List.mem_append_left _ hmem
  known {above child upper} h hchild := by
    rcases node?_push_cases h with ⟨rfl, rfl⟩ | ⟨old, hold, hkept⟩
    · cases hchild
    · rcases hkept.children with hsame | ⟨-, hmore⟩
      · obtain ⟨node, hnode⟩ := hshaped.known hold (hsame ▸ hchild)
        obtain ⟨kept, hkept, -⟩ := node?_push_of_old hnode
        exact ⟨kept, hkept⟩
      · rcases List.mem_append.mp (hmore ▸ hchild) with hchild | hchild
        · obtain ⟨node, hnode⟩ := hshaped.known hold hchild
          obtain ⟨kept, hkept, -⟩ := node?_push_of_old hnode
          exact ⟨kept, hkept⟩
        · rw [List.mem_singleton.mp hchild]
          exact ⟨_, node?_push_nextIndex⟩
  apart {above one other upper} h hone hother hnames := by
    rcases node?_push_cases h with ⟨rfl, rfl⟩ | ⟨old, hold, hkept⟩
    · cases hone
    have hsame : ∀ {child}, child ∈ old.children →
        (builder.push parent name ownLength kind).build.name child = builder.build.name child := by
      intro child hchild
      obtain ⟨node, hnode⟩ := hshaped.known hold hchild
      exact name_push_of_old hnode
    rcases hkept.children with hchildren | ⟨rfl, hchildren⟩
    · rw [hchildren] at hone hother
      rw [hsame hone, hsame hother] at hnames
      exact hshaped.apart hold hone hother hnames
    · have hnew : (builder.push (some above) name ownLength kind).build.name builder.nextIndex
          = name := name_build node?_push_nextIndex
      have hfit : ∀ child ∈ old.children, builder.build.name child ≠ name := by
        intro child hchild
        obtain ⟨node, hnode⟩ := hshaped.known hold hchild
        exact checkName_apart hname hold hchild hnode
      rw [hchildren, List.mem_append, List.mem_singleton] at hone hother
      rcases hone with hone | rfl
      · rcases hother with hother | rfl
        · rw [hsame hone, hsame hother] at hnames
          exact hshaped.apart hold hone hother hnames
        · rw [hsame hone, hnew] at hnames
          exact absurd hnames (hfit one hone)
      · rcases hother with hother | rfl
        · rw [hsame hother, hnew] at hnames
          exact absurd hnames.symm (hfit other hother)
        · rfl
  hung {above child upper node} h hchild hnode := by
    rcases node?_push_cases h with ⟨rfl, rfl⟩ | ⟨old, hold, hkept⟩
    · cases hchild
    have hstays : child ∈ old.children → node.parent = some above := by
      intro hmem
      obtain ⟨before, hbefore⟩ := hshaped.known hold hmem
      obtain ⟨after, hafter, hsame⟩ := node?_push_of_old hbefore
      cases hnode.symm.trans hafter
      exact hsame.parent.trans (hshaped.hung hold hmem hbefore)
    rcases hkept.children with hsame | ⟨hbelow, hmore⟩
    · exact hstays (hsame ▸ hchild)
    · rcases List.mem_append.mp (hmore ▸ hchild) with hmem | hnew
      · exact hstays hmem
      · obtain rfl := List.mem_singleton.mp hnew
        cases hnode.symm.trans node?_push_nextIndex
        exact hbelow

/-- Retouching a node keeps the shape. -/
theorem shaped_retouch (hshaped : builder.build.Shaped) (target : NodeIndex)
    {change : Node A → Node A} (hchange : ∀ node : Node A, node.Retouched (change node)) :
    (builder.retouch target change).build.Shaped := by
  have hname : ∀ {child : NodeIndex}, (∃ old, builder.node? child = some old) →
      (builder.retouch target change).build.name child = builder.build.name child := by
    rintro child ⟨old, hold⟩
    obtain ⟨node, hnode, hretouched⟩ := node?_retouch_of_old hchange hold
    rw [name_build hnode, name_build hold, hretouched.name]
  constructor
  · intro index node h hroot
    obtain ⟨old, hold, hretouched⟩ := node?_retouch_cases hchange h
    exact hshaped.root hold (hretouched.kind_root hroot)
  · intro index above node h hparent
    obtain ⟨old, hold, hretouched⟩ := node?_retouch_cases hchange h
    obtain ⟨upper, hupper, hleaf, hmem⟩ := hshaped.listed hold (hretouched.parent ▸ hparent)
    obtain ⟨upper', hupper', hretouched'⟩ := node?_retouch_of_old hchange hupper
    exact ⟨upper', hupper', hretouched'.leafLabel?.trans hleaf, hretouched'.children ▸ hmem⟩
  · intro above child upper h hchild
    obtain ⟨old, hold, hretouched⟩ := node?_retouch_cases hchange h
    obtain ⟨node, hnode⟩ := hshaped.known hold (hretouched.children ▸ hchild)
    obtain ⟨node', hnode', -⟩ := node?_retouch_of_old hchange hnode
    exact ⟨node', hnode'⟩
  · intro above one other upper h hone hother hnames
    obtain ⟨old, hold, hretouched⟩ := node?_retouch_cases hchange h
    rw [hretouched.children] at hone hother
    rw [hname (hshaped.known hold hone), hname (hshaped.known hold hother)] at hnames
    exact hshaped.apart hold hone hother hnames
  · intro above child upper node h hchild hnode
    obtain ⟨old, hold, hretouched⟩ := node?_retouch_cases hchange h
    obtain ⟨before, hbefore, hsame⟩ := node?_retouch_cases hchange hnode
    rw [hretouched.children] at hchild
    exact hsame.parent.trans (hshaped.hung hold hchild hbefore)

end TreeBuilder

theorem BuilderCall.Adds.ne_root {call : BuilderCall A} {kind : NodeKind A}
    (h : call.Adds kind) : kind ≠ .root := by
  rintro rfl
  cases call <;> simp [BuilderCall.Adds] at h

/-- **Every built tree is well shaped.** -/
theorem Built.shaped {revision : Revision}
    {allowed : List (Handle A) → BuilderCall A → Prop} {builder : TreeBuilder A}
    {handles : List (Handle A)} (h : Built revision allowed builder handles) :
    builder.build.Shaped := by
  refine h.invariant (P := fun builder => builder.build.Shaped)
    (TreeBuilder.shaped_new revision) ?_
  intro handles call _ before after hedit hbefore
  cases hedit with
  | push parent name ownLength hname hkind =>
      exact TreeBuilder.shaped_push hbefore hname hkind.ne_root
  | retouch target hchange hmends => exact TreeBuilder.shaped_retouch hbefore target hchange
  | count group slots => exact hbefore

end PathWire

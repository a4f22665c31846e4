/-
Built trees are well formed.

The arena says everything twice: a child names its parent and is listed by it, and a node holds the
sum of the hints that can be added up along the way down to it.  Declarations keep these together.
`TreeBuilder.Sound` is what they keep, all of it between a node and its neighbours; the sum along
the whole way follows from it, since parents are declared before their children.  The one change
that reaches further down than it looks is another length for a node, and it is kept from doing
harm by the shape of the tree: only endpoints get one, and nothing hangs below them.
-/
import PathWire.Proofs.Tree.Growth
import PathWire.Scenario.App

namespace PathWire

variable {A : Application}

/-! ### What a finished tree is to be -/

/-- The nodes from one without a parent down to a node. -/
inductive Tree.Lineage (tree : Tree A) : List NodeIndex → NodeIndex → Prop
  | top {index : NodeIndex} {node : Node A} (hnode : tree.node? index = some node)
      (hparent : node.parent = none) : Lineage tree [index] index
  | child {way : List NodeIndex} {above index : NodeIndex} {node : Node A}
      (habove : Lineage tree way above) (hnode : tree.node? index = some node)
      (hparent : node.parent = some above) : Lineage tree (way ++ [index]) index

/-- A well-formed tree. -/
structure Tree.WellFormed (tree : Tree A) : Prop where
  /-- There is a node at the start, -/
  start : ∃ node, tree.node? .root = some node
  /-- which is the only root. -/
  root : ∀ {index node}, tree.node? index = some node → (node.kind = .root ↔ index = .root)
  /-- The nodes without a parent are the root and the Dynamic nodes. -/
  parentless : ∀ {index node}, tree.node? index = some node →
    (node.parent = none ↔ node.kind = .root ∨ node.kind.isDynamic = true)
  /-- A parent comes before the node and lists it once. -/
  hung : ∀ {index above node}, tree.node? index = some node → node.parent = some above →
    above.position < index.position ∧
      ∃ upper, tree.node? above = some upper ∧ upper.children.count index = 1
  /-- It lists its children only. -/
  listed : ∀ {above child upper}, tree.node? above = some upper → child ∈ upper.children →
    ∃ node, tree.node? child = some node ∧ node.parent = some above
  /-- Siblings have different names. -/
  apart : ∀ {above upper}, tree.node? above = some upper → (upper.children.map tree.name).Nodup
  /-- Names are not empty, not too long and without a dot. -/
  named : ∀ {index node}, tree.node? index = some node → index ≠ .root →
    node.name ≠ "" ∧ node.name.utf8ByteSize ≤ tree.revision.maxNameBytes ∧
      '.' ∉ node.name.toList
  /-- Nothing hangs below an endpoint, with or without a key, or a link. -/
  leaf : ∀ {index node}, tree.node? index = some node →
    node.kind.endpoint?.isSome = true ∨ node.kind.target?.isSome = true → node.children = []
  /-- A link leads to a Dynamic node. -/
  linked : ∀ {index target node}, tree.node? index = some node →
    node.kind.target? = some target →
      ∃ goal, tree.node? target = some goal ∧ goal.kind.isDynamic = true
  /-- The length of a node is that of the way from its parentless ancestor. -/
  length : ∀ {index node}, tree.node? index = some node →
    ∃ way, tree.Lineage way index ∧ node.length = tree.pathLength way

/-! ### What declarations keep -/

namespace TreeBuilder

variable {builder : TreeBuilder A} {index target : NodeIndex} {node : Node A}

/-- The length hint down to a parent. -/
def lengthDown (builder : TreeBuilder A) : Option NodeIndex → LengthHint
  | some above => builder.lengthOf above
  | none => .fixed 0

theorem lengthOf_eq (h : builder.node? index = some node) :
    builder.lengthOf index = node.length := by
  simp only [lengthOf, h]

theorem lengthAbove_eq (h : builder.node? index = some node) :
    builder.lengthAbove index = builder.lengthDown node.parent := by
  simp only [lengthAbove, h, Option.bind_some]
  cases node.parent with
  | none => rfl
  | some above => rfl

/-- What holds between the nodes of a builder and their neighbours. -/
structure Sound (builder : TreeBuilder A) : Prop where
  shaped : builder.build.Shaped
  start : ∃ node, builder.node? .root = some node ∧ node.kind = .root
  parentless : ∀ {index node}, builder.node? index = some node →
    (node.parent = none ↔ node.kind = .root ∨ node.kind.isDynamic = true)
  earlier : ∀ {index above node}, builder.node? index = some node → node.parent = some above →
    above.position < index.position
  once : ∀ {index node}, builder.node? index = some node → node.children.Nodup
  fit : ∀ {index node}, builder.node? index = some node → node.kind ≠ .root →
    isName builder.revision node.name = true
  linked : ∀ {index target node}, builder.node? index = some node →
    node.kind.target? = some target → builder.HasDynamic target
  measured : ∀ {index node}, builder.node? index = some node →
    node.length = (builder.lengthDown node.parent).add node.ownLength

theorem sound_new (revision : Revision) : (new revision : TreeBuilder A).Sound where
  shaped := shaped_new revision
  start := ⟨rootNode, rfl, rfl⟩
  parentless h := by
    obtain ⟨-, rfl⟩ := node?_new revision h
    simp [rootNode]
  earlier h hparent := by
    obtain ⟨-, rfl⟩ := node?_new revision h
    cases hparent
  once h := by
    obtain ⟨-, rfl⟩ := node?_new revision h
    exact List.nodup_nil
  fit h hkind := by
    obtain ⟨-, rfl⟩ := node?_new revision h
    exact absurd rfl hkind
  linked h hlink := by
    obtain ⟨-, rfl⟩ := node?_new revision h
    cases hlink
  measured h := by
    obtain ⟨-, rfl⟩ := node?_new revision h
    rfl

/-! ### A node more -/

variable {parent : Option NodeIndex} {name : String} {ownLength : LengthHint} {kind : NodeKind A}

theorem position_lt (h : builder.node? index = some node) :
    index.position < builder.nodes.size :=
  (Array.getElem?_eq_some_iff.mp h).1

theorem isName_of_checkName (h : builder.checkName parent name = .ok ()) :
    isName builder.revision name = true := by
  cases hname : isName builder.revision name with
  | true => rfl
  | false =>
      unfold checkName at h
      simp only [hname] at h
      cases h

/-- A node that was there before keeps its lengths. -/
theorem lengths_push (hold : builder.node? index = some node) {kept : Node A}
    (h : (builder.push parent name ownLength kind).node? index = some kept) :
    kept.length = node.length ∧ kept.ownLength = node.ownLength := by
  have hne : index ≠ builder.nextIndex := by
    rintro rfl
    rw [node?_nextIndex] at hold
    cases hold
  rw [node?_push, if_neg hne, hold, Option.map_some] at h
  cases h
  by_cases hparent : parent = some index
  · rw [if_pos hparent]
    exact ⟨rfl, rfl⟩
  · rw [if_neg hparent]
    exact ⟨rfl, rfl⟩

theorem lengthDown_push {place : Option NodeIndex}
    (h : ∀ above, place = some above → ∃ upper, builder.node? above = some upper) :
    (builder.push parent name ownLength kind).lengthDown place = builder.lengthDown place := by
  cases place with
  | none => rfl
  | some above =>
      obtain ⟨upper, hupper⟩ := h above rfl
      obtain ⟨kept, hkept, -⟩ : ∃ kept,
          (builder.push parent name ownLength kind).node? above = some kept ∧
            Kept builder parent above upper kept := node?_push_of_old hupper
      simp only [lengthDown, lengthOf_eq hupper, lengthOf_eq hkept, (lengths_push hupper hkept).1]

theorem HasDynamic.push (h : builder.HasDynamic target) :
    (builder.push parent name ownLength kind).HasDynamic target := by
  obtain ⟨node, hnode, hdynamic⟩ := h
  obtain ⟨kept, hkept, hsame⟩ := node?_push_of_old hnode
  exact ⟨kept, hkept, hsame.kind ▸ hdynamic⟩

theorem Sound.push (h : builder.Sound) (hname : builder.checkName parent name = .ok ())
    (hadmits : builder.Admits parent kind) :
    (builder.push parent name ownLength kind).Sound where
  shaped := shaped_push h.shaped hname hadmits.plain
  start := by
    obtain ⟨node, hnode, hroot⟩ := h.start
    obtain ⟨kept, hkept, hsame⟩ := node?_push_of_old hnode
    exact ⟨kept, hkept, hsame.kind.trans hroot⟩
  parentless hnode := by
    rcases node?_push_cases hnode with ⟨-, rfl⟩ | ⟨old, hold, hkept⟩
    · simpa [fresh, hadmits.plain] using hadmits.orphan
    · rw [hkept.parent, hkept.kind]
      exact h.parentless hold
  earlier {index above node} hnode hparent := by
    rcases node?_push_cases hnode with ⟨rfl, rfl⟩ | ⟨old, hold, hkept⟩
    · have hparent : parent = some above := hparent
      subst hparent
      obtain ⟨upper, hupper, -, -⟩ := checkName_below hname
      exact position_lt hupper
    · exact h.earlier hold (hkept.parent ▸ hparent)
  once {index node} hnode := by
    rcases node?_push_cases hnode with ⟨-, rfl⟩ | ⟨old, hold, hkept⟩
    · exact List.nodup_nil
    · rcases hkept.children with hsame | ⟨-, hmore⟩
      · rw [hsame]
        exact h.once hold
      · have hnew : builder.nextIndex ∉ old.children := by
          intro hmem
          obtain ⟨child, hchild⟩ := h.shaped.known hold hmem
          cases hchild.symm.trans builder.node?_nextIndex
        rw [hmore, ← List.concat_eq_append]
        exact (h.once hold).concat hnew
  fit hnode hkind := by
    rcases node?_push_cases hnode with ⟨-, rfl⟩ | ⟨old, hold, hkept⟩
    · show isName builder.revision name = true
      exact isName_of_checkName hname
    · rw [hkept.name]
      exact h.fit hold (hkept.kind ▸ hkind)
  linked hnode hlink := by
    rcases node?_push_cases hnode with ⟨-, rfl⟩ | ⟨old, hold, hkept⟩
    · exact (hadmits.linked hlink).push
    · exact (h.linked hold (hkept.kind ▸ hlink)).push
  measured {index node} hnode := by
    rcases node?_push_cases hnode with ⟨-, rfl⟩ | ⟨old, hold, hkept⟩
    · have hdown : (builder.push parent name ownLength kind).lengthDown parent
          = builder.lengthDown parent := by
        refine lengthDown_push ?_
        rintro above rfl
        obtain ⟨upper, hupper, -, -⟩ := checkName_below hname
        exact ⟨upper, hupper⟩
      show _ = ((builder.push parent name ownLength kind).lengthDown parent).add ownLength
      rw [hdown]
      rfl
    · obtain ⟨hlength, hown⟩ := lengths_push hold hnode
      have hdown : (builder.push parent name ownLength kind).lengthDown old.parent
          = builder.lengthDown old.parent := by
        refine lengthDown_push fun above hparent => ?_
        obtain ⟨upper, hupper, -⟩ := h.shaped.listed hold hparent
        exact ⟨upper, hupper⟩
      rw [hlength, hown, hkept.parent, hdown]
      exact h.measured hold

end TreeBuilder

/-! ### An endpoint retouched -/

namespace Node.Retouched

variable {before after : Node A}

theorem kind_root_iff (h : before.Retouched after) : after.kind = .root ↔ before.kind = .root := by
  refine ⟨h.kind_root, fun hroot => ?_⟩
  rcases h.kind with hkind | ⟨handler, hkind⟩
  · exact hkind.trans hroot
  · rw [hkind, hroot]
    rfl

theorem isDynamic (h : before.Retouched after) : after.kind.isDynamic = before.kind.isDynamic := by
  rcases h.kind with hkind | ⟨handler, hkind⟩
  · rw [hkind]
  · rw [hkind]
    cases before.kind <;> rfl

theorem target? (h : before.Retouched after) : after.kind.target? = before.kind.target? := by
  rcases h.kind with hkind | ⟨handler, hkind⟩
  · rw [hkind]
  · rw [hkind]
    cases before.kind <;> rfl

end Node.Retouched

theorem NodeKind.leafLabel?_ne_none {kind : NodeKind A}
    (h : kind.endpoint?.isSome = true ∨ kind.target?.isSome = true) : kind.leafLabel? ≠ none := by
  cases kind with
  | endpoint | keyedEndpoint | link => exact nofun
  | _ => rcases h with h | h <;> cases h

namespace TreeBuilder

variable {builder : TreeBuilder A} {index target : NodeIndex} {node : Node A}
  {change : Node A → Node A}

theorem node?_retouch_of_ne (h : target ≠ index) :
    (builder.retouch target change).node? index = builder.node? index := by
  rw [node?_retouch]
  cases builder.node? index with
  | none => rfl
  | some node => rw [Option.map_some, if_neg h]

theorem lengthDown_retouch {place : Option NodeIndex} (h : place ≠ some target) :
    (builder.retouch target change).lengthDown place = builder.lengthDown place := by
  cases place with
  | none => rfl
  | some above =>
      have hne : target ≠ above := by
        rintro rfl
        exact h rfl
      simp only [lengthDown, lengthOf, node?_retouch_of_ne hne]

/-- Nothing hangs below an endpoint. -/
theorem Sound.childless (h : builder.Sound) (hendpoint : builder.HasEndpoint target)
    (hnode : builder.node? index = some node) : node.parent ≠ some target := by
  intro hparent
  obtain ⟨found, hfound, hkind⟩ := hendpoint
  obtain ⟨upper, hupper, hleaf, -⟩ := h.shaped.listed hnode hparent
  cases hupper.symm.trans hfound
  exact NodeKind.leafLabel?_ne_none (.inl hkind) hleaf

/-- An endpoint can be retouched if its new length is that of the way to it. -/
theorem Sound.retouch (h : builder.Sound) (hendpoint : builder.HasEndpoint target)
    (hchange : ∀ node : Node A, node.Retouched (change node))
    (hlength : ∀ node, builder.node? target = some node →
      (change node).length = (builder.lengthDown node.parent).add (change node).ownLength) :
    (builder.retouch target change).Sound where
  shaped := shaped_retouch h.shaped target hchange
  start := by
    obtain ⟨node, hnode, hroot⟩ := h.start
    obtain ⟨after, hafter, hretouched⟩ := node?_retouch_of_old hchange hnode
    exact ⟨after, hafter, hretouched.kind_root_iff.mpr hroot⟩
  parentless hnode := by
    obtain ⟨old, hold, hretouched⟩ := node?_retouch_cases hchange hnode
    rw [hretouched.parent, hretouched.kind_root_iff, hretouched.isDynamic]
    exact h.parentless hold
  earlier hnode hparent := by
    obtain ⟨old, hold, hretouched⟩ := node?_retouch_cases hchange hnode
    exact h.earlier hold (hretouched.parent ▸ hparent)
  once hnode := by
    obtain ⟨old, hold, hretouched⟩ := node?_retouch_cases hchange hnode
    rw [hretouched.children]
    exact h.once hold
  fit hnode hkind := by
    obtain ⟨old, hold, hretouched⟩ := node?_retouch_cases hchange hnode
    rw [hretouched.name]
    exact h.fit hold fun hroot => hkind (hretouched.kind_root_iff.mpr hroot)
  linked hnode hlink := by
    obtain ⟨old, hold, hretouched⟩ := node?_retouch_cases hchange hnode
    rw [hretouched.target?] at hlink
    obtain ⟨goal, hgoal, hdynamic⟩ := h.linked hold hlink
    obtain ⟨after, hafter, hsame⟩ := node?_retouch_of_old hchange hgoal
    exact ⟨after, hafter, hsame.isDynamic.trans hdynamic⟩
  measured {index node} hnode := by
    obtain ⟨old, hold, hretouched⟩ := node?_retouch_cases hchange hnode
    have hdown : (builder.retouch target change).lengthDown node.parent
        = builder.lengthDown old.parent := by
      rw [hretouched.parent]
      exact lengthDown_retouch (h.childless hendpoint hold)
    rw [hdown]
    by_cases htarget : target = index
    · subst htarget
      rw [node?_retouch, hold, Option.map_some, if_pos rfl] at hnode
      cases hnode
      exact hlength old hold
    · rw [node?_retouch_of_ne htarget, hold] at hnode
      cases hnode
      exact h.measured hold

/-- **Every growth keeps a builder sound.** -/
theorem Growth.sound {after : TreeBuilder A} (hgrowth : builder.Growth after)
    (h : builder.Sound) : after.Sound := by
  cases hgrowth with
  | declare ownLength hname hadmits => exact h.push hname hadmits
  | resize hendpoint bytes =>
      refine h.retouch hendpoint (fun _ => ⟨rfl, rfl, rfl, .inl rfl⟩) fun node hnode => ?_
      rw [lengthAbove_eq hnode]
      rfl
  | mend hendpoint handler =>
      refine h.retouch hendpoint (fun _ => ⟨rfl, rfl, rfl, .inr ⟨handler, rfl⟩⟩) ?_
      intro node hnode
      show node.length = (builder.lengthDown node.parent).add node.ownLength
      exact h.measured hnode
  | count group slots =>
      exact ⟨h.shaped, h.start, h.parentless, h.earlier, h.once, h.fit, h.linked, h.measured⟩

/-! ### The whole tree -/

/-- The hints add up along the way down to a node. -/
theorem Sound.lineage (h : builder.Sound) : ∀ (bound : Nat) {index : NodeIndex} {node : Node A},
    index.position < bound → builder.node? index = some node →
      ∃ way, builder.build.Lineage way index ∧ node.length = builder.build.pathLength way := by
  intro bound
  induction bound with
  | zero => exact fun hbound => absurd hbound (Nat.not_lt_zero _)
  | succ bound ih =>
      intro index node hbound hnode
      have hown : builder.build.ownLength index = node.ownLength := by
        have hbuilt : builder.build.node? index = some node := hnode
        simp only [Tree.ownLength, hbuilt]
      have hmeasured := h.measured hnode
      cases hparent : node.parent with
      | none =>
          refine ⟨[index], .top hnode hparent, ?_⟩
          rw [hmeasured, hparent]
          simp [lengthDown, Tree.pathLength, hown]
      | some above =>
          obtain ⟨upper, hupper, -⟩ := h.shaped.listed hnode hparent
          have hearlier := h.earlier hnode hparent
          obtain ⟨way, hway, hlength⟩ := ih (by omega) hupper
          refine ⟨way ++ [index], .child hway hnode hparent, ?_⟩
          have hdown : builder.lengthDown (some above) = builder.build.pathLength way :=
            (lengthOf_eq hupper).trans hlength
          rw [hmeasured, hparent, hdown]
          simp [Tree.pathLength, hown]

theorem Sound.wellFormed (h : builder.Sound) : builder.build.WellFormed where
  start := by
    obtain ⟨node, hnode, -⟩ := h.start
    exact ⟨node, hnode⟩
  root {index node} hnode := by
    refine ⟨h.shaped.root hnode, ?_⟩
    rintro rfl
    obtain ⟨top, htop, hroot⟩ := h.start
    cases htop.symm.trans hnode
    exact hroot
  parentless := h.parentless
  hung {index above node} hnode hparent := by
    obtain ⟨upper, hupper, -, hmem⟩ := h.shaped.listed hnode hparent
    exact ⟨h.earlier hnode hparent, upper, hupper, List.count_eq_one_of_mem (h.once hupper) hmem⟩
  listed hupper hchild := by
    obtain ⟨node, hnode⟩ := h.shaped.known hupper hchild
    exact ⟨node, hnode, h.shaped.hung hupper hchild hnode⟩
  apart {above upper} hupper :=
    (h.once hupper).map_on fun _ hone _ hother => h.shaped.apart hupper hone hother
  named {index node} hnode hne := by
    have hkind : node.kind ≠ .root := fun hroot => hne (h.shaped.root hnode hroot)
    have hname := h.fit hnode hkind
    simp only [isName, Bool.and_eq_true, Bool.not_eq_true', decide_eq_true_eq,
      List.contains_eq_mem, decide_eq_false_iff_not] at hname
    obtain ⟨⟨hempty, hsize⟩, hdot⟩ := hname
    refine ⟨?_, hsize, hdot⟩
    intro hname
    simp [hname] at hempty
  leaf {index node} hnode hleaf := by
    refine List.eq_nil_iff_forall_not_mem.mpr fun child hchild => ?_
    obtain ⟨below, hbelow⟩ := h.shaped.known hnode hchild
    obtain ⟨upper, hupper, hnone, -⟩ :=
      h.shaped.listed hbelow (h.shaped.hung hnode hchild hbelow)
    cases hupper.symm.trans hnode
    exact NodeKind.leafLabel?_ne_none hleaf hnone
  linked hnode hlink := h.linked hnode hlink
  length {index _} hnode := h.lineage (index.position + 1) (Nat.lt_succ_self _) hnode

end TreeBuilder

/-- A growth keeps the limits. -/
theorem TreeBuilder.Growth.revision {builder after : TreeBuilder A} (h : builder.Growth after) :
    after.revision = builder.revision := by
  cases h <;> rfl

/-- **Every built tree is well formed.**  Whatever is declared, whether it is refused or not, if no
handle is made up. -/
theorem Built.well_formed {revision : Revision} {builder : TreeBuilder A}
    {handles : List (Handle A)}
    (h : Built revision (fun handles call => call.Honest handles) builder handles) :
    builder.build.WellFormed ∧ builder.build.revision = revision := by
  have hsound : builder.Sound ∧ builder.revision = revision := by
    refine h.grown (P := fun builder => builder.Sound ∧ builder.revision = revision)
      ⟨TreeBuilder.sound_new revision, rfl⟩ ?_
    exact fun _ _ hgrowth hbefore =>
      ⟨hgrowth.sound hbefore.1, hgrowth.revision.trans hbefore.2⟩
  exact ⟨hsound.1.wellFormed, hsound.2⟩

/-! A Dynamic node with a place for it, a name that is taken, and an endpoint that first has no
payload and then one of two bytes. -/

namespace Attic

open Scenario (app valType)

def declareLamp : BuilderCall app := .dynamic valType "lamp" none

def declarePlace : BuilderCall app :=
  .link .root (⟨⟨1⟩⟩ : Parent valType) "place" fun _ _ => none

def declareAgain : BuilderCall app := .group .root "place"

def declareBlink : BuilderCall app :=
  .signal (⟨⟨1⟩⟩ : Parent valType) "blink" fun _ _ _ => pure ()

def lengthen : BuilderCall app := .setPayloadLength (⟨⟨3⟩⟩ : EndpointRef valType) 2

/-- The attic under construction. -/
def builder : TreeBuilder app :=
  match (declareLamp.run >>= fun _ => declarePlace.run >>= fun _ => declareBlink.run >>= fun _ =>
    lengthen.run) (.new .zero) with
  | .ok _ builder | .error _ builder => builder

/-- What the declarations answer, one after the other. -/
theorem declared : ∃ lamp place blink cause,
    declareLamp.run (.new .zero) = .ok [.parent valType ⟨1⟩] lamp ∧
      declarePlace.run lamp = .ok [.link .unit valType ⟨2⟩ ⟨1⟩] place ∧
      declareAgain.run place = .error cause place ∧
      declareBlink.run place = .ok [.endpoint valType ⟨3⟩] blink ∧
      lengthen.run blink = .ok [] builder :=
  ⟨_, _, _, _, rfl, rfl, rfl, rfl, rfl⟩

theorem well_formed_attic :
    builder.build.WellFormed ∧ builder.build.revision = .zero := by
  obtain ⟨lamp, place, blink, cause, hlamp, hplace, hagain, hblink, hlength⟩ := declared
  refine Built.well_formed (.answered lengthen (.answered declareBlink (.refused declareAgain
    (.answered declarePlace (.answered declareLamp .new ?_ hlamp) ?_ hplace) ?_ hagain) ?_ hblink)
    ?_ hlength)
  all_goals
    simp [BuilderCall.Honest, BuilderCall.uses, declareLamp, declarePlace, declareAgain,
      declareBlink, lengthen, Parent.root]

end Attic

end PathWire

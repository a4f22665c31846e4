/-
Names and wire paths.

A chain of names is read from the root down, and at every node the next name is looked up among
the children seen there.  A wire path goes the other way: it is said by its nodes' parents, where
after a link the parent is the link's target.  In a well-formed tree there is one path for every
chain of names that is read, and its names are that chain.
-/
import PathWire.Proofs.Peer.Resolution
import PathWire.Proofs.Tree.Descent

namespace PathWire

variable {A : Application} {tree : Tree A}

/-! ### Dotted names -/

namespace Dotted

theorem splitChars_eq_splitOn (text : List Char) : splitChars text = text.splitOn '.' := by
  induction text with
  | nil => rfl
  | cons c rest ih =>
      have hcons : (c :: rest).splitOn '.' = if c = '.' then [] :: rest.splitOn '.'
          else (rest.splitOn '.').modifyHead (List.cons c) := by
        rw [List.splitOn, List.splitOnP_cons_eq_if_modifyHead]
        simp only [beq_iff_eq, List.splitOn]
      rw [splitChars, ih, hcons]
      cases hrest : rest.splitOn '.' with
      | nil => exact absurd hrest (List.splitOnP_ne_nil _ _)
      | cons first others => rfl

/-- Names without dots are found again in the dotted name. -/
theorem split_join {names : List String} (hnames : names ≠ [])
    (hdots : ∀ name ∈ names, '.' ∉ name.toList) : split (join names) = names := by
  have hmap : (names.map String.toList).map String.ofList = names := by
    simp [List.map_map, Function.comp_def]
  have hsplit : splitChars (join names).toList = names.map String.toList := by
    rw [splitChars_eq_splitOn, join, String.toList_intercalate]
    refine List.splitOn_intercalate '.' ?_ (by simpa using hnames)
    simpa using hdots
  rw [split, hsplit, hmap]

end Dotted

namespace Tree

variable {above child index : NodeIndex} {node : Node A} {path : Path}

/-! ### Paths by their parents -/

/-- A wire path: it starts with a child of the root, and each further node is a child of the one
before it or, after a link, of the node that the link targets.  It ends at an endpoint, and it is
not too deep. -/
structure WirePath (tree : Tree A) (path : Path) : Prop where
  chain : (NodeIndex.root :: path).IsChain fun above child =>
    tree.parent? child = some (tree.base above)
  depth : path.length ≤ tree.revision.maxPathDepth
  ends : ∃ endpoint, path.getLast? = some endpoint ∧ tree.isEndpoint endpoint = true

/-- The children seen below a node are those that hang below its base. -/
theorem Shaped.mem_childrenOf (hshaped : tree.Shaped) :
    child ∈ tree.childrenOf above ↔ tree.parent? child = some (tree.base above) := by
  constructor
  · intro h
    obtain ⟨node, hnode, hparent⟩ := hshaped.hangs h
    rw [parent?_eq hnode, hparent]
  · intro h
    obtain ⟨node, hnode, hparent⟩ := Option.bind_eq_some_iff.mp h
    obtain ⟨upper, hupper, hleaf, hmem⟩ := hshaped.listed hnode hparent
    cases habove : tree.node? above with
    | none => simp [base, linkTarget?, habove] at hupper
    | some own =>
        cases htarget : own.kind.target? with
        | none =>
            rw [base_own habove htarget] at hupper
            rwa [childrenOf_own hupper hleaf]
        | some target =>
            rw [base_link habove htarget] at hupper
            rwa [childrenOf_link habove htarget hupper]

theorem Shaped.descends_iff (hshaped : tree.Shaped) (path : Path) : ∀ above : NodeIndex,
    tree.Descends above path ↔ (above :: path).IsChain fun above child =>
      tree.parent? child = some (tree.base above) := by
  induction path with
  | nil =>
      intro above
      exact ⟨fun _ => .singleton above, fun _ => trivial⟩
  | cons index rest ih =>
      intro above
      rw [Descends, hshaped.mem_childrenOf, ih index, List.isChain_cons_cons]

/-- Wire paths are what messages can travel on. -/
theorem Shaped.wirePath_iff (hshaped : tree.Shaped) : tree.WirePath path ↔ tree.Passable path := by
  constructor
  · exact fun h => ⟨(hshaped.descends_iff path .root).mpr h.chain, h.depth, h.ends⟩
  · exact fun h => ⟨(hshaped.descends_iff path .root).mp h.descends, h.depth, h.ends⟩

/-! ### Down by names -/

/-- The names of nodes that lead down lead to the last of them. -/
theorem Shaped.descend?_names (hshaped : tree.Shaped) (path : Path) : ∀ {above : NodeIndex},
    tree.Descends above path →
      tree.descend? above (path.map tree.name) = (above :: path).getLast? := by
  induction path with
  | nil => exact fun _ => rfl
  | cons index rest ih =>
      intro above h
      obtain ⟨hchild, hrest⟩ := h
      rw [List.map_cons, descend?, hshaped.child?_name hchild, Option.bind_some, ih hrest,
        List.getLast?_cons_cons]

/-- No node below another one has a dot in its name. -/
theorem WellFormed.undotted (hformed : tree.WellFormed) (path : Path) :
    ∀ {above : NodeIndex}, tree.Descends above path →
      ∀ name ∈ path.map tree.name, '.' ∉ name.toList := by
  induction path with
  | nil =>
      intro above _ name hname
      cases hname
  | cons index rest ih =>
      intro above h name hname
      obtain ⟨hchild, hrest⟩ := h
      rcases List.mem_cons.mp hname with rfl | hname
      · obtain ⟨node, hnode, hparent⟩ := hformed.shaped.hangs hchild
        have hindex : index ≠ .root := by
          intro hroot
          have hnone := (hformed.parentless hnode).mpr (.inl ((hformed.root hnode).mpr hroot))
          rw [hparent] at hnone
          cases hnone
        rw [name_eq hnode]
        exact (hformed.named hnode hindex).2.2
      · exact ih hrest name hname

/-- The dotted name of a path leads to its end. -/
theorem WellFormed.find?_dotted (hformed : tree.WellFormed) (h : tree.Descends .root path)
    {last : NodeIndex} (hlast : path.getLast? = some last) :
    tree.find? (tree.dotted path) = some last := by
  have hnames : path.map tree.name ≠ [] := by
    intro hempty
    rw [List.map_eq_nil_iff.mp hempty] at hlast
    cases hlast
  rw [find?, dotted, Dotted.split_join hnames (hformed.undotted path h),
    hformed.shaped.descend?_names path h, List.getLast?_cons, hlast, Option.getD_some]

theorem WellFormed.isEndpoint_root (hformed : tree.WellFormed) :
    tree.isEndpoint .root = false := by
  obtain ⟨node, hnode⟩ := hformed.start
  rw [isEndpoint, hnode, Option.bind_some, (hformed.root hnode).mpr rfl]
  rfl

end Tree

namespace ResolvedPath

/-- What a chain of names stands for: one wire path, with its keys, its names and its end. -/
structure Names (tree : Tree A) (names : List String) (resolved : ResolvedPath) : Prop where
  wire : tree.WirePath resolved.path
  named : resolved.names tree = names
  only : ∀ path, tree.WirePath path → path.map tree.name = names → path = resolved.path
  carrying : resolved.keys = resolved.path.filter tree.carries
  dotted : resolved.dotted = Dotted.join names
  found : ∃ endpoint, resolved.path.getLast? = some endpoint ∧
    tree.isEndpoint endpoint = true ∧ tree.find? resolved.dotted = some endpoint

end ResolvedPath

/-- **Chains of names and wire paths correspond.**  A chain of names is read if and only if it is
the names of a wire path.  There is no other path with these names, it is the one that is read, and
its dotted name leads to its endpoint. -/
theorem names_and_paths (hformed : tree.WellFormed) (names : List String) :
    ((∃ resolved, ResolvedPath.ofNames tree names = .ok resolved) ↔
      ∃ path, tree.WirePath path ∧ path.map tree.name = names) ∧
    ∀ resolved, ResolvedPath.ofNames tree names = .ok resolved → resolved.Names tree names := by
  have hread : ∀ path, tree.WirePath path → path.map tree.name = names →
      ∃ resolved, ResolvedPath.ofNames tree names = .ok resolved ∧ resolved.path = path := by
    rintro path hwire rfl
    have hpath := hformed.shaped.wirePath_iff.mp hwire
    obtain ⟨keys, hkeys⟩ := ResolvedPath.carriers_of_descends hformed.shaped path hpath.descends
    rw [hpath.ofNames hformed.shaped, ResolvedPath.ofNodes, Result.bind_ok hkeys]
    exact ⟨_, rfl, rfl⟩
  have hnamed : ∀ resolved, ResolvedPath.ofNames tree names = .ok resolved →
      resolved.Names tree names := by
    intro resolved h
    obtain ⟨⟨hpath, hnodes⟩, hnames⟩ := ResolvedPath.ofNames_ok hformed.isEndpoint_root h
    obtain ⟨keys, hkeys, hresolved⟩ := Result.of_bind_ok hnodes
    have hdotted : resolved.dotted = tree.dotted resolved.path :=
      (congrArg ResolvedPath.dotted (Except.ok.inj hresolved)).symm
    have hsame : keys = resolved.keys := congrArg ResolvedPath.keys (Except.ok.inj hresolved)
    obtain ⟨endpoint, hlast, hendpoint⟩ := hpath.ends
    constructor
    · exact hformed.shaped.wirePath_iff.mpr hpath
    · exact hnames
    · intro path hwire hother
      obtain ⟨same, hsame, rfl⟩ := hread path hwire hother
      rw [Except.ok.inj (hsame.symm.trans h)]
    · rw [← hsame]
      exact ResolvedPath.carriers_eq_filter _ hkeys
    · rw [hdotted, Tree.dotted, hnames]
    · refine ⟨endpoint, hlast, hendpoint, ?_⟩
      rw [hdotted]
      exact hformed.find?_dotted hpath.descends hlast
  refine ⟨⟨?_, ?_⟩, hnamed⟩
  · rintro ⟨resolved, h⟩
    exact ⟨resolved.path, (hnamed resolved h).wire, (hnamed resolved h).named⟩
  · rintro ⟨path, hwire, hnames⟩
    obtain ⟨resolved, h, -⟩ := hread path hwire hnames
    exact ⟨resolved, h⟩

namespace Crates

/-- A crate in two others is opened, by names that come by the same nodes again. -/
theorem nested_crate_named : ∃ resolved,
    ResolvedPath.ofNames builder.build ["floor", "inside", "inside", "open"] = .ok resolved ∧
      resolved.Names builder.build ["floor", "inside", "inside", "open"] ∧
      resolved.path = [⟨3⟩, ⟨2⟩, ⟨2⟩, ⟨4⟩] ∧ resolved.keys = [⟨3⟩, ⟨2⟩, ⟨2⟩] := by
  obtain ⟨-, hnames⟩ := names_and_paths formed ["floor", "inside", "inside", "open"]
  exact ⟨_, rfl, hnames _ rfl, rfl, rfl⟩

end Crates

end PathWire

/-
Sending through a link.

Whether a chosen link takes effect depends on the way that the resolvers find without it.  If that
way avoids the link's Dynamic node then the choice is never looked at, and the message goes out as
if it had not been made.  Else a message that goes out at all goes through the link, with the given
owner right above it.
-/
import PathWire.Proofs.Peer.Choice
import PathWire.Proofs.Peer.Send

namespace PathWire

variable {A : Application} {tree : Tree A}

namespace Route

variable {env : A.Env} {chosen : Option (LinkChoice A)} {choice : LinkChoice A}
  {index target : NodeIndex} {value : Value A} {upper below lower route : Route A}

/-- A route goes through a chosen link: the link is on it once, and the lowest key above it, if
there is one, has the owner for its value. -/
structure Takes (choice : LinkChoice A) (route : Route A) : Prop where
  once : route.nodes.count choice.link = 1
  owner : ∃ (above below : List (NodeIndex × Value A)) (owned : Value A),
    route.keys.zip route.values = above ++ (choice.link, owned) :: below ∧
      ∀ key, above.getLast? = some key → key.2 = choice.parent

/-- Every key of a climb gets a value, -/
theorem Climbs.aligned (h : Climbs tree env chosen index value below route) :
    below.keys.length = below.values.length → route.keys.length = route.values.length := by
  induction h with
  | root _ _ => exact id
  | dynamic _ _ _ _ _ _ _ ih => exact fun hbelow => ih (congrArg (· + 1) hbelow)
  | carrier _ _ _ _ _ ih => exact fun hbelow => ih (congrArg (· + 1) hbelow)
  | plain _ _ _ _ _ _ ih => exact ih

/-- The value of the lowest key, if there is a key yet. -/
def lowestOr (value : Value A) (route : Route A) : Value A :=
  ((route.keys.zip route.values).getLast?.map (·.2)).getD value

theorem lowestOr_addKey (above : Value A) :
    (below.addKey index value).lowestOr above = below.lowestOr value := by
  simp only [lowestOr, addKey, List.zip_cons_cons, List.getLast?_cons]
  cases (below.keys.zip below.values).getLast? <;> rfl

/-- and the lowest of them is the value that the climb began with. -/
theorem Climbs.lowest (h : Climbs tree env chosen index value below route)
    {key : NodeIndex × Value A} (hkey : (route.keys.zip route.values).getLast? = some key) :
    below.lowestOr value = key.2 := by
  induction h with
  | root _ _ => rw [lowestOr, hkey, Option.map_some, Option.getD_some]
  | dynamic _ _ _ _ _ _ _ ih => exact (lowestOr_addKey _).symm.trans (ih hkey)
  | carrier _ _ _ _ _ ih => exact (lowestOr_addKey _).symm.trans (ih hkey)
  | plain _ _ _ _ _ _ ih => exact ih hkey

/-- A route without links to a Dynamic node is one without any given link to it. -/
theorem not_mem_of_not_meets (havoids : ¬ route.Meets tree target)
    (hlink : tree.linkTarget? index = some target) : index ∉ route.nodes :=
  fun hmem => havoids ⟨index, hmem, hlink⟩

/-- **A climb that comes by the chosen link's Dynamic node goes through the link.** -/
theorem Climbs.takes (hshaped : tree.Shaped) (hplace : tree.linkTarget? index = none)
    (h : Climbs tree env (some choice) index value .empty route)
    (hmeets : route.Meets tree choice.dynamic) : route.Takes choice := by
  obtain ⟨above, owned, lower, upper, hlink, habove, havoids, howner, rfl⟩ :=
    h.meeting hshaped hplace not_meets_empty hmeets
  have hupper := not_mem_of_not_meets (howner.owner_avoids hshaped habove) hlink
  have hlower := not_mem_of_not_meets havoids hlink
  constructor
  · rw [append_nodes, addKey_nodes, List.count_append, List.count_cons_self,
      List.count_eq_zero.mpr hupper, List.count_eq_zero.mpr hlower]
  · refine ⟨upper.keys.zip upper.values, lower.keys.zip lower.values, owned, ?_, ?_⟩
    · exact List.zip_append (howner.aligned rfl)
    · exact fun key hkey => (howner.lowest hkey).symm

end Route

/-! ### Endpoints below the Dynamic node -/

namespace Tree

variable {index above : NodeIndex} {ancestry : List NodeIndex} {node : Node A}

theorem Lineage.of_parentless (h : tree.Lineage ancestry index)
    (hnode : tree.node? index = some node) (hparent : node.parent = none) :
    ancestry = [index] := by
  cases h with
  | top => rfl
  | child _ hsame habove =>
      cases hnode.symm.trans hsame
      rw [hparent] at habove
      cases habove

theorem Lineage.of_parent (h : tree.Lineage ancestry index)
    (hnode : tree.node? index = some node) (hparent : node.parent = some above) :
    ∃ way, tree.Lineage way above ∧ ancestry = way ++ [index] := by
  cases h with
  | top hsame hnone =>
      cases hnode.symm.trans hsame
      rw [hparent] at hnone
      cases hnone
  | child hway hsame habove =>
      cases hnode.symm.trans hsame
      cases hparent.symm.trans habove
      exact ⟨_, hway, rfl⟩

end Tree

/-- A climb from below a Dynamic node comes by it. -/
theorem Route.Climbs.meets_top (hformed : tree.WellFormed) {env : A.Env}
    {chosen : Option (LinkChoice A)} {index top : NodeIndex} {value : Value A}
    {below route : Route A} {goal : Node A} (hgoal : tree.node? top = some goal)
    (hdynamic : goal.kind.isDynamic = true)
    (h : Climbs tree env chosen index value below route) :
    ∀ {way : List NodeIndex}, tree.Lineage (top :: way) index → route.Meets tree top := by
  have hup : ∀ {index above : NodeIndex} {node : Node A} {way : List NodeIndex},
      tree.node? index = some node → node.parent = some above →
      tree.Lineage (top :: way) index → ∃ shorter, tree.Lineage (top :: shorter) above := by
    intro index above node way hnode habove hway
    obtain ⟨ancestry, hancestry, hsame⟩ := hway.of_parent hnode habove
    obtain ⟨first, rest, rfl⟩ := List.exists_cons_of_ne_nil hancestry.ne_nil
    cases hsame
    exact ⟨rest, hancestry⟩
  induction h with
  | root hnode hkind =>
      intro way hway
      have hparent := (hformed.parentless hnode).mpr (.inl hkind)
      cases hway.of_parentless hnode hparent
      cases hnode.symm.trans hgoal
      rw [hkind] at hdynamic
      cases hdynamic
  | @dynamic index _ _ _ _ _ linkNode resolver link hnode hkind _ hlinkNode htarget _ hrest _ =>
      intro way hway
      have hparent := (hformed.parentless hnode).mpr (.inr (by rw [hkind]; rfl))
      cases hway.of_parentless hnode hparent
      refine ⟨link.link, hrest.suffix.subset List.mem_cons_self, ?_⟩
      exact (Tree.linkTarget?_eq hlinkNode).trans htarget
  | carrier hnode _ _ habove _ ih =>
      intro way hway
      obtain ⟨shorter, hshorter⟩ := hup hnode habove hway
      exact ih hshorter
  | plain hnode _ _ _ habove _ ih =>
      intro way hway
      obtain ⟨shorter, hshorter⟩ := hup hnode habove hway
      exact ih hshorter

/-! ### The connection -/

namespace Connection

variable {α : Type} {conn : Connection A} {env : A.Env}

/-- A send looks at the chosen link only to find its route. -/
theorem sendValue_congr {endpoint : NodeIndex} {value : Value A}
    {chosen other : Option (LinkChoice A)} {priority : Priority} {payload : Payload A α}
    (h : Route.resolve conn.tree env endpoint value chosen
      = Route.resolve conn.tree env endpoint value other) :
    conn.sendValue env endpoint value chosen priority payload
      = conn.sendValue env endpoint value other priority payload := by
  unfold sendValue
  rw [h]

/-- **A chosen link takes effect or is ignored.**  It is ignored if the resolvers find a way without
it that avoids its Dynamic node; then the message goes out on that way, as if no link had been
given.  Else a message that goes out goes through the link, with the owner right above it, and one
that does not go out leaves the connection as it was.  The way from an endpoint below the Dynamic
node never avoids it.  Links that were made for another tree are no different. -/
theorem sendLinked_takes_or_ignores {type child : ContextType A} (hformed : conn.tree.WellFormed)
    (env : A.Env) (endpoint : EndpointRef type) (value : type.El) (link : DynamicLink child)
    (priority : Priority) (payload : Payload A α) :
    (∀ own, Route.resolve conn.tree env endpoint.index ⟨type, value⟩ none = .ok own →
      ¬ own.Meets conn.tree link.link.target →
        Route.resolve conn.tree env endpoint.index ⟨type, value⟩ (some link.choice) = .ok own ∧
        conn.sendLinked env endpoint value link priority payload
          = conn.send env endpoint value priority payload ∧
        (conn.tree.linkTarget? link.link.index = some link.link.target →
          link.link.index ∉ own.nodes)) ∧
    ((∀ own, Route.resolve conn.tree env endpoint.index ⟨type, value⟩ none = .ok own →
      own.Meets conn.tree link.link.target) →
        (∃ cause, conn.sendLinked env endpoint value link priority payload = .error cause ∧
          conn.afterSend (conn.sendLinked env endpoint value link priority payload) = conn) ∨
        ∃ answer after, ∃ sent : Departure conn env endpoint.index ⟨type, value⟩
            (some link.choice) priority payload answer after,
          conn.sendLinked env endpoint value link priority payload = .ok (answer, after) ∧
            sent.route.Takes link.choice) ∧
    ∀ way, conn.tree.linkTarget? link.link.index = some link.link.target →
      conn.tree.Lineage (link.link.target :: way) endpoint.index →
      ∀ own, Route.resolve conn.tree env endpoint.index ⟨type, value⟩ none = .ok own →
        own.Meets conn.tree link.link.target := by
  refine ⟨fun own hown havoids => ?_, fun hmeets => ?_, fun way hlink hway own hown => ?_⟩
  · obtain ⟨hclimbs, hdepth⟩ := Route.resolve_eq_ok.mp hown
    have hsame : Route.resolve conn.tree env endpoint.index ⟨type, value⟩ (some link.choice)
        = .ok own := Route.resolve_eq_ok.mpr ⟨hclimbs.under havoids, hdepth⟩
    exact ⟨hsame, sendValue_congr (hsame.trans hown.symm),
      Route.not_mem_of_not_meets havoids⟩
  · cases hsend : conn.sendLinked env endpoint value link priority payload with
    | error cause => exact .inl ⟨cause, rfl, rfl⟩
    | ok result =>
        obtain ⟨answer, after⟩ := result
        obtain ⟨sent⟩ := sendValue_ok hsend
        refine .inr ⟨answer, after, sent, rfl, ?_⟩
        obtain ⟨hclimbs, hdepth⟩ := Route.resolve_eq_ok.mp sent.resolved
        have hplace : conn.tree.linkTarget? endpoint.index = none := by
          obtain ⟨node, hnode, -, -, hplain⟩ := Tree.endpoint_node sent.addressed
          exact (Tree.linkTarget?_eq hnode).trans hplain
        refine hclimbs.takes hformed.shaped hplace ?_
        by_contra havoids
        exact havoids (hmeets _ (Route.resolve_eq_ok.mpr ⟨hclimbs.unchosen havoids, hdepth⟩))
  · obtain ⟨linkNode, hlinkNode, htarget⟩ := Option.bind_eq_some_iff.mp hlink
    obtain ⟨goal, hgoal, hdynamic⟩ := hformed.linked hlinkNode htarget
    exact (Route.resolve_eq_ok.mp hown).1.meets_top hformed hgoal hdynamic hway

end Connection

/-! The crates again, with a bell that has nothing to do with them. -/

namespace Crates

open Scenario (app valType)

def declareBell : BuilderCall app := .signal .root "bell" fun _ _ _ => pure ()

/-- The tree under construction, with the bell. -/
def belled : TreeBuilder app :=
  match declareBell.run builder with
  | .ok _ builder | .error _ builder => builder

theorem belled_formed : belled.build.WellFormed := by
  have hbuilt : Built .zero (fun handles call => call.Honest handles) belled
      (handles ++ [.endpoint .unit ⟨5⟩]) := by
    refine .answered declareBell built ?_ rfl
    simp [BuilderCall.Honest, BuilderCall.uses, declareBell, handles, Parent.root]
  have hsound := hbuilt.grown (TreeBuilder.sound_new _) fun _ _ hgrowth => hgrowth.sound
  exact hsound.wellFormed

/-- Nothing was sent yet. -/
def yard : Connection app := .new belled.build "yard" none

/-- Whatever it is, it stands on the floor. -/
def floorLink : DynamicLink valType := ⟨.unit, ⟨⟨3⟩, ⟨1⟩⟩, ()⟩

/-- A crate is opened on the floor. -/
theorem crate_opened_on_floor : ∃ answer after,
    ∃ sent : Connection.Departure yard {} ⟨4⟩ (labelled ["inner", "outer"])
        (some floorLink.choice) .normal .nothing answer after,
      yard.sendLinked {} (⟨⟨4⟩⟩ : EndpointRef valType) [.text "inner", .text "outer"] floorLink
          .normal .nothing = .ok (answer, after) ∧
        sent.route.Takes floorLink.choice := by
  have htop : yard.tree.Lineage [⟨1⟩] ⟨1⟩ := .top rfl rfl
  have hsend : ∃ result, yard.sendLinked {} (⟨⟨4⟩⟩ : EndpointRef valType)
      [.text "inner", .text "outer"] floorLink .normal .nothing = .ok result := ⟨_, rfl⟩
  have hformed : yard.tree.WellFormed := belled_formed
  obtain ⟨-, htakes, hbelow⟩ := Connection.sendLinked_takes_or_ignores hformed
    {} (⟨⟨4⟩⟩ : EndpointRef valType) [.text "inner", .text "outer"] floorLink .normal .nothing
  obtain ⟨cause, herror, -⟩ | htaken := htakes (hbelow [⟨4⟩] rfl (htop.child rfl rfl))
  · obtain ⟨result, hresult⟩ := hsend
    cases hresult.symm.trans herror
  · exact htaken

/-- The bell is rung through the link of a crate, and goes out without it. -/
theorem bell_ignores_link : ∃ after,
    yard.sendLinked {} (⟨⟨5⟩⟩ : EndpointRef (.unit : ContextType app)) () floorLink .normal
        .nothing = .ok ((), after) ∧
      after.outbox.map (·.bytes)
        = [[0, 0, 0, 0, 3, 1, 4, 98, 101, 108, 108], [0, 0, 0, 3]] ∧
      ∀ sent : Connection.Departure yard {} ⟨5⟩ .unit (some floorLink.choice) .normal .nothing ()
        after, sent.route.nodes = [⟨5⟩] ∧ floorLink.link.index ∉ sent.route.nodes := by
  refine ⟨_, rfl, by decide +kernel, fun sent => ?_⟩
  have hroute : Route.resolve yard.tree {} ⟨5⟩ .unit (some floorLink.choice)
      = .ok ⟨[⟨5⟩], [], []⟩ := rfl
  rw [← Except.ok.inj (hroute.symm.trans sent.resolved)]
  exact ⟨rfl, by decide⟩

end Crates

end PathWire

/-
What a refused declaration leaves behind.

A declaration is checked before anything of the builder changes, and what a method does after its
last check cannot fail, so a refused call leaves the builder as it was.  A cache is declared in two
steps, each with a check of its own: the first cache declares the group of all caches before its own
name is looked at.  If only the name is bad the group stays, and this is all that a refused call can
leave (`LeavesGroup`).
-/
import PathWire.Proofs.Tree.Growth
import PathWire.Scenario.Declare

namespace PathWire

variable {A : Application}

/-! ### Steps that are refused in one piece -/

namespace Building

open TreeBuilder

variable {α β : Type} {builder : TreeBuilder A}

theorem look_eq (next : TreeBuilder A → Building A β) (builder : TreeBuilder A) :
    (get >>= next) builder = next builder builder := rfl

theorem setPayloadLength_ok {type : ContextType A} (target : EndpointRef type) {node : Node A}
    (h : builder.node? target.index = some node) (bytes : Nat) :
    setPayloadLength target bytes builder
      = .ok () (builder.retouch target.index (sized (builder.lengthAbove target.index) bytes)) := by
  unfold setPayloadLength
  rw [look_eq, modifyNode_eq, h]

/-- A step that leaves the builder as it is if it fails. -/
def Intact (step : Building A α) (builder : TreeBuilder A) : Prop :=
  ∀ cause after, step builder = .error cause after → after = builder

namespace Intact

theorem of_ok {step : Building A α} {answer : α} {after : TreeBuilder A}
    (h : step builder = .ok answer after) : Intact step builder := by
  intro cause other herror
  rw [h] at herror
  cases herror

theorem of_error {step : Building A α} {cause : ProtocolError}
    (h : step builder = .error cause builder) : Intact step builder := by
  intro other after herror
  rw [h] at herror
  cases herror
  rfl

theorem refuse (cause : ProtocolError) (builder : TreeBuilder A) :
    Intact (throw cause : Building A α) builder := of_error rfl

/-- A step that fails fails before anything that follows. -/
theorem bind {step : Building A α} {next : α → Building A β} (hstep : Intact step builder)
    (hnext : ∀ answer between, step builder = .ok answer between →
      ∃ value after, next answer between = .ok value after) : Intact (step >>= next) builder := by
  intro cause after h
  cases hresult : step builder with
  | ok answer between =>
      obtain ⟨value, final, hok⟩ := hnext answer between hresult
      rw [Step.bind_ok hresult, hok] at h
      cases h
  | error first between =>
      rw [Step.bind_error hresult] at h
      cases h
      exact hstep _ _ hresult

theorem map (f : α → β) {step : Building A α} (hstep : Intact step builder) :
    Intact (do return f (← step)) builder :=
  hstep.bind fun answer between _ => ⟨f answer, between, rfl⟩

/-- A step behind one that only looks at the builder. -/
theorem behind {step : Building A α} {next : α → Building A β} {answer : α}
    (hstep : step builder = .ok answer builder) (hnext : Intact (next answer) builder) :
    Intact (step >>= next) builder := by
  intro cause after h
  rw [Step.bind_ok hstep] at h
  exact hnext cause after h

theorem look {next : TreeBuilder A → Building A β} (hnext : Intact (next builder) builder) :
    Intact (do next (← get)) builder := behind rfl hnext

theorem add (parent : Option NodeIndex) (name : String) (ownLength : LengthHint)
    (kind : NodeKind A) : Intact (Building.add parent name ownLength kind) builder := by
  cases hname : builder.checkName parent name with
  | ok checked => exact of_ok (add_eq_ok ownLength kind hname)
  | error cause => exact of_error (add_eq_error ownLength kind hname)

theorem modifyNode (index : NodeIndex) (change : Node A → Node A) :
    Intact (Building.modifyNode index change) builder := by
  cases hnode : builder.node? index with
  | some node => exact of_ok (by rw [modifyNode_eq, hnode])
  | none => exact of_error (by rw [modifyNode_eq, hnode])

theorem setPayloadLength {type : ContextType A} (target : EndpointRef type) (bytes : Nat) :
    Intact (Building.setPayloadLength target bytes) builder :=
  look (modifyNode _ _)

theorem endpoint {type : ContextType A} (above : Parent type) (name : String)
    (decode : A.Env → type.El → MessageContext A → Callback A Unit) :
    Intact (Building.endpoint above name decode) builder :=
  (add _ name _ _).map EndpointRef.mk

theorem signal {type : ContextType A} (above : Parent type) (name : String)
    (handle : A.Env → type.El → MessageContext A → Callback A Unit) :
    Intact (Building.signal above name handle) builder := by
  refine (endpoint above name handle).bind fun declared between hdeclared => ?_
  obtain ⟨index, same, hadd, hreturn⟩ := Step.of_bind_ok hdeclared
  cases hreturn
  obtain ⟨rfl, rfl⟩ := add_ok hadd
  -- the payload of an endpoint that was just declared can be sized
  exact ⟨_, _, Step.bind_ok (setPayloadLength_ok _ node?_push_nextIndex 0)⟩

theorem onMissing {type : ContextType A} (target : EndpointRef type) (handler : MissingHandler A) :
    Intact (Building.onMissing target handler) builder := by
  refine look ?_
  cases hnode : builder.node? target.index with
  | none => exact refuse _ _
  | some node =>
      by_cases hmissing : node.kind.endpoint?.isNone = true
      · simp only [if_pos hmissing]
        exact (refuse _ _).bind nofun
      · simp only [if_neg hmissing]
        exact modifyNode _ _

theorem link {owner child : ContextType A} (above : Parent owner) (target : Parent child)
    (name : String) (childOf : A.Env → owner.El → Option child.El) :
    Intact (Building.link above target name childOf) builder := by
  refine look ?_
  cases hnode : builder.node? target.index with
  | none => exact (refuse _ _).bind nofun
  | some node =>
      cases hdynamic : node.kind.isDynamic with
      | false =>
          simp only [hdynamic]
          exact (refuse _ _).bind nofun
      | true =>
          simp only [hdynamic]
          exact (add _ name _ _).map _

end Intact

end Building

/-! ### The group of the caches -/

namespace TreeBuilder

variable {builder : TreeBuilder A} {name : String}

/-- The builder with the group of all caches. -/
def withCacheGroup (builder : TreeBuilder A) : TreeBuilder A :=
  { builder.push (some .root) "cache" (.fixed 0) .group with cacheGroup := some builder.nextIndex }

/-- A cache of this name would leave its group behind: it is the first, there is room for the group
of all caches, and the name is bad. -/
structure Strands (builder : TreeBuilder A) (name : String) : Prop where
  first : builder.cacheGroup = none
  room : builder.checkName (some .root) "cache" = .ok ()
  bad : isName builder.revision name = false

theorem withCacheGroup_build_ne (builder : TreeBuilder A) :
    builder.withCacheGroup.build ≠ builder.build := by
  intro h
  have hsize := congrArg (fun tree => tree.nodes.size) h
  simp [build, withCacheGroup, push] at hsize

theorem checkName_bad (h : isName builder.revision name = false) (parent : Option NodeIndex) :
    builder.checkName parent name = .error (.invalidName name) := by
  unfold checkName
  rw [h]
  rfl

/-- A group that was just declared has room for any name. -/
theorem checkName_withCacheGroup (h : isName builder.revision name = true) :
    builder.withCacheGroup.checkName (some builder.nextIndex) name = .ok () := by
  have hnode : builder.withCacheGroup.node? builder.nextIndex
      = some (builder.fresh (some .root) "cache" (.fixed 0) .group) := by
    show (builder.push (some .root) "cache" (.fixed 0) .group).node? builder.nextIndex = _
    exact node?_push_nextIndex
  have hname : isName builder.withCacheGroup.revision name = true := h
  have hsiblings : builder.withCacheGroup.siblings (some builder.nextIndex) name = .ok [] := by
    simp only [siblings, hnode]
    rfl
  unfold checkName
  rw [hname, hsiblings]
  rfl

end TreeBuilder

namespace Building

open TreeBuilder

variable {builder after : TreeBuilder A} {item : A.Item} {name : String}
  {codec : ObjectCodec A item} {maxEntries : UInt32} {cause : ProtocolError}

theorem cacheGroup_some {group : NodeIndex} (h : builder.cacheGroup = some group) :
    cacheGroup builder = .ok group builder := by
  unfold cacheGroup
  rw [look_eq, h]
  rfl

theorem cacheGroup_none (h : builder.cacheGroup = none)
    (hroom : builder.checkName (some .root) "cache" = .ok ()) :
    cacheGroup builder = .ok builder.nextIndex builder.withCacheGroup := by
  unfold cacheGroup
  rw [look_eq, h]
  exact Step.bind_ok (add_eq_ok _ _ hroom)

theorem cacheGroup_full (h : builder.cacheGroup = none)
    (hroom : builder.checkName (some .root) "cache" = .error cause) :
    cacheGroup builder = .error cause builder := by
  unfold cacheGroup
  rw [look_eq, h]
  exact Step.bind_error (add_eq_error _ _ hroom)

/-- Declares a cache in the group of all caches. -/
def cacheIn (group : NodeIndex) (name : String) (codec : ObjectCodec A item)
    (maxEntries : UInt32) : Building A (ObjectCache A item) := do
  let slot := (← get).cacheSlots
  let endpoint : EndpointRef ContextType.unit ← endpoint ⟨group⟩ name
    fun env _ _ => ObjectCache.takePut name slot maxEntries codec env
  modify fun builder => { builder with cacheSlots := slot + 1 }
  return { name, slot, maxEntries, codec, endpoint }

theorem cacheWithCapacity_eq : cacheWithCapacity name codec maxEntries
    = (do cacheIn (← cacheGroup) name codec maxEntries) := rfl

theorem cacheIn_ok {group : NodeIndex} (h : builder.checkName (some group) name = .ok ()) :
    ∃ cache after, cacheIn group name codec maxEntries builder = .ok cache after := by
  unfold cacheIn
  rw [look_eq]
  exact ⟨_, _, Step.bind_ok (Step.bind_ok (add_eq_ok _ _ h))⟩

theorem cacheIn_error {group : NodeIndex} (h : builder.checkName (some group) name = .error cause) :
    cacheIn group name codec maxEntries builder = .error cause builder := by
  unfold cacheIn
  rw [look_eq]
  exact Step.bind_error (Step.bind_error (add_eq_error _ _ h))

theorem Intact.cacheIn (group : NodeIndex) : Intact (cacheIn group name codec maxEntries) builder :=
  look ((endpoint _ name _).bind fun _ _ _ => ⟨_, _, rfl⟩)

/-- **A first cache with a bad name leaves the group of all caches behind.** -/
theorem cacheWithCapacity_bad (h : builder.Strands name) :
    cacheWithCapacity name codec maxEntries builder
      = .error (.invalidName name) builder.withCacheGroup := by
  have hname : isName builder.withCacheGroup.revision name = false := h.bad
  rw [cacheWithCapacity_eq, Step.bind_ok (cacheGroup_none h.first h.room)]
  exact cacheIn_error (checkName_bad hname _)

/-- Nothing else is left behind by a cache. -/
theorem Intact.cacheWithCapacity (h : ¬ builder.Strands name) :
    Intact (Building.cacheWithCapacity name codec maxEntries) builder := by
  rw [cacheWithCapacity_eq]
  cases hfirst : builder.cacheGroup with
  | some group => exact behind (cacheGroup_some hfirst) (cacheIn group)
  | none =>
      cases hroom : builder.checkName (some .root) "cache" with
      | error full => exact of_error (Step.bind_error (cacheGroup_full hfirst hroom))
      | ok checked =>
          have hname : isName builder.revision name = true := by
            by_contra hbad
            exact h ⟨hfirst, hroom, Bool.eq_false_of_not_eq_true hbad⟩
          -- a good name is taken in a group without children
          obtain ⟨cache, final, hok⟩ := cacheIn_ok (checkName_withCacheGroup hname)
          exact of_ok ((Step.bind_ok (cacheGroup_none hfirst hroom)).trans hok)

/-- The group that was left is the one that the next cache would have declared. -/
theorem cacheWithCapacity_withCacheGroup {bad : String} (h : builder.Strands bad) :
    cacheWithCapacity name codec maxEntries builder.withCacheGroup
      = cacheWithCapacity name codec maxEntries builder := by
  have hleft : cacheGroup builder.withCacheGroup = .ok builder.nextIndex builder.withCacheGroup :=
    cacheGroup_some rfl
  rw [cacheWithCapacity_eq, Step.bind_ok hleft, Step.bind_ok (cacheGroup_none h.first h.room)]

end Building

/-! ### Calls -/

namespace BuilderCall

open TreeBuilder

variable {builder after : TreeBuilder A} {cause : ProtocolError}

/-- The name of the cache that a call declares. -/
def cacheName? : BuilderCall A → Option String
  | cache name _ => some name
  | cacheWithCapacity name _ _ => some name
  | _ => none

/-- The call declares a cache that leaves its group behind. -/
def LeavesGroup (call : BuilderCall A) (builder : TreeBuilder A) : Prop :=
  ∃ name, call.cacheName? = some name ∧ builder.Strands name

open Building in
/-- Any other call leaves the builder as it is if it is refused. -/
theorem intact (call : BuilderCall A) (h : ¬ call.LeavesGroup builder) :
    call.run.Intact builder := by
  have hcache : ∀ name, call.cacheName? = some name → ¬ builder.Strands name :=
    fun name hname hstrands => h ⟨name, hname, hstrands⟩
  cases call with
  | group | key | typedGroup | view | dynamic | keyedEndpoint =>
      exact ((Intact.add _ _ _ _).map _).map _
  | link above target name childOf => exact (Intact.link above target name childOf).map _
  | endpoint above name decode => exact (Intact.endpoint above name decode).map _
  | signal above name handle => exact (Intact.signal above name handle).map _
  | setPayloadLength target bytes => exact (Intact.setPayloadLength target bytes).map _
  | onMissing target handler => exact (Intact.onMissing target handler).map _
  | cache name codec =>
      exact (Intact.look (Intact.cacheWithCapacity (hcache name rfl))).map _
  | cacheWithCapacity name codec maxEntries =>
      exact (Intact.cacheWithCapacity (hcache name rfl)).map _

open Building in
theorem run_of_strands {call : BuilderCall A} {name : String} (hname : call.cacheName? = some name)
    (h : builder.Strands name) :
    call.run builder = .error (.invalidName name) builder.withCacheGroup := by
  cases call with
  | cache given codec =>
      obtain rfl : given = name := Option.some.inj hname
      exact Step.bind_error (cacheWithCapacity_bad h)
  | cacheWithCapacity given codec maxEntries =>
      obtain rfl : given = name := Option.some.inj hname
      exact Step.bind_error (cacheWithCapacity_bad h)
  | _ => cases hname

/-- What a call answers. -/
def answer (call : BuilderCall A) (builder : TreeBuilder A) :
    Except ProtocolError (List (Handle A)) :=
  match call.run builder with
  | .ok handles _ => .ok handles
  | .error cause _ => .error cause

end BuilderCall

namespace TreeBuilder

/-- The builder behind some calls, whatever came of them. -/
def afterAll (builder : TreeBuilder A) (calls : List (BuilderCall A)) : TreeBuilder A :=
  calls.foldl (fun builder call => Step.final (call.run builder)) builder

/-- Whatever is declared next, two builders answer alike and build the same tree. -/
def Alike (first second : TreeBuilder A) : Prop :=
  ∀ calls : List (BuilderCall A),
    (first.afterAll calls).build = (second.afterAll calls).build ∧
      ∀ call : BuilderCall A,
        call.answer (first.afterAll calls) = call.answer (second.afterAll calls)

end TreeBuilder

/-- What a refused call leaves behind. -/
structure BuilderCall.Declined (call : BuilderCall A) (builder after : TreeBuilder A) : Prop where
  unchanged : after = builder ↔ ¬ call.LeavesGroup builder
  unnoticed : after.Alike builder ↔ ¬ call.LeavesGroup builder
  left : call.LeavesGroup builder → after = builder.withCacheGroup
  /-- A cache that is declared next makes up for what was left. -/
  mended : call.LeavesGroup builder → ∀ {item : A.Item} (name : String)
    (codec : ObjectCodec A item) (maxEntries : UInt32),
      Building.cacheWithCapacity name codec maxEntries after
        = Building.cacheWithCapacity name codec maxEntries builder

/-- **A refused call leaves no trace, unless it leaves the group of all caches.** -/
theorem declined_calls {call : BuilderCall A} {builder after : TreeBuilder A}
    {cause : ProtocolError} (h : call.run builder = .error cause after) :
    call.Declined builder after := by
  by_cases hleaves : call.LeavesGroup builder
  · have ⟨name, hname, hstrands⟩ := hleaves
    rw [call.run_of_strands hname hstrands] at h
    cases h
    have hbuild : builder.withCacheGroup.build ≠ builder.build :=
      builder.withCacheGroup_build_ne
    constructor
    · exact ⟨fun hsame => absurd (congrArg TreeBuilder.build hsame) hbuild, absurd hleaves⟩
    · exact ⟨fun halike => absurd (halike []).1 hbuild, absurd hleaves⟩
    · exact fun _ => rfl
    · exact fun _ _ _ _ _ => Building.cacheWithCapacity_withCacheGroup hstrands
  · obtain rfl : after = builder := call.intact hleaves cause after h
    constructor
    · exact ⟨fun _ => hleaves, fun _ => rfl⟩
    · exact ⟨fun _ => hleaves, fun _ calls => ⟨rfl, fun call => rfl⟩⟩
    · exact fun hgroup => absurd hgroup hleaves
    · exact fun hgroup => absurd hgroup hleaves

/-! A second node of the same name, and a cache without a name. -/

/-- A signal that may be declared once. -/
def onlyBell : BuilderCall Scenario.app :=
  .signal (⟨.root⟩ : Parent .unit) "bell" fun _ _ _ => pure ()

/-- The builder with this signal. -/
def belfry : TreeBuilder Scenario.app := Step.final (onlyBell.run (.new .zero))

/-- The second signal is refused, and nothing of it is left. -/
theorem second_bell_declined :
    onlyBell.run belfry = .error (.duplicateName "" "bell") belfry ∧
      onlyBell.Declined belfry belfry := by
  have hrefused : onlyBell.run belfry = .error (.duplicateName "" "bell") belfry := rfl
  exact ⟨hrefused, declined_calls hrefused⟩

/-- A cache without a name is refused, and yet there is a group for it. -/
theorem nameless_cache_leaves_group :
    ¬ ∀ (call : BuilderCall Scenario.app) (builder after : TreeBuilder Scenario.app)
      (cause : ProtocolError), call.run builder = .error cause after →
        after = builder ∧ after.Alike builder := by
  intro hclean
  have hrefused : (BuilderCall.cache "" (Scenario.objectCodec 64 .int)).run (.new .zero)
      = .error (.invalidName "") (TreeBuilder.new .zero).withCacheGroup := rfl
  obtain ⟨hsame, -⟩ := hclean _ _ _ _ hrefused
  exact TreeBuilder.withCacheGroup_build_ne _ (congrArg TreeBuilder.build hsame)

end PathWire

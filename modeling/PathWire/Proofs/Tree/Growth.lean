/-
How a builder grows.

An edit (`Proofs/Tree/Built.lean`) says what of a builder changes, but not which node a declaration
puts where.  The methods of a builder are choosier than that: a Dynamic node is declared without a
parent and any other node with one, a link is declared to a Dynamic node, and only endpoints get
another length or a missing-keys handler.  For the last of these a method relies on its caller, who
has to use a handle that was given out, since a handle says that its node is an endpoint.
-/
import PathWire.Proofs.Tree.Typed

namespace PathWire

variable {A : Application}

/-- The state that a step ends in, refused or not. -/
def Step.final {ε σ α : Type} : EStateM.Result ε σ α → σ
  | .ok _ after | .error _ after => after

namespace TreeBuilder

/-- There is a Dynamic node at an index. -/
def HasDynamic (builder : TreeBuilder A) (index : NodeIndex) : Prop :=
  ∃ node, builder.node? index = some node ∧ node.kind.isDynamic = true

/-- There is an endpoint at an index. -/
def HasEndpoint (builder : TreeBuilder A) (index : NodeIndex) : Prop :=
  ∃ node, builder.node? index = some node ∧ node.kind.endpoint?.isSome = true

/-- A node of some kind may be declared below a parent, or without one. -/
structure Admits (builder : TreeBuilder A) (parent : Option NodeIndex) (kind : NodeKind A) :
    Prop where
  plain : kind ≠ .root
  orphan : parent = none ↔ kind.isDynamic = true
  linked : ∀ {target}, kind.target? = some target → builder.HasDynamic target

/-- What a step of a declaration does to a builder. -/
inductive Growth : TreeBuilder A → TreeBuilder A → Prop
  | declare {builder : TreeBuilder A} {parent : Option NodeIndex} {name : String}
      {kind : NodeKind A} (ownLength : LengthHint)
      (hname : builder.checkName parent name = .ok ()) (hadmits : builder.Admits parent kind) :
      Growth builder (builder.push parent name ownLength kind)
  | resize {builder : TreeBuilder A} {target : NodeIndex} (hendpoint : builder.HasEndpoint target)
      (bytes : Nat) :
      Growth builder (builder.retouch target
        (Building.sized (builder.lengthAbove target) bytes))
  | mend {builder : TreeBuilder A} {target : NodeIndex} (hendpoint : builder.HasEndpoint target)
      (handler : MissingHandler A) :
      Growth builder (builder.retouch target (Building.handlingMissing handler))
  | count {builder : TreeBuilder A} (cacheGroup : Option NodeIndex) (cacheSlots : Nat) :
      Growth builder { builder with cacheGroup, cacheSlots }

end TreeBuilder

namespace Building

open TreeBuilder

variable {α β : Type} {builder after : TreeBuilder A}

/-- A step that only lets a builder grow, whether it is refused in the end or not. -/
def Grows (step : Building A α) (builder : TreeBuilder A) : Prop :=
  Relation.ReflTransGen Growth builder (Step.final (step builder))

namespace Grows

theorem pure (answer : α) (builder : TreeBuilder A) : Grows (Pure.pure answer) builder := .refl

theorem refuse (cause : ProtocolError) (builder : TreeBuilder A) :
    Grows (throw cause : Building A α) builder := .refl

theorem of_ok {step : Building A α} {answer : α} (h : step builder = .ok answer after)
    (hgrowth : Growth builder after) : Grows step builder := by
  unfold Grows
  rw [h]
  exact .single hgrowth

theorem bind {step : Building A α} {next : α → Building A β} (hstep : Grows step builder)
    (hnext : ∀ answer between, step builder = .ok answer between → Grows (next answer) between) :
    Grows (step >>= next) builder := by
  unfold Grows at hstep ⊢
  cases hresult : step builder with
  | ok answer between =>
      rw [hresult] at hstep
      rw [Step.bind_ok hresult]
      exact hstep.trans (hnext answer between hresult)
  | error cause between =>
      rw [hresult] at hstep
      rw [Step.bind_error hresult]
      exact hstep

theorem map (f : α → β) {step : Building A α} (hstep : Grows step builder) :
    Grows (do return f (← step)) builder :=
  hstep.bind fun answer between _ => pure (f answer) between

/-- A step that first looks at the builder. -/
theorem look {next : TreeBuilder A → Building A β} (hnext : Grows (next builder) builder) :
    Grows (do next (← get)) builder := hnext

/-! ### The parts of a declaration -/

theorem add {parent : Option NodeIndex} (name : String) (ownLength : LengthHint)
    {kind : NodeKind A} (hadmits : builder.Admits parent kind) :
    Grows (Building.add parent name ownLength kind) builder := by
  cases hname : builder.checkName parent name with
  | ok checked => exact .of_ok (add_eq_ok ownLength kind hname) (.declare ownLength hname hadmits)
  | error cause =>
      unfold Grows
      rw [add_eq_error ownLength kind hname]
      exact .refl

/-- A node that is neither Dynamic nor a link fits below any other one. -/
theorem below (above : NodeIndex) (name : String) (ownLength : LengthHint) {kind : NodeKind A}
    (hplain : kind ≠ .root) (hdynamic : kind.isDynamic = false) (hlink : kind.target? = none) :
    Grows (Building.add (some above) name ownLength kind) builder := by
  refine add name ownLength ⟨hplain, by simp [hdynamic], ?_⟩
  intro target htarget
  rw [hlink] at htarget
  cases htarget

theorem count (change : TreeBuilder A → TreeBuilder A)
    (h : Growth builder (change builder)) : Grows (modify change) builder :=
  of_ok rfl h

theorem modifyNode {target : NodeIndex} {change : Node A → Node A}
    (hgrowth : Growth builder (builder.retouch target change)) :
    Grows (Building.modifyNode target change) builder := by
  unfold Grows
  rw [modifyNode_eq]
  cases builder.node? target with
  | none => exact .refl
  | some node => exact .single hgrowth

theorem setPayloadLength {type : ContextType A} {target : EndpointRef type}
    (h : builder.HasEndpoint target.index) (bytes : Nat) :
    Grows (Building.setPayloadLength target bytes) builder :=
  look (modifyNode (.resize h bytes))

theorem onMissing {type : ContextType A} (target : EndpointRef type) (handler : MissingHandler A) :
    Grows (Building.onMissing target handler) builder := by
  refine look ?_
  cases hnode : builder.node? target.index with
  | none => exact refuse _ _
  | some node =>
      by_cases hmissing : node.kind.endpoint?.isNone = true
      · simp only [if_pos hmissing]
        exact (refuse _ _).bind nofun
      · simp only [if_neg hmissing]
        have hendpoint : builder.HasEndpoint target.index := by
          refine ⟨node, hnode, ?_⟩
          cases hkind : node.kind.endpoint? with
          | none => simp [hkind] at hmissing
          | some endpoint => rfl
        exact modifyNode (.mend hendpoint handler)

theorem link {owner child : ContextType A} (above : Parent owner) (target : Parent child)
    (name : String) (childOf : A.Env → owner.El → Option child.El) :
    Grows (Building.link above target name childOf) builder := by
  refine look ?_
  cases hnode : builder.node? target.index with
  | none => exact (refuse _ _).bind nofun
  | some node =>
      cases hdynamic : node.kind.isDynamic with
      | false =>
          simp only [hdynamic]
          exact (refuse _ _).bind nofun
      | true =>
          simp only [hdynamic]
          refine (add name _ ⟨by nofun, by simp [NodeKind.isDynamic], ?_⟩).map _
          rintro place ⟨⟩
          exact ⟨node, hnode, hdynamic⟩

theorem endpoint {type : ContextType A} (above : Parent type) (name : String)
    (decode : A.Env → type.El → MessageContext A → Callback A Unit) :
    Grows (Building.endpoint above name decode) builder :=
  (below _ name _ (by nofun) (by rfl) (by rfl)).map _

/-- A declared endpoint is one. -/
theorem hasEndpoint {type : ContextType A} {above : Parent type} {name : String}
    {decode : A.Env → type.El → MessageContext A → Callback A Unit} {declared : EndpointRef type}
    (h : Building.endpoint above name decode builder = .ok declared after) :
    after.HasEndpoint declared.index := by
  obtain ⟨index, between, hadd, hdeclared⟩ := Step.of_bind_ok h
  cases hdeclared
  obtain ⟨rfl, rfl⟩ := add_ok hadd
  exact ⟨_, node?_push_nextIndex, rfl⟩

theorem signal {type : ContextType A} (above : Parent type) (name : String)
    (handle : A.Env → type.El → MessageContext A → Callback A Unit) :
    Grows (Building.signal above name handle) builder :=
  (endpoint above name handle).bind fun declared _ hdeclared =>
    (setPayloadLength (hasEndpoint hdeclared) 0).map fun _ => declared

theorem cacheGroup : Grows (Building.cacheGroup (A := A)) builder := by
  refine look ?_
  cases builder.cacheGroup with
  | some group => exact pure group builder
  | none =>
      refine (below _ _ _ (by nofun) (by rfl) (by rfl)).bind fun group between _ => ?_
      exact (count _ (.count (some group) between.cacheSlots)).map fun _ => group

theorem cacheWithCapacity {item : A.Item} (name : String) (codec : ObjectCodec A item)
    (maxEntries : UInt32) : Grows (Building.cacheWithCapacity name codec maxEntries) builder := by
  refine cacheGroup.bind fun group between _ => look ?_
  refine (endpoint _ name _).bind fun declared later _ => ?_
  exact (count _ (.count later.cacheGroup (between.cacheSlots + 1))).map _

end Grows

end Building

open Building in
/-- **A call lets a builder grow**, if the handles to endpoints that it is made with are true. -/
theorem BuilderCall.grows (call : BuilderCall A) {builder : TreeBuilder A}
    (h : ∀ type index, .endpoint type index ∈ call.uses → builder.HasEndpoint index) :
    call.run.Grows builder := by
  cases call with
  | group | key | typedGroup | view | keyedEndpoint =>
      exact ((Grows.below _ _ _ (by nofun) (by rfl) (by rfl)).map _).map _
  | dynamic child name pick =>
      exact ((Grows.add name _ ⟨by nofun, by simp [NodeKind.isDynamic], by nofun⟩).map _).map _
  | link above target name childOf => exact (Grows.link above target name childOf).map _
  | endpoint above name decode => exact (Grows.endpoint above name decode).map _
  | signal above name handle => exact (Grows.signal above name handle).map _
  | setPayloadLength target bytes =>
      have hendpoint := h _ target.index (List.mem_singleton_self _)
      exact (Grows.setPayloadLength hendpoint bytes).map _
  | onMissing target handler => exact (Grows.onMissing target handler).map _
  | cache name codec => exact (Grows.look (Grows.cacheWithCapacity name codec _)).map _
  | cacheWithCapacity name codec maxEntries =>
      exact (Grows.cacheWithCapacity name codec maxEntries).map _

/-- **What every growth keeps holds of every builder**, if no handle was made up. -/
theorem Built.grown {revision : Revision} {P : TreeBuilder A → Prop} (hnew : P (.new revision))
    (hgrowth : ∀ before after : TreeBuilder A, before.Growth after → P before → P after)
    {builder : TreeBuilder A} {handles : List (Handle A)}
    (h : Built revision (fun handles call => call.Honest handles) builder handles) :
    P builder := by
  have hcall : ∀ {call : BuilderCall A} {before : TreeBuilder A} {handles : List (Handle A)},
      Built revision (fun handles call => call.Honest handles) before handles →
        call.Honest handles → P before → P (Step.final (call.run before)) := by
    intro call before handles hbuilt hhonest hbefore
    have hgrows : call.run.Grows before := by
      refine call.grows fun type index huse => ?_
      obtain ⟨node, endpoint, hnode, hendpoint, -⟩ := hbuilt.typed.pointed (hhonest _ huse)
      exact ⟨node, hnode, by rw [hendpoint]; rfl⟩
    unfold Building.Grows at hgrows
    generalize Step.final (call.run before) = after at hgrows ⊢
    induction hgrows with
    | refl => exact hbefore
    | tail _ hlast ih => exact hgrowth _ _ hlast ih
  induction h with
  | new => exact hnew
  | answered call hbuilt hallowed hrun ih =>
      have hafter := hcall hbuilt hallowed ih
      rwa [hrun] at hafter
  | refused call hbuilt hallowed hrun ih =>
      have hafter := hcall hbuilt hallowed ih
      rwa [hrun] at hafter

end PathWire

/-
Trees as they are built.

A program gets its tree from a builder, by any number of declarations of which any may be
refused.  Here a call of the builder is data, so that `Built` can speak of all of them, and every
call is taken apart into the few edits that change a builder.  What an edit preserves,
every built tree has.
-/
import PathWire.Peer.ObjectCache
import PathWire.Proofs.Bytes

namespace PathWire

variable {A : Application}

/-! ### Calls as data -/

/-- A typed reference that a call gave out. -/
inductive Handle (A : Application) where
  | parent (type : ContextType A) (index : NodeIndex)
  | endpoint (type : ContextType A) (index : NodeIndex)
  | link (owner child : ContextType A) (index target : NodeIndex)

/-- A call of one of the builder's methods. -/
inductive BuilderCall (A : Application) where
  | group {type : ContextType A} (above : Parent type) (name : String)
  | key {parent child : ContextType A} (above : Parent parent) (name : String)
      (key : ContextKey A parent child)
  | typedGroup {attached child : ContextType A} (name : String)
      (supply : A.Env → attached.El → Option child.El)
  | view {parent child : ContextType A} (above : Parent parent) (name : String)
      (narrow : A.Env → parent.El → Option child.El) (widen : A.Env → child.El → parent.El)
  | dynamic (child : ContextType A) (name : String)
      (pick : Option (A.Env → child.El → Option (DynamicLink child)))
  | link {owner child : ContextType A} (above : Parent owner) (target : Parent child)
      (name : String) (childOf : A.Env → owner.El → Option child.El)
  | endpoint {type : ContextType A} (above : Parent type) (name : String)
      (decode : A.Env → type.El → MessageContext A → Callback A Unit)
  | keyedEndpoint {parent child : ContextType A} (above : Parent parent) (name : String)
      (key : ContextKey A parent child)
      (decode : A.Env → child.El → MessageContext A → Callback A Unit)
  | signal {type : ContextType A} (above : Parent type) (name : String)
      (handle : A.Env → type.El → MessageContext A → Callback A Unit)
  | setPayloadLength {type : ContextType A} (endpoint : EndpointRef type) (bytes : Nat)
  | onMissing {type : ContextType A} (endpoint : EndpointRef type) (handler : MissingHandler A)
  | cache {item : A.Item} (name : String) (codec : ObjectCodec A item)
  | cacheWithCapacity {item : A.Item} (name : String) (codec : ObjectCodec A item)
      (maxEntries : UInt32)

namespace BuilderCall

/-- The handles that a call is made with. -/
def uses : BuilderCall A → List (Handle A)
  | @group _ type above _ => [.parent type above.index]
  | @key _ parent _ above _ _ => [.parent parent above.index]
  | @view _ parent _ above _ _ _ => [.parent parent above.index]
  | @link _ owner child above target _ _ =>
    [.parent owner above.index, .parent child target.index]
  | @endpoint _ type above _ _ => [.parent type above.index]
  | @keyedEndpoint _ parent _ above _ _ _ => [.parent parent above.index]
  | @signal _ type above _ _ => [.parent type above.index]
  | @setPayloadLength _ type target _ => [.endpoint type target.index]
  | @onMissing _ type target _ => [.endpoint type target.index]
  | typedGroup _ _ | dynamic _ _ _ | cache _ _ | cacheWithCapacity _ _ _ => []

/-- Makes a call, and gives the handles out. -/
def run : BuilderCall A → Building A (List (Handle A))
  | @group _ type above name => do return [.parent type (← Building.group above name).index]
  | @key _ _ child above name codec => do
    return [.parent child (← Building.key above name codec).index]
  | @typedGroup _ _ child name supply => do
    return [.parent child (← Building.typedGroup name supply).index]
  | @view _ _ child above name narrow widen => do
    return [.parent child (← Building.view above name narrow widen).index]
  | dynamic child name pick => do
    return [.parent child (← Building.dynamic child name pick).index]
  | @link _ owner child above target name childOf => do
    let ref ← Building.link above target name childOf
    return [.link owner child ref.index ref.target]
  | @endpoint _ type above name decode => do
    return [.endpoint type (← Building.endpoint above name decode).index]
  | @keyedEndpoint _ _ child above name codec decode => do
    return [.endpoint child (← Building.keyedEndpoint above name codec decode).index]
  | @signal _ type above name handle => do
    return [.endpoint type (← Building.signal above name handle).index]
  | setPayloadLength target bytes => do
    Building.setPayloadLength target bytes
    return []
  | onMissing target handler => do
    Building.onMissing target handler
    return []
  | cache name codec => do
    return [.endpoint .unit (← Building.cache name codec).endpoint.index]
  | cacheWithCapacity name codec maxEntries => do
    return [.endpoint .unit (← Building.cacheWithCapacity name codec maxEntries).endpoint.index]

/-- The handler of a cache's endpoint. -/
def putEndpoint {item : A.Item} (name : String) (slot : Nat) (maxEntries : UInt32)
    (codec : ObjectCodec A item) : EndpointDef A :=
  ⟨.unit, fun env _ _ => ObjectCache.takePut name slot maxEntries codec env, none⟩

/-- The kinds of nodes that a call adds. -/
def Adds : BuilderCall A → NodeKind A → Prop
  | group _ _, kind => kind = .group
  | key _ _ codec, kind => kind = .carrier (.key codec)
  | typedGroup _ supply, kind => kind = .carrier (.attachment supply)
  | view _ _ narrow widen, kind => kind = .carrier (.view narrow widen)
  | dynamic child _ pick, kind => kind = .dynamic (pick.map (Resolver.mk child))
  | link _ target name childOf, kind => kind = .link target.index (.link name childOf)
  | @endpoint _ type _ _ decode, kind => kind = .endpoint ⟨type, decode, none⟩
  | @keyedEndpoint _ _ child _ _ codec decode, kind =>
    kind = .keyedEndpoint (.key codec) ⟨child, decode, none⟩
  | @signal _ type _ _ handle, kind => kind = .endpoint ⟨type, handle, none⟩
  | setPayloadLength _ _, _ | onMissing _ _, _ => False
  | cache name codec, kind =>
    kind = .group ∨ ∃ slot maxEntries, kind = .endpoint (putEndpoint name slot maxEntries codec)
  | cacheWithCapacity name codec maxEntries, kind =>
    kind = .group ∨ ∃ slot, kind = .endpoint (putEndpoint name slot maxEntries codec)

/-- The missing-keys handlers that a call installs. -/
def Mends : BuilderCall A → MissingHandler A → Prop
  | onMissing _ handler, other => other = handler
  | _, _ => False

end BuilderCall

/-- A builder on which calls were made that `allowed` admits, and the handles that were
given out on the way. -/
inductive Built (revision : Revision) (allowed : List (Handle A) → BuilderCall A → Prop) :
    TreeBuilder A → List (Handle A) → Prop
  | new : Built revision allowed (.new revision) [.parent .unit .root]
  | answered {builder after : TreeBuilder A} {handles issued : List (Handle A)}
      (call : BuilderCall A) (hbuilder : Built revision allowed builder handles)
      (hallowed : allowed handles call) (hcall : call.run builder = .ok issued after) :
      Built revision allowed after (handles ++ issued)
  | refused {builder after : TreeBuilder A} {handles : List (Handle A)} {cause : ProtocolError}
      (call : BuilderCall A) (hbuilder : Built revision allowed builder handles)
      (hallowed : allowed handles call) (hcall : call.run builder = .error cause after) :
      Built revision allowed after handles

/-- Calls that are admitted in one sense may be admitted in a wider one. -/
theorem Built.mono {revision : Revision} {allowed wider : List (Handle A) → BuilderCall A → Prop}
    (hwider : ∀ handles call, allowed handles call → wider handles call)
    {builder : TreeBuilder A} {handles : List (Handle A)}
    (h : Built revision allowed builder handles) : Built revision wider builder handles := by
  induction h with
  | new => exact .new
  | answered call _ hallowed hcall ih => exact .answered call ih (hwider _ _ hallowed) hcall
  | refused call _ hallowed hcall ih => exact .refused call ih (hwider _ _ hallowed) hcall

/-! ### Edits of a builder -/

/-- A node that only differs in its length hints and its missing-keys handler. -/
structure Node.Retouched (before after : Node A) : Prop where
  name : after.name = before.name
  parent : after.parent = before.parent
  children : after.children = before.children
  kind : after.kind = before.kind ∨ ∃ handler : MissingHandler A,
    after.kind = before.kind.mapEndpoint fun e => { e with onMissing := some handler }

namespace TreeBuilder

/-- The builder with one node replaced. -/
def retouch (builder : TreeBuilder A) (target : NodeIndex) (change : Node A → Node A) :
    TreeBuilder A :=
  { builder with nodes := builder.nodes.modify target.position change }

/-- A change of a builder: a new node of a kind that `adds` admits, a node retouched with no
missing-keys handler but those that `mends` admits, or the caches counted. -/
inductive Edit (adds : NodeKind A → Prop) (mends : MissingHandler A → Prop) :
    TreeBuilder A → TreeBuilder A → Prop
  | push {builder : TreeBuilder A} (parent : Option NodeIndex) (name : String)
      (ownLength : LengthHint) {kind : NodeKind A}
      (hname : builder.checkName parent name = .ok ()) (hkind : adds kind) :
      Edit adds mends builder (builder.push parent name ownLength kind)
  | retouch {builder : TreeBuilder A} (target : NodeIndex) {change : Node A → Node A}
      (hchange : ∀ node : Node A, node.Retouched (change node))
      (hmends : ∀ node : Node A, (change node).kind = node.kind ∨ ∃ handler, mends handler ∧
        (change node).kind = node.kind.mapEndpoint fun e => { e with onMissing := some handler }) :
      Edit adds mends builder (builder.retouch target change)
  | count {builder : TreeBuilder A} (cacheGroup : Option NodeIndex) (cacheSlots : Nat) :
      Edit adds mends builder { builder with cacheGroup, cacheSlots }

end TreeBuilder

namespace Building

/-- A node is changed if it is there. -/
theorem modifyNode_eq (index : NodeIndex) (change : Node A → Node A) (builder : TreeBuilder A) :
    modifyNode index change builder = match builder.node? index with
      | some _ => .ok () (builder.retouch index change)
      | none => .error (.unknownNode index.position) builder := by
  cases hnode : builder.node? index with
  | some node =>
      simp only [modifyNode, bind, EStateM.bind, get, getThe, MonadStateOf.get, EStateM.get, hnode]
      rfl
  | none =>
      simp only [modifyNode, bind, EStateM.bind, get, getThe, MonadStateOf.get, EStateM.get, hnode]
      rfl

/-- A step that changes a builder by edits only, whether it is refused in the end or not. -/
def Edits {α : Type} (adds : NodeKind A → Prop) (mends : MissingHandler A → Prop)
    (step : Building A α) : Prop :=
  ∀ builder : TreeBuilder A, ∃ after,
    Relation.ReflTransGen (TreeBuilder.Edit adds mends) builder after ∧
    ((∃ answer, step builder = .ok answer after) ∨ ∃ cause, step builder = .error cause after)

namespace Edits

variable {α β : Type} {adds : NodeKind A → Prop} {mends : MissingHandler A → Prop}

theorem pure (answer : α) : Edits adds mends (Pure.pure answer : Building A α) :=
  fun builder => ⟨builder, .refl, .inl ⟨answer, rfl⟩⟩

theorem refuse (cause : ProtocolError) : Edits adds mends (throw cause : Building A α) :=
  fun builder => ⟨builder, .refl, .inr ⟨cause, rfl⟩⟩

theorem look : Edits adds mends (get : Building A (TreeBuilder A)) :=
  fun builder => ⟨builder, .refl, .inl ⟨builder, rfl⟩⟩

theorem bind {step : Building A α} {next : α → Building A β} (hstep : Edits adds mends step)
    (hnext : ∀ answer, Edits adds mends (next answer)) : Edits adds mends (step >>= next) := by
  intro builder
  rcases hstep builder with ⟨between, hfirst, ⟨answer, hok⟩ | ⟨cause, herror⟩⟩
  · obtain ⟨after, hrest, hresult⟩ := hnext answer between
    refine ⟨after, hfirst.trans hrest, ?_⟩
    simpa only [Bind.bind, EStateM.bind, hok] using hresult
  · refine ⟨between, hfirst, .inr ⟨cause, ?_⟩⟩
    simp only [Bind.bind, EStateM.bind, herror]

theorem map (f : α → β) {step : Building A α} (hstep : Edits adds mends step) :
    Edits adds mends (do return f (← step)) :=
  hstep.bind fun answer => pure (f answer)

theorem count {change : TreeBuilder A → TreeBuilder A}
    (h : ∀ builder, TreeBuilder.Edit adds mends builder (change builder)) :
    Edits adds mends (modify change : Building A Unit) :=
  fun builder => ⟨change builder, .single (h builder), .inl ⟨(), rfl⟩⟩

theorem add (parent : Option NodeIndex) (name : String) (ownLength : LengthHint)
    {kind : NodeKind A} (hkind : adds kind) :
    Edits adds mends (Building.add parent name ownLength kind) := by
  intro builder
  unfold Building.add
  cases hname : builder.checkName parent name with
  | ok checked => exact ⟨_, .single (.push parent name ownLength hname hkind), .inl ⟨_, rfl⟩⟩
  | error cause => exact ⟨builder, .refl, .inr ⟨cause, rfl⟩⟩

theorem modifyNode (index : NodeIndex) {change : Node A → Node A}
    (h : ∀ node : Node A, node.Retouched (change node))
    (hmends : ∀ node : Node A, (change node).kind = node.kind ∨ ∃ handler, mends handler ∧
      (change node).kind = node.kind.mapEndpoint fun e => { e with onMissing := some handler }) :
    Edits adds mends (Building.modifyNode index change) := by
  intro builder
  rw [modifyNode_eq]
  cases builder.node? index with
  | none => exact ⟨builder, .refl, .inr ⟨_, rfl⟩⟩
  | some node => exact ⟨_, .single (.retouch index h hmends), .inl ⟨(), rfl⟩⟩

theorem endpoint {type : ContextType A} (above : Parent type) (name : String)
    {decode : A.Env → type.El → MessageContext A → Callback A Unit}
    (hkind : adds (.endpoint ⟨type, decode, none⟩)) :
    Edits adds mends (Building.endpoint above name decode) :=
  (add _ name _ hkind).map EndpointRef.mk

theorem setPayloadLength {type : ContextType A} (target : EndpointRef type) (bytes : Nat) :
    Edits adds mends (Building.setPayloadLength target bytes) :=
  look.bind fun _ => modifyNode target.index (fun _ => ⟨rfl, rfl, rfl, .inl rfl⟩) fun _ => .inl rfl

theorem onMissing {type : ContextType A} (target : EndpointRef type)
    {handler : MissingHandler A} (hmends : mends handler) :
    Edits adds mends (Building.onMissing target handler) := by
  refine look.bind fun builder => ?_
  cases builder.node? target.index with
  | none => exact refuse _
  | some node =>
      have hmodify : Edits adds mends
          (Building.modifyNode target.index (handlingMissing handler)) :=
        modifyNode target.index (fun _ => ⟨rfl, rfl, rfl, .inr ⟨handler, rfl⟩⟩)
          fun _ => .inr ⟨handler, hmends, rfl⟩
      by_cases hmissing : node.kind.endpoint?.isNone = true
      · simp only [if_pos hmissing]
        exact (refuse _).bind fun _ => hmodify
      · simp only [if_neg hmissing]
        exact hmodify

theorem link {owner child : ContextType A} (above : Parent owner) (target : Parent child)
    (name : String) {childOf : A.Env → owner.El → Option child.El}
    (hkind : adds (.link target.index (.link name childOf))) :
    Edits adds mends (Building.link above target name childOf) := by
  refine look.bind fun builder => ?_
  have hadd : Edits adds mends (do
      let index ← Building.add (some above.index) name (.fixed 0)
        (.link target.index (.link name childOf))
      return (⟨index, target.index⟩ : LinkRef owner child)) :=
    (add _ name _ hkind).map fun index => LinkRef.mk index target.index
  cases builder.node? target.index with
  | none => exact (refuse _).bind fun _ => hadd
  | some node =>
      cases hdynamic : node.kind.isDynamic with
      | false =>
          simp only [hdynamic]
          exact (refuse _).bind fun _ => hadd
      | true =>
          simp only [hdynamic]
          exact hadd

theorem cacheGroup (hkind : adds .group) : Edits adds mends (Building.cacheGroup (A := A)) := by
  refine look.bind fun builder => ?_
  cases builder.cacheGroup with
  | some group => exact pure group
  | none =>
      exact (add _ _ _ hkind).bind fun group =>
        (count fun builder => .count (some group) builder.cacheSlots).bind fun _ => pure group

theorem cacheWithCapacity {item : A.Item} (name : String) (codec : ObjectCodec A item)
    (maxEntries : UInt32) (hgroup : adds .group)
    (hkind : ∀ slot, adds (.endpoint (BuilderCall.putEndpoint name slot maxEntries codec))) :
    Edits adds mends (Building.cacheWithCapacity name codec maxEntries) := by
  refine (cacheGroup hgroup).bind fun group => look.bind fun builder => ?_
  exact (endpoint ⟨group⟩ name (hkind _)).bind fun endpoint =>
    (count fun builder => .count builder.cacheGroup _).bind fun _ => pure _

end Edits

end Building

/-- Every call is made of edits. -/
theorem BuilderCall.edits (call : BuilderCall A) : call.run.Edits call.Adds call.Mends := by
  cases call with
  | group above name =>
      have hkind : (group above name).Adds .group := rfl
      exact ((Building.Edits.add _ name _ hkind).map Parent.mk).map _
  | key above name codec =>
      have hkind : (key above name codec).Adds (.carrier (.key codec)) := rfl
      exact ((Building.Edits.add _ name _ hkind).map Parent.mk).map _
  | typedGroup name supply =>
      have hkind : (typedGroup name supply).Adds (.carrier (.attachment supply)) := rfl
      exact ((Building.Edits.add _ name _ hkind).map Parent.mk).map _
  | view above name narrow widen =>
      have hkind : (view above name narrow widen).Adds (.carrier (.view narrow widen)) := rfl
      exact ((Building.Edits.add _ name _ hkind).map Parent.mk).map _
  | dynamic child name pick =>
      have hkind : (dynamic child name pick).Adds (.dynamic (pick.map (Resolver.mk child))) := rfl
      exact ((Building.Edits.add _ name _ hkind).map Parent.mk).map _
  | link above target name childOf =>
      have hkind : (link above target name childOf).Adds
        (.link target.index (.link name childOf)) := rfl
      exact (Building.Edits.link above target name hkind).map _
  | endpoint above name decode =>
      have hkind : (endpoint above name decode).Adds (.endpoint ⟨_, decode, none⟩) := rfl
      exact (Building.Edits.endpoint above name hkind).map _
  | keyedEndpoint above name codec decode =>
      have hkind : (keyedEndpoint above name codec decode).Adds
        (.keyedEndpoint (.key codec) ⟨_, decode, none⟩) := rfl
      exact ((Building.Edits.add _ name _ hkind).map EndpointRef.mk).map _
  | signal above name handle =>
      have hkind : (signal above name handle).Adds (.endpoint ⟨_, handle, none⟩) := rfl
      exact ((Building.Edits.endpoint above name hkind).bind fun declared =>
        (Building.Edits.setPayloadLength declared 0).map fun _ => declared).map _
  | setPayloadLength target bytes => exact (Building.Edits.setPayloadLength target bytes).map _
  | onMissing target handler =>
      have hmends : (onMissing target handler).Mends handler := rfl
      exact (Building.Edits.onMissing target hmends).map _
  | cache name codec =>
      exact (Building.Edits.look.bind fun builder =>
        Building.Edits.cacheWithCapacity name codec _ (.inl rfl)
          fun slot => .inr ⟨slot, _, rfl⟩).map _
  | cacheWithCapacity name codec maxEntries =>
      exact (Building.Edits.cacheWithCapacity name codec maxEntries (.inl rfl)
        fun slot => .inr ⟨slot, rfl⟩).map _

/-- **What every edit preserves holds of every builder.** -/
theorem Built.invariant {revision : Revision}
    {allowed : List (Handle A) → BuilderCall A → Prop} {P : TreeBuilder A → Prop}
    (hnew : P (.new revision))
    (hedit : ∀ handles call, allowed handles call → ∀ builder after,
      TreeBuilder.Edit call.Adds call.Mends builder after → P builder → P after)
    {builder : TreeBuilder A} {handles : List (Handle A)}
    (h : Built revision allowed builder handles) : P builder := by
  have hrun : ∀ handles call, allowed handles call → ∀ builder after,
      Relation.ReflTransGen (TreeBuilder.Edit call.Adds call.Mends) builder after →
        P builder → P after := by
    intro handles call hallowed builder after hedits hP
    induction hedits with
    | refl => exact hP
    | tail _ hlast ih => exact hedit handles call hallowed _ _ hlast ih
  induction h with
  | new => exact hnew
  | @answered builder after handles issued call _ hallowed hcall ih =>
      rcases call.edits builder with ⟨_, hedits, ⟨answer, hok⟩ | ⟨cause, herror⟩⟩
      · cases hcall.symm.trans hok
        exact hrun handles call hallowed _ _ hedits ih
      · cases hcall.symm.trans herror
  | @refused builder after handles cause call _ hallowed hcall ih =>
      rcases call.edits builder with ⟨_, hedits, ⟨answer, hok⟩ | ⟨cause, herror⟩⟩
      · cases hcall.symm.trans hok
      · cases hcall.symm.trans herror
        exact hrun handles call hallowed _ _ hedits ih

end PathWire

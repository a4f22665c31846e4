/-
What is asked of a program's callbacks.

Keys, codecs and decoders read what the peer has sent.  A careful one asks its decoder for nothing
impossible, and what it refuses on its own account it refuses because of what it has read.  It may
also do whatever cannot fail, as long as every cache still finds its slot free or filled with a
table of its own: a decoder is handed the store of the caches, and could put another one in its
place.  The library's own reading steps are fair by the same argument.
-/
import PathWire.Proofs.Cache.Tables
import PathWire.Proofs.Codec.Fair

namespace PathWire

variable {A : Application}

/-- A cause that is not the fault of the local side. -/
def ProtocolError.Blameless (cause : ProtocolError) : Prop := cause.kind ≠ .misuse

theorem ProtocolError.blameless_of_malformed {cause : ProtocolError} (h : cause.kind = .malformed) :
    cause.Blameless := by
  intro hmisuse
  rw [h] at hmisuse
  cases hmisuse

open ProtocolError (blameless_of_malformed)

/-! ### Reading -/

namespace MessageReader

/-- A read that fails through no fault of the local side only, and gives what has `post`. -/
abbrev Fair {α : Type} (read : MessageReader α) (post : α → Prop) : Prop :=
  Step.Safe (fun _ => True) ProtocolError.Blameless read post

/-- What a read is put together from: codecs, and steps that cannot fail. -/
inductive Basic : ∀ α : Type, MessageReader α → Prop
  | codec {α : Type} {read : Reader α} (h : read.Careful) : Basic α read.inMessage
  | free {α : Type} {step : MessageReader α}
      (h : ∀ dec, ∃ answer after, step dec = .ok answer after) : Basic α step

/-- A read that asks its decoder for nothing impossible. -/
abbrev Careful {α : Type} (read : MessageReader α) : Prop :=
  Step.Composed Basic ProtocolError.Blameless read

theorem fair_inMessage {α : Type} {read : Reader α} (h : Step.Fair read) :
    Fair read.inMessage fun _ => True := by
  intro dec _
  cases hread : read dec with
  | ok value after =>
      have hmessage : read.inMessage dec = .ok value after := Step.adapt_ok.mpr hread
      rw [hmessage]
      exact ⟨trivial, trivial⟩
  | error cause after =>
      have hmessage : read.inMessage dec = .error (.codec cause) after := Step.adapt_error hread
      rw [hmessage]
      exact ⟨trivial, (h.error trivial hread).2⟩

theorem Careful.fair {α : Type} {read : MessageReader α} (h : Careful read) :
    Fair read fun _ => True := by
  refine Step.Composed.safe (fun hbasic => ?_) (fun _ hcause => hcause) h
  cases hbasic with
  | codec h => exact fair_inMessage h.fair
  | free h =>
      intro dec _
      obtain ⟨answer, after, hok⟩ := h dec
      rw [hok]
      exact ⟨trivial, trivial⟩

end MessageReader

/-! ### Handling -/

namespace Callback

/-- A step that keeps the slots in order and fails through no fault of the local side only. -/
abbrev Fair (caches : List (AnyCache A)) {α : Type} (step : Callback A α) : Prop :=
  Step.Safe (fun state => state.caches.Sorted caches) ProtocolError.Blameless step fun _ => True

/-- What a callback is put together from: reads of the payload, and steps that cannot fail and keep
the slots in order. -/
inductive Basic (caches : List (AnyCache A)) : ∀ α : Type, Callback A α → Prop
  | reading {α : Type} {read : MessageReader α} (h : MessageReader.Careful read) :
      Basic caches α (reading read)
  | free {α : Type} {step : Callback A α}
      (h : ∀ state, ∃ answer after, step state = .ok answer after ∧
        (state.caches.Sorted caches → after.caches.Sorted caches)) : Basic caches α step

/-- A callback that asks its decoder for nothing impossible. -/
abbrev Careful (caches : List (AnyCache A)) {α : Type} (step : Callback A α) : Prop :=
  Step.Composed (Basic caches) ProtocolError.Blameless step

variable {caches : List (AnyCache A)}

theorem fair_reading {α : Type} {read : MessageReader α}
    (h : MessageReader.Fair read fun _ => True) : Fair caches (reading read) := by
  intro state hsorted
  cases hread : read state.decoder with
  | ok value dec =>
      rw [reading_ok hread]
      exact ⟨hsorted, trivial⟩
  | error cause dec =>
      rw [reading_error hread]
      exact ⟨hsorted, (h.error trivial hread).2⟩

theorem fair_store {after : CacheStore A} (h : after.Sorted caches) :
    Fair caches (modify fun state => { state with caches := after }) :=
  fun _ _ => ⟨h, trivial⟩

theorem Careful.fair {α : Type} {step : Callback A α} (h : Careful caches step) :
    Fair caches step := by
  refine Step.Composed.safe (fun hbasic => ?_) (fun _ hcause => hcause) h
  cases hbasic with
  | reading h => exact fair_reading h.fair
  | free h =>
      intro state hsorted
      obtain ⟨answer, after, hok, hkept⟩ := h state
      rw [hok]
      exact ⟨hkept hsorted, trivial⟩

end Callback

/-! ### Callbacks of a tree -/

def ContextKey.Careful {parent child : ContextType A} (key : ContextKey A parent child) : Prop :=
  ∀ env above, MessageReader.Careful (key.read env above)

def ObjectCodec.Careful {item : A.Item} (codec : ObjectCodec A item) : Prop :=
  ∀ env, MessageReader.Careful (codec.read env)

/-- What a handler refuses with is handed on as it is. -/
def MissingHandler.Careful (handler : MissingHandler A) : Prop :=
  ∀ env missing ctx caches cause, (handler env missing ctx caches).result = .error cause →
    cause.Blameless

/-- Only a key reads anything. -/
def Carrier.Careful : Carrier A → Prop
  | key codec => codec.Careful
  | _ => True

/-- A call whose callbacks are careful. -/
def BuilderCall.Careful (caches : List (AnyCache A)) : BuilderCall A → Prop
  | key _ _ codec => codec.Careful
  | endpoint _ _ decode => ∀ env value ctx, Callback.Careful caches (decode env value ctx)
  | keyedEndpoint _ _ codec decode =>
    codec.Careful ∧ ∀ env value ctx, Callback.Careful caches (decode env value ctx)
  | signal _ _ handle => ∀ env value ctx, Callback.Careful caches (handle env value ctx)
  | onMissing _ handler => MissingHandler.Careful handler
  | cache _ codec | cacheWithCapacity _ codec _ => codec.Careful
  | _ => True

/-- A call that is made with handles that were given out, and whose callbacks are careful. -/
structure BuilderCall.Proper (caches : List (AnyCache A)) (handles : List (Handle A))
    (call : BuilderCall A) : Prop where
  honest : call.Honest handles
  careful : call.Careful caches

/-- The decoders among them. -/
theorem BuilderCall.Careful.does {caches : List (AnyCache A)} {call : BuilderCall A}
    (h : call.Careful caches) : call.Does fun step => Callback.Careful caches step := by
  cases call with
  | keyedEndpoint => exact h.2
  | endpoint | signal => exact h
  | _ => trivial

section Built

variable {revision : Revision} {allowed : List (Handle A) → BuilderCall A → Prop}
  {builder : TreeBuilder A} {handles : List (Handle A)} {caches : List (AnyCache A)}

/-- The carriers of a built tree. -/
theorem Built.careful_carrier
    (hallowed : ∀ handles call, allowed handles call → call.Careful caches)
    (h : Built revision allowed builder handles) {index : NodeIndex} {node : Node A}
    (hnode : builder.build.node? index = some node) {carrier : Carrier A}
    (hcarrier : node.kind.carrier? = some carrier) : carrier.Careful := by
  refine h.kinds (Q := fun kind => ∀ carrier, kind.carrier? = some carrier → carrier.Careful)
    ?_ ?_ ?_ hnode carrier hcarrier
  · intro carrier hcarrier
    cases hcarrier
  · intro handles call kind hcall hadds carrier hcarrier
    have hcareful := hallowed handles call hcall
    cases call with
    | key above name codec =>
        cases hadds
        cases hcarrier
        exact hcareful
    | keyedEndpoint above name codec decode =>
        cases hadds
        cases hcarrier
        exact hcareful.1
    | cache name codec =>
        rcases hadds with rfl | ⟨slot, maxEntries, rfl⟩ <;> cases hcarrier
    | cacheWithCapacity name codec maxEntries =>
        rcases hadds with rfl | ⟨slot, rfl⟩ <;> cases hcarrier
    | setPayloadLength target bytes | onMissing target handler => exact hadds.elim
    | typedGroup | view | link =>
        cases hadds
        cases hcarrier
        trivial
    | _ =>
        cases hadds
        cases hcarrier
  · intro kind handler hkind carrier hcarrier
    refine hkind carrier ?_
    cases kind <;> exact hcarrier

/-- The missing-keys handlers of a built tree. -/
theorem Built.careful_handler
    (hallowed : ∀ handles call, allowed handles call → call.Careful caches)
    (h : Built revision allowed builder handles) {index : NodeIndex} {node : Node A}
    (hnode : builder.build.node? index = some node) {endpoint : EndpointDef A}
    (hendpoint : node.kind.endpoint? = some endpoint) {handler : MissingHandler A}
    (hhandler : endpoint.onMissing = some handler) : MissingHandler.Careful handler := by
  refine h.handlers ?_ hnode hendpoint hhandler
  intro handles call handler hcall hmends
  have hcareful := hallowed handles call hcall
  cases call with
  | onMissing target installed =>
      cases hmends
      exact hcareful
  | _ => exact hmends.elim

/-- A declared cache has the codec that it was declared with. -/
theorem Building.codec_of_ok {item : A.Item} {name : String} {codec : ObjectCodec A item}
    {maxEntries : UInt32} {before after : TreeBuilder A} {cache : ObjectCache A item}
    (h : cacheWithCapacity name codec maxEntries before = .ok cache after) :
    cache.codec = codec := by
  obtain ⟨group, _, -, h⟩ := Step.of_bind_ok h
  obtain ⟨found, _, -, h⟩ := Step.of_bind_ok h
  obtain ⟨endpoint, _, -, h⟩ := Step.of_bind_ok h
  obtain ⟨_, _, -, h⟩ := Step.of_bind_ok h
  cases h
  rfl

/-- The codecs of the caches. -/
theorem Stocked.careful_codec {stocked : List (AnyCache A)}
    (hallowed : ∀ handles call, allowed handles call → call.Careful caches)
    (h : Stocked revision allowed builder handles stocked) :
    ∀ cache ∈ stocked, cache.2.codec.Careful := by
  induction h with
  | new => simp
  | refused call _ hcall hrun ih => exact ih
  | @answered before after handles issued stocked call _ hcall hrun ih =>
      have hcareful := hallowed handles call hcall
      have hgiven : ∀ {item : A.Item} {codec : ObjectCodec A item}
          {result : EStateM.Result ProtocolError (TreeBuilder A) (ObjectCache A item)},
          codec.Careful → (∀ cache after, result = .ok cache after → cache.codec = codec) →
          ∀ cache ∈ BuilderCall.given result, cache.2.codec.Careful := by
        intro item codec result hcodec hresult cache hcache
        cases result with
        | ok declared after =>
            rw [List.mem_singleton.mp hcache, hresult declared after rfl]
            exact hcodec
        | error cause after => cases hcache
      intro cache hcache
      rcases List.mem_append.mp hcache with hold | hnew
      · exact ih cache hold
      · cases call with
        | cache name codec =>
            refine hgiven hcareful (fun declared after hok => ?_) cache hnew
            obtain ⟨found, _, -, hok⟩ := Step.of_bind_ok hok
            exact Building.codec_of_ok hok
        | cacheWithCapacity name codec maxEntries =>
            exact hgiven hcareful (fun declared after hok => Building.codec_of_ok hok) cache hnew
        | _ => cases hnew

/-- The tree of a careful program. -/
theorem Stocked.careful_stock
    (h : Stocked revision (BuilderCall.Proper caches) builder handles caches) :
    builder.build.StockOf (fun step => Callback.Careful caches step) caches :=
  (h.stock fun _ _ hproper => hproper.careful.does).tree

end Built

/-! ### The library's own steps -/

namespace ObjectCache

variable {caches : List (AnyCache A)}

/-- **A put is refused through no fault of the local side only**, and keeps the slots in order. -/
theorem fair_takePut
    (hslots : ∀ one ∈ caches, ∀ other ∈ caches, one.2.slot = other.2.slot → one = other)
    {cache : AnyCache A} (hcache : cache ∈ caches) (hcodec : cache.2.codec.Careful) (env : A.Env) :
    Callback.Fair caches
      (takePut cache.2.name cache.2.slot cache.2.maxEntries cache.2.codec env) := by
  have hid : MessageReader.Fair Reader.varU32.inMessage fun _ => True :=
    MessageReader.fair_inMessage Reader.Method.varU32.fair
  refine (Callback.fair_reading hid).bind fun id _ => ?_
  by_cases hrange : cache.2.maxEntries.toNat ≤ id.toNat
  · simp only [if_pos hrange]
    exact .refuse (blameless_of_malformed rfl)
  simp only [if_neg hrange]
  refine (Callback.fair_reading (hcodec env).fair).bind fun object _ => ?_
  refine Step.Safe.look.bind fun state hsorted => ?_
  obtain ⟨opened, hopen⟩ := (hsorted cache hcache).open?_ok
  obtain ⟨-, -, hopens, hrewrites⟩ := CacheStore.open?_rewrites hopen
  have hopened : opened.Sorted caches := hsorted.rewrites hslots hcache hrewrites
  simp only [hopen]
  refine (Callback.fair_store hopened).bind fun _ _ => ?_
  generalize state.caches.tableAt cache.2.slot cache.1 = table
  by_cases hknown : (table.object? id.toNat).isSome = true
  · simp only [if_pos hknown]
    exact .refuse (blameless_of_malformed rfl)
  · simp only [if_neg hknown]
    exact Callback.fair_store
      (hopened.rewrites hslots hcache (CacheStore.rewrites_put hopens _))

end ObjectCache

namespace Connection

theorem fair_readNames (limit count : Nat) : Step.Fair (readNames limit count) := by
  induction count with
  | zero => exact .pure trivial
  | succ count ih =>
      exact (Reader.Method.str limit).fair.then fun name => ih.then fun rest => .pure trivial

theorem fair_readAnnounce (revision : Revision) :
    MessageReader.Fair (readAnnounce revision) fun _ => True := by
  have hnumber : MessageReader.Fair Reader.varU32.inMessage fun _ => True :=
    MessageReader.fair_inMessage Reader.Method.varU32.fair
  refine hnumber.bind fun id _ => hnumber.bind fun depth _ => ?_
  by_cases hdeep : revision.maxPathDepth < depth.toNat
  · simp only [if_pos hdeep]
    exact .refuse (blameless_of_malformed rfl)
  simp only [if_neg hdeep]
  refine (MessageReader.fair_inMessage (fair_readNames _ _)).bind fun names _ => ?_
  refine Step.Safe.look.bind fun dec _ => ?_
  by_cases hleft : dec.remaining = 0
  · simp only [hleft, bne_self_eq_false, Bool.false_eq_true, if_false]
    exact .pure trivial
  · simp only [bne_iff_ne.mpr hleft, if_true]
    exact .refuse (blameless_of_malformed rfl)

end Connection

end PathWire

/-
What comes of a message whose keys lead to something that is not there.

The keys of a path are read from the top down, each below the value before it, and reading stops
at the first one that has no value or cannot be read.  What is done with the message then depends on
what was read so far only: on the values of the keys above, on the names of the others, and on the
handler for missing keys.  The keys further down, the payload and the decoder may be whatever they
like.  If all keys have a value then the decoder is given the last of them, and it is of the type
that the decoder takes.

The values that were read belong to the keys that they were read for by their place alone.  So this
needs that nothing but keys is among the keys of a bound path, which holds because every bound path
was found in the tree.
-/
import PathWire.Proofs.Peer.Blame
import PathWire.Proofs.Tree.WellFormed

namespace PathWire

variable {A : Application}

/-! ### Reading keys -/

namespace Connection

/-- The carrier of a node, asked for its value below another one, gives this result. -/
def Asks (conn : Connection A) (env : A.Env) (index : NodeIndex) (above : Value A) (dec : Decoder)
    (result : EStateM.Result ProtocolError Decoder (Option (Value A))) : Prop :=
  ∃ node carrier, conn.tree.node? index = some node ∧ node.kind.carrier? = some carrier ∧
    carrier.read env above conn.attachment dec = result

/-- Keys are read one below the other, and all of them have a value. -/
inductive Reads (conn : Connection A) (env : A.Env) :
    Value A → Decoder → List NodeIndex → List (Value A) → Value A → Decoder → Prop
  | done {value : Value A} {dec : Decoder} : Reads conn env value dec [] [] value dec
  | key {above value lowest : Value A} {dec between after : Decoder} {index : NodeIndex}
      {rest : List NodeIndex} {values : List (Value A)}
      (hasks : conn.Asks env index above dec (.ok (some value) between))
      (hrest : Reads conn env value between rest values lowest after) :
      Reads conn env above dec (index :: rest) (value :: values) lowest after

/-- The first keys have values below a given one, and the next key gives a result. -/
structure Stops (conn : Connection A) (env : A.Env) (above : Value A) (dec : Decoder)
    (keys before : List NodeIndex) (values : List (Value A)) (key : NodeIndex)
    (below : List NodeIndex)
    (result : EStateM.Result ProtocolError Decoder (Option (Value A))) : Prop where
  split : keys = before ++ key :: below
  reached : ∃ lowest between, conn.Reads env above dec before values lowest between ∧
    conn.Asks env key lowest between result

variable {conn : Connection A} {env : A.Env}

/-- There is a value for each key. -/
theorem Reads.length {above lowest : Value A} {dec after : Decoder} {keys : List NodeIndex}
    {values : List (Value A)} (h : conn.Reads env above dec keys values lowest after) :
    values.length = keys.length := by
  induction h with
  | done => rfl
  | key _ _ ih => rw [List.length_cons, List.length_cons, ih]

/-- The lowest value is the last one. -/
theorem Reads.lowest {above lowest : Value A} {dec after : Decoder} {keys : List NodeIndex}
    {values : List (Value A)} (h : conn.Reads env above dec keys values lowest after) :
    lowest = values.getLast?.getD above := by
  induction h with
  | done => rfl
  | key _ _ ih => rw [ih, List.getLast?_cons, Option.getD_some]

/-! What the loop makes of them -/

/-- How reading goes on behind a carrier. -/
def goOn (conn : Connection A) (env : A.Env) (above : Value A) (index : NodeIndex)
    (rest : List NodeIndex) : Option (Value A) → MessageReader (ReadKeys A)
  | some value => do
    let below ← readKeys conn.tree env conn.attachment value rest
    return { below with values := value :: below.values }
  | none => return ⟨[], above, index :: rest⟩

theorem readKeys_cons {above : Value A} {dec : Decoder} {index : NodeIndex} {node : Node A}
    {carrier : Carrier A} (hnode : conn.tree.node? index = some node)
    (hcarrier : node.kind.carrier? = some carrier) (rest : List NodeIndex) :
    readKeys conn.tree env conn.attachment above (index :: rest) dec
      = (carrier.read env above conn.attachment >>= conn.goOn env above index rest) dec := by
  have hexpect : Carrier.expecting (conn.tree.node index) dec = .ok node dec := by
    rw [Tree.node_of_node? hnode]
    rfl
  rw [readKeys, Step.bind_ok hexpect]
  simp only [hcarrier]
  rfl

theorem readKeys_value {above value : Value A} {dec between : Decoder} {index : NodeIndex}
    (h : conn.Asks env index above dec (.ok (some value) between)) (rest : List NodeIndex) :
    readKeys conn.tree env conn.attachment above (index :: rest) dec
      = conn.goOn env above index rest (some value) between := by
  obtain ⟨node, carrier, hnode, hcarrier, hread⟩ := h
  rw [readKeys_cons hnode hcarrier, Step.bind_ok hread]

theorem readKeys_absent {above : Value A} {dec after : Decoder} {index : NodeIndex}
    (h : conn.Asks env index above dec (.ok none after)) (rest : List NodeIndex) :
    readKeys conn.tree env conn.attachment above (index :: rest) dec
      = .ok ⟨[], above, index :: rest⟩ after := by
  obtain ⟨node, carrier, hnode, hcarrier, hread⟩ := h
  rw [readKeys_cons hnode hcarrier, Step.bind_ok hread]
  rfl

theorem readKeys_failed {above : Value A} {dec after : Decoder} {index : NodeIndex}
    {cause : ProtocolError} (h : conn.Asks env index above dec (.error cause after))
    (rest : List NodeIndex) :
    readKeys conn.tree env conn.attachment above (index :: rest) dec = .error cause after := by
  obtain ⟨node, carrier, hnode, hcarrier, hread⟩ := h
  rw [readKeys_cons hnode hcarrier, Step.bind_error hread]

/-- Keys that are read put their values in front of those further down. -/
theorem Reads.readKeys_ok {above lowest : Value A} {dec between : Decoder}
    {before : List NodeIndex} {values : List (Value A)}
    (h : conn.Reads env above dec before values lowest between) {rest : List NodeIndex}
    {read : ReadKeys A} {after : Decoder}
    (hrest : readKeys conn.tree env conn.attachment lowest rest between = .ok read after) :
    readKeys conn.tree env conn.attachment above (before ++ rest) dec
      = .ok { read with values := values ++ read.values } after := by
  induction h with
  | done => exact hrest
  | key hasks _ ih =>
      rw [List.cons_append, readKeys_value hasks, goOn, Step.bind_ok (ih hrest)]
      rfl

theorem Reads.readKeys_error {above lowest : Value A} {dec between : Decoder}
    {before : List NodeIndex} {values : List (Value A)}
    (h : conn.Reads env above dec before values lowest between) {rest : List NodeIndex}
    {cause : ProtocolError} {after : Decoder}
    (hrest : readKeys conn.tree env conn.attachment lowest rest between = .error cause after) :
    readKeys conn.tree env conn.attachment above (before ++ rest) dec = .error cause after := by
  induction h with
  | done => exact hrest
  | key hasks _ ih =>
      rw [List.cons_append, readKeys_value hasks, goOn, Step.bind_error (ih hrest)]

/-- All keys have values. -/
theorem Reads.readKeys {above lowest : Value A} {dec after : Decoder} {keys : List NodeIndex}
    {values : List (Value A)} (h : conn.Reads env above dec keys values lowest after) :
    Connection.readKeys conn.tree env conn.attachment above keys dec
      = .ok ⟨values, lowest, []⟩ after := by
  have hend : Connection.readKeys conn.tree env conn.attachment lowest [] after
      = .ok ⟨[], lowest, []⟩ after := rfl
  have hread := h.readKeys_ok hend
  rwa [List.append_nil, List.append_nil] at hread

section Stops

variable {above : Value A} {dec after : Decoder} {keys before below : List NodeIndex}
  {values : List (Value A)} {key : NodeIndex}

theorem Stops.length {result : EStateM.Result ProtocolError Decoder (Option (Value A))}
    (h : conn.Stops env above dec keys before values key below result) :
    values.length = before.length := by
  obtain ⟨lowest, between, hreads, -⟩ := h.reached
  exact hreads.length

/-- Reading stops at the first key without a value. -/
theorem Stops.readKeys_ok
    (h : conn.Stops env above dec keys before values key below (.ok none after)) :
    ∃ lowest, readKeys conn.tree env conn.attachment above keys dec
      = .ok ⟨values, lowest, key :: below⟩ after := by
  obtain ⟨lowest, between, hreads, hasks⟩ := h.reached
  refine ⟨lowest, ?_⟩
  rw [h.split, hreads.readKeys_ok (readKeys_absent hasks below), List.append_nil]

/-- And at the first one that cannot be read. -/
theorem Stops.readKeys_error {cause : ProtocolError}
    (h : conn.Stops env above dec keys before values key below (.error cause after)) :
    readKeys conn.tree env conn.attachment above keys dec = .error cause after := by
  obtain ⟨lowest, between, hreads, hasks⟩ := h.reached
  rw [h.split]
  exact hreads.readKeys_error (readKeys_failed hasks below)

/-- A key that has a value is passed. -/
theorem Stops.behind {value : Value A} {between : Decoder} {index : NodeIndex}
    {result : EStateM.Result ProtocolError Decoder (Option (Value A))}
    (hasks : conn.Asks env index above dec (.ok (some value) between))
    (h : conn.Stops env value between keys before values key below result) :
    conn.Stops env above dec (index :: keys) (index :: before) (value :: values) key below
      result := by
  obtain ⟨lowest, reached, hreads, hstop⟩ := h.reached
  exact ⟨by rw [h.split, List.cons_append], lowest, reached, .key hasks hreads, hstop⟩

end Stops

/-- Nodes that carry a value. -/
def Carry (tree : Tree A) (keys : List NodeIndex) : Prop :=
  ∀ key ∈ keys, ∃ node carrier, tree.node? key = some node ∧ node.kind.carrier? = some carrier

/-- **Keys are read to the end**, or up to the first one that has no value or cannot be read. -/
theorem stops_or_reads (env : A.Env) (keys : List NodeIndex) :
    ∀ {above : Value A} {dec : Decoder}, Carry conn.tree keys →
      (∃ before values key below after,
        conn.Stops env above dec keys before values key below (.ok none after)) ∨
      (∃ before values key below cause after,
        conn.Stops env above dec keys before values key below (.error cause after)) ∨
      ∃ values lowest after, conn.Reads env above dec keys values lowest after := by
  induction keys with
  | nil => exact fun _ => .inr (.inr ⟨[], _, _, .done⟩)
  | cons key rest ih =>
      intro above dec hcarry
      obtain ⟨⟨node, carrier, hnode, hcarrier⟩, hrest⟩ := List.forall_mem_cons.mp hcarry
      have hasks : conn.Asks env key above dec (carrier.read env above conn.attachment dec) :=
        ⟨node, carrier, hnode, hcarrier, rfl⟩
      cases hread : carrier.read env above conn.attachment dec with
      | error cause after =>
          rw [hread] at hasks
          exact .inr (.inl ⟨[], [], key, rest, cause, after, rfl, above, dec, .done, hasks⟩)
      | ok found between =>
          rw [hread] at hasks
          cases found with
          | none => exact .inl ⟨[], [], key, rest, between, rfl, above, dec, .done, hasks⟩
          | some value =>
              rcases @ih value between hrest with
                ⟨_, _, _, _, _, hstops⟩ | ⟨_, _, _, _, _, _, hstops⟩ | ⟨_, _, _, hreads⟩
              · exact .inl ⟨_, _, _, _, _, hstops.behind hasks⟩
              · exact .inr (.inl ⟨_, _, _, _, _, _, hstops.behind hasks⟩)
              · exact .inr (.inr ⟨_, _, _, .key hasks hreads⟩)

end Connection

/-! ### Keys of a path -/

/-- The keys of a path carry values. -/
theorem ResolvedPath.carry_of_carriers {tree : Tree A} (nodes : List NodeIndex) :
    ∀ {keys : List NodeIndex}, carriers tree nodes = .ok keys → Connection.Carry tree keys := by
  induction nodes with
  | nil =>
      intro keys h
      cases h
      exact nofun
  | cons index rest ih =>
      intro keys h
      obtain ⟨node, hnode, h⟩ := Result.of_bind_ok h
      obtain ⟨below, hbelow, h⟩ := Result.of_bind_ok h
      cases hcarrier : node.kind.carrier? with
      | none =>
          simp only [hcarrier] at h
          cases h
          exact ih hbelow
      | some carrier =>
          simp only [hcarrier] at h
          cases h
          exact List.forall_mem_cons.mpr ⟨⟨node, carrier, Tree.node_ok hnode, hcarrier⟩, ih hbelow⟩

/-- What a carrier gives is of the type that its children see. -/
theorem Carrier.type_of_read {carrier : Carrier A} {env : A.Env} {above value : Value A}
    {attached : Option (Value A)} {dec after : Decoder}
    (h : carrier.read env above attached dec = .ok (some value) after) :
    value.type = carrier.lower := by
  have hgiven : ∀ {child : ContextType A} {found : Option child.El},
      found.map (Value.mk child) = some value → value.type = child := by
    intro child found hvalue
    obtain ⟨data, -, rfl⟩ := Option.map_eq_some_iff.mp hvalue
    rfl
  cases carrier with
  | key codec =>
      obtain ⟨data, _, -, h⟩ := Step.of_bind_ok h
      obtain ⟨found, _, -, h⟩ := Step.of_bind_ok h
      injection h with hvalue
      exact hgiven hvalue
  | view narrow widen =>
      obtain ⟨data, _, -, h⟩ := Step.of_bind_ok h
      injection h with hvalue
      exact hgiven hvalue
  | attachment supply =>
      injection h with hvalue
      exact hgiven hvalue
  | link name childOf =>
      obtain ⟨data, _, -, h⟩ := Step.of_bind_ok h
      injection h with hvalue
      exact hgiven hvalue

section Tree

variable {revision : Revision} {builder : TreeBuilder A} {handles : List (Handle A)}

theorem Built.rooted
    (hbuilt : Built revision (fun handles call => call.Honest handles) builder handles) :
    ∃ node, builder.node? .root = some node ∧ node.kind = .root := by
  have hsound : builder.Sound := hbuilt.grown (P := TreeBuilder.Sound)
    (TreeBuilder.sound_new revision) fun _ _ hgrowth hbefore => hgrowth.sound hbefore
  exact hsound.start

/-- **The last value on the way down is one that the last node's endpoint takes.** -/
theorem Connection.Reads.suits
    (hbuilt : Built revision (fun handles call => call.Honest handles) builder handles)
    {conn : Connection A} (htree : conn.tree = builder.build) {env : A.Env}
    (nodes : List NodeIndex) : ∀ {above : NodeIndex} {value lowest : Value A}
      {dec after : Decoder} {keys : List NodeIndex} {values : List (Value A)},
      builder.build.Descends above nodes → ResolvedPath.carriers builder.build nodes = .ok keys →
      builder.Suits handles above value → conn.Reads env value dec keys values lowest after →
      builder.Suits handles (nodes.getLast?.getD above) lowest := by
  have hshaped := hbuilt.shaped
  have htyped := hbuilt.typed
  induction nodes with
  | nil =>
      intro above value lowest dec after keys values _ hkeys hsuits hreads
      cases hkeys
      cases hreads
      exact hsuits
  | cons index rest ih =>
      intro above value lowest dec after keys values hdescends hkeys hsuits hreads
      obtain ⟨hchild, hrest⟩ := hdescends
      obtain ⟨node, hnode, hkeys⟩ := Result.of_bind_ok hkeys
      obtain ⟨below, hbelow, hkeys⟩ := Result.of_bind_ok hkeys
      have hnode := Tree.node_ok hnode
      simp only [List.getLast?_cons, Option.getD_some]
      cases hcarrier : node.kind.carrier? with
      | none =>
          simp only [hcarrier] at hkeys
          cases hkeys
          exact ih hrest hbelow (hsuits.plain hshaped htyped hchild hnode hcarrier) hreads
      | some carrier =>
          simp only [hcarrier] at hkeys
          cases hkeys
          cases hreads with
          | key hasks hreads =>
              obtain ⟨same, own, hsame, hown, hread⟩ := hasks
              rw [htree] at hsame
              cases hnode.symm.trans hsame
              cases hcarrier.symm.trans hown
              have hlower := TreeBuilder.suits_lower hbuilt htyped hnode hcarrier
                (Carrier.type_of_read hread)
              exact ih hrest hbelow hlower hreads

end Tree

/-! ### What the callbacks see -/

/-- The context of a message holds the values of the keys that were read, and no others. -/
structure MessageContext.Holds (ctx : MessageContext A) (before missing : List NodeIndex)
    (values : List (Value A)) : Prop where
  listed : ctx.values = values
  aligned : values.length = before.length
  /-- A key that was read has its own value. -/
  above : ∀ {type : ContextType A} (handle : Parent type) (position : Nat),
    before.findIdx? (· == handle.index) = some position →
      ctx.get handle = values[position]?.bind (·.as? type)
  /-- One that was not has none. -/
  missing : ∀ {type : ContextType A} (handle : Parent type), handle.index ∈ missing →
    handle.index ∉ before → ctx.get handle = none

namespace Connection

variable {conn : Connection A}

/-- A key is found at its first place on the path. -/
theorem keyPosition?_readContext (id : Nat) (path : ResolvedPath) (values : List (Value A))
    {index : NodeIndex} {position : Nat}
    (h : path.keys.findIdx? (· == index) = some position) :
    (conn.readContext id path values).keyPosition? index = some position := by
  have hkeys : ((conn.readContext id path values).keys.findIdx? fun key => key.node == index)
      = some position := by
    show ((path.keys.map conn.tree.routeKey).findIdx? fun key => key.node == index) = _
    rw [List.findIdx?_map]
    exact h
  rw [MessageContext.keyPosition?, hkeys, Option.some_or]

theorem holds_readContext (id : Nat) {path : ResolvedPath} {before missing : List NodeIndex}
    (hkeys : path.keys = before ++ missing) {values : List (Value A)}
    (haligned : values.length = before.length) :
    (conn.readContext id path values).Holds before missing values where
  listed := rfl
  aligned := haligned
  above {type} handle position hposition := by
    have hfound : path.keys.findIdx? (· == handle.index) = some position := by
      rw [hkeys, List.findIdx?_append, hposition, Option.some_or]
    rw [MessageContext.get, keyPosition?_readContext id path values hfound, Option.bind_some]
    rfl
  missing {type} handle hmissing hbefore := by
    have hnone : before.findIdx? (· == handle.index) = none := by
      rw [List.findIdx?_eq_none_iff]
      exact fun key hkey => beq_eq_false_iff_ne.mpr fun hsame => hbefore (hsame ▸ hkey)
    obtain ⟨place, hplace⟩ : ∃ place, missing.findIdx? (· == handle.index) = some place := by
      rw [← Option.isSome_iff_exists, List.findIdx?_isSome, List.any_eq_true]
      exact ⟨handle.index, hmissing, beq_self_eq_true _⟩
    have hfound : path.keys.findIdx? (· == handle.index) = some (place + before.length) := by
      rw [hkeys, List.findIdx?_append, hnone, hplace]
      rfl
    have hout : values[place + before.length]? = none :=
      List.getElem?_eq_none (by omega)
    rw [MessageContext.get, keyPosition?_readContext id path values hfound, Option.bind_some]
    show (values[place + before.length]?).bind _ = none
    rw [hout, Option.bind_none]

/-! ### One message -/

/-- A message on a bound path, behind its tag. -/
structure Addressed (conn : Connection A) (message : Bytes) (id : Nat) (path : ResolvedPath)
    (endpoint : EndpointDef A) (dec : Decoder) : Prop where
  tagged : ∃ tag, Reader.u32 (.ofBytes message) = .ok tag dec ∧ tag.toNat = id
  ordinary : id ≠ announceTag
  bound : conn.ids.lookup id = .ok path
  ended : endpointOf conn.tree id path = .ok endpoint

/-- What becomes of a message is up to its decoder, which has run once. -/
def concluded (conn : Connection A) (id : Nat) (path : ResolvedPath) :
    EStateM.Result ProtocolError (Decoding A) Unit → Received A
  | .error cause state => ⟨.error cause, { conn with caches := state.caches }, state.events⟩
  | .ok () state =>
    ⟨if state.decoder.remaining = 0 then .ok (.dispatched id path.dotted)
      else .error (.trailingBytes path.dotted state.decoder.remaining),
      { conn with caches := state.caches }, state.events⟩

/-- What becomes of a message is up to its handler for missing keys, which has run once. -/
def reported (conn : Connection A) (id : Nat) (path : ResolvedPath) (missing : MissingKeys)
    (outcome : MissingOutcome A) : Received A :=
  ⟨outcome.result.map fun () => .missingKeys id path.dotted missing, conn, outcome.events⟩

/-- What a handler is told of keys without a value. -/
def missingKeys (conn : Connection A) (keys : List NodeIndex) : MissingKeys :=
  ⟨keys, keys.map conn.tree.name⟩

section Addressed

variable {message : Bytes} {id : Nat} {path : ResolvedPath} {endpoint : EndpointDef A}
  {dec after : Decoder} {env : A.Env} {before below : List NodeIndex} {values : List (Value A)}
  {key : NodeIndex}

theorem Addressed.receive_eq (h : conn.Addressed message id path endpoint dec) (env : A.Env) :
    conn.receive env message = conn.receiveOn env id path dec := by
  obtain ⟨tag, htag, rfl⟩ := h.tagged
  simp only [receive, htag, if_neg h.ordinary, h.bound]

/-- **If a key has no value then the handler is all that runs**, once. -/
theorem Addressed.receive_absent (h : conn.Addressed message id path endpoint dec)
    (hstops : conn.Stops env .unit dec path.keys before values key below (.ok none after)) :
    ∃ lowest, conn.receive env message
      = conn.reportMissing env endpoint id path ⟨values, lowest, key :: below⟩ := by
  obtain ⟨lowest, hread⟩ := hstops.readKeys_ok
  refine ⟨lowest, ?_⟩
  rw [h.receive_eq, receiveOn, h.ended]
  simp only [hread, List.isEmpty_cons, Bool.false_eq_true, if_false]

theorem Addressed.receive_unhandled (h : conn.Addressed message id path endpoint dec)
    (hstops : conn.Stops env .unit dec path.keys before values key below (.ok none after))
    (hnone : endpoint.onMissing = none) : conn.receive env message
      = ⟨.ok (.missingKeys id path.dotted (conn.missingKeys (key :: below))), conn, []⟩ := by
  obtain ⟨lowest, hreceive⟩ := h.receive_absent hstops
  rw [hreceive, reportMissing, hnone]
  rfl

theorem Addressed.receive_handled (h : conn.Addressed message id path endpoint dec)
    (hstops : conn.Stops env .unit dec path.keys before values key below (.ok none after))
    {handler : MissingHandler A} (hhandler : endpoint.onMissing = some handler) :
    conn.receive env message = conn.reported id path (conn.missingKeys (key :: below))
      (handler env (conn.missingKeys (key :: below)) (conn.readContext id path values)
        conn.caches) := by
  obtain ⟨lowest, hreceive⟩ := h.receive_absent hstops
  rw [hreceive, reportMissing, hhandler]
  rfl

/-- If a key cannot be read then nothing runs. -/
theorem Addressed.receive_failed (h : conn.Addressed message id path endpoint dec)
    {cause : ProtocolError}
    (hstops : conn.Stops env .unit dec path.keys before values key below (.error cause after)) :
    conn.receive env message = ⟨.error cause, conn, []⟩ := by
  rw [h.receive_eq, receiveOn, h.ended]
  simp only [hstops.readKeys_error]
  rfl

/-- **If all keys have values then the decoder is all that runs**, once, on the last of them. -/
theorem Addressed.receive_read (h : conn.Addressed message id path endpoint dec)
    {value : endpoint.type.El}
    (hreads : conn.Reads env .unit dec path.keys values ⟨endpoint.type, value⟩ after) :
    conn.receive env message = conn.concluded id path
      (endpoint.decode env value (conn.readContext id path values) ⟨after, conn.caches, []⟩) := by
  obtain ⟨tag, htag, rfl⟩ := h.tagged
  let arrival : Arrival conn env message := ⟨tag, dec, path, endpoint, _, after, value, htag,
    h.ordinary, h.bound, h.ended, hreads.readKeys, rfl, Value.as_eq.mpr rfl⟩
  rw [arrival.receive_eq]
  rfl

end Addressed

/-! Messages that differ behind the first key without a value -/

/-- Two connections of which the same can be told of a path, whatever their callbacks do. -/
structure Alike (conn other : Connection A) (path : ResolvedPath) : Prop where
  caches : other.caches = conn.caches
  attachment : other.attachment = conn.attachment
  dotted : other.tree.dotted path.path = conn.tree.dotted path.path
  keys : path.keys.map other.tree.routeKey = path.keys.map conn.tree.routeKey
  names : path.keys.map other.tree.name = path.keys.map conn.tree.name

theorem Alike.readContext {other : Connection A} {path : ResolvedPath}
    (h : conn.Alike other path) (id : Nat) (values : List (Value A)) :
    other.readContext id path values = conn.readContext id path values := by
  rw [Connection.readContext, h.dotted, h.keys, h.attachment]
  rfl

theorem Alike.missingKeys {other : Connection A} {path : ResolvedPath}
    (h : conn.Alike other path) {before missing : List NodeIndex}
    (hkeys : path.keys = before ++ missing) :
    other.missingKeys missing = conn.missingKeys missing := by
  have hnames := h.names
  rw [hkeys, List.map_append, List.map_append] at hnames
  have hmissing := (List.append_inj hnames (by simp)).2
  rw [Connection.missingKeys, hmissing]
  rfl

/-- **What lies behind a key without a value does not count**: neither the keys further down, nor
the rest of the message, nor the decoder. -/
theorem Addressed.receive_unread {other : Connection A} {env : A.Env}
    {message otherMessage : Bytes} {id : Nat} {path : ResolvedPath}
    {endpoint otherEndpoint : EndpointDef A} {dec after otherDec otherAfter : Decoder}
    {before below : List NodeIndex} {values : List (Value A)} {key : NodeIndex}
    (h : conn.Addressed message id path endpoint dec)
    (hstops : conn.Stops env .unit dec path.keys before values key below (.ok none after))
    (halike : conn.Alike other path) (hhandler : otherEndpoint.onMissing = endpoint.onMissing)
    (hother : other.Addressed otherMessage id path otherEndpoint otherDec)
    (hothers : other.Stops env .unit otherDec path.keys before values key below
      (.ok none otherAfter)) :
    (other.receive env otherMessage).outcome = (conn.receive env message).outcome ∧
      (other.receive env otherMessage).events = (conn.receive env message).events := by
  have hmissing := halike.missingKeys hstops.split
  cases hown : endpoint.onMissing with
  | none =>
      rw [h.receive_unhandled hstops hown, hother.receive_unhandled hothers (hhandler.trans hown),
        hmissing]
      exact ⟨rfl, rfl⟩
  | some handler =>
      rw [h.receive_handled hstops hown, hother.receive_handled hothers (hhandler.trans hown),
        hmissing, halike.readContext, halike.caches]
      exact ⟨rfl, rfl⟩

/-- What becomes of a message on a bound path. -/
structure Dispatches (conn : Connection A) (env : A.Env) (message : Bytes) (id : Nat)
    (path : ResolvedPath) (endpoint : EndpointDef A) (dec : Decoder) : Prop where
  /-- The keys are the nodes of the path that carry a value. -/
  keys : ResolvedPath.carriers conn.tree path.path = .ok path.keys
  /-- A first key without a value, and no handler: nothing runs. -/
  unhandled : ∀ {before values key below after},
    conn.Stops env .unit dec path.keys before values key below (.ok none after) →
    endpoint.onMissing = none → conn.receive env message
      = ⟨.ok (.missingKeys id path.dotted (conn.missingKeys (key :: below))), conn, []⟩
  /-- With a handler: it runs once, is told of the key and all below it, and sees the values of
  those above. -/
  handled : ∀ {before values key below after},
    conn.Stops env .unit dec path.keys before values key below (.ok none after) →
    ∀ {handler}, endpoint.onMissing = some handler →
    (conn.readContext id path values).Holds before (key :: below) values ∧
    conn.receive env message = conn.reported id path (conn.missingKeys (key :: below))
      (handler env (conn.missingKeys (key :: below)) (conn.readContext id path values)
        conn.caches)
  /-- Either way it is the same whatever the keys further down, the rest of the message and the
  decoder are. -/
  unread : ∀ {before values key below after},
    conn.Stops env .unit dec path.keys before values key below (.ok none after) →
    ∀ {other : Connection A} {otherMessage otherEndpoint otherDec otherAfter},
    conn.Alike other path → otherEndpoint.onMissing = endpoint.onMissing →
    other.Addressed otherMessage id path otherEndpoint otherDec →
    other.Stops env .unit otherDec path.keys before values key below (.ok none otherAfter) →
    (other.receive env otherMessage).outcome = (conn.receive env message).outcome ∧
      (other.receive env otherMessage).events = (conn.receive env message).events
  /-- A key that cannot be read: nothing runs. -/
  failed : ∀ {before values key below cause after},
    conn.Stops env .unit dec path.keys before values key below (.error cause after) →
    conn.receive env message = ⟨.error cause, conn, []⟩
  /-- All keys have values: the decoder runs once, on the last of them. -/
  decoded : ∀ {values lowest after}, conn.Reads env .unit dec path.keys values lowest after →
    values.length = path.keys.length ∧ lowest = values.getLast?.getD .unit ∧
    ∃ value : endpoint.type.El, lowest = ⟨endpoint.type, value⟩ ∧
      conn.receive env message = conn.concluded id path
        (endpoint.decode env value (conn.readContext id path values) ⟨after, conn.caches, []⟩)
  /-- There is no other way. -/
  total : (∃ before values key below after,
      conn.Stops env .unit dec path.keys before values key below (.ok none after)) ∨
    (∃ before values key below cause after,
      conn.Stops env .unit dec path.keys before values key below (.error cause after)) ∨
    ∃ values lowest after, conn.Reads env .unit dec path.keys values lowest after

/-! ### All traffic -/

/-- A connection on which ids are bound to paths of the tree only. -/
structure Charted (tree : Tree A) (conn : Connection A) : Prop where
  same : conn.tree = tree
  paths : ∀ {id : Nat} {resolved : ResolvedPath}, conn.ids.bound? id = some resolved →
    tree.Passable resolved.path ∧ ResolvedPath.ofNodes tree resolved.path = .ok resolved

theorem charted_new (tree : Tree A) (label : String) (attachment : Option (Value A)) :
    (new tree label attachment).Charted tree where
  same := rfl
  paths h := by cases h

theorem Charted.meet {tree : Tree A} (h : conn.Charted tree) (hroot : tree.isEndpoint .root = false)
    (happening : Happening A) : (conn.meet happening).Charted tree := by
  cases happening with
  | receive env message =>
      show (conn.receive env message).conn.Charted tree
      by_cases hannounce : messageTag? message = some announceTag
      · rcases conn.receive_binds env hannounce with
          hsame | ⟨id, names, resolved, hnames, -, -, -, hconn⟩
        · rwa [hsame]
        · rw [h.same] at hnames
          rw [hconn]
          exact ⟨h.same, fun hbound => IdTables.forall_bound_bind h.paths
            (ResolvedPath.ofNames_ok hroot hnames).1 id hbound⟩
      · obtain ⟨caches, hconn⟩ := conn.receive_ordinary env hannounce
        rw [hconn]
        exact ⟨h.same, h.paths⟩
  | act action =>
      show (action.perform conn).Charted tree
      obtain ⟨outgoing, nextFreeId, outbox, stored, hconn, -⟩ := action.frame conn
      rw [hconn]
      exact ⟨h.same, h.paths⟩
  | drain => exact ⟨h.same, h.paths⟩

theorem Charted.live {tree : Tree A} (hroot : tree.isEndpoint .root = false)
    (happenings : List (Happening A)) :
    ∀ {conn : Connection A}, conn.Charted tree → (conn.live happenings).Charted tree := by
  induction happenings with
  | nil => exact fun h => h
  | cons happening rest ih => exact fun h => ih (h.meet hroot happening)

section Tree

variable {revision : Revision} {builder : TreeBuilder A} {handles : List (Handle A)}
  (hbuilt : Built revision (fun handles call => call.Honest handles) builder handles)
  (h : conn.Charted builder.build) {message : Bytes} {id : Nat} {path : ResolvedPath}
  {dec : Decoder}

include h

/-- A bound path ends at an endpoint. -/
theorem Charted.addressed {tag : UInt32} (htag : Reader.u32 (.ofBytes message) = .ok tag dec)
    (hordinary : tag.toNat ≠ announceTag) (hbound : conn.ids.lookup tag.toNat = .ok path) :
    ∃ endpoint, conn.Addressed message tag.toNat path endpoint dec := by
  obtain ⟨hpassable, -⟩ := h.paths (IdTables.bound?_of_lookup hbound)
  obtain ⟨index, hlast, hends⟩ := hpassable.ends
  obtain ⟨endpoint, hendpoint⟩ := Option.isSome_iff_exists.mp hends
  obtain ⟨node, hnode, hendpoint⟩ := Option.bind_eq_some_iff.mp hendpoint
  refine ⟨endpoint, ⟨tag, htag, rfl⟩, hordinary, hbound, ?_⟩
  rw [h.same, endpointOf]
  simp only [hlast]
  rw [Result.bind_ok (Tree.node_of_node? hnode)]
  simp only [hendpoint]
  rfl

include hbuilt

theorem Charted.dispatches {endpoint : EndpointDef A}
    (haddressed : conn.Addressed message id path endpoint dec) (env : A.Env) :
    conn.Dispatches env message id path endpoint dec := by
  obtain ⟨hpassable, hresolved⟩ := h.paths (IdTables.bound?_of_lookup haddressed.bound)
  obtain ⟨keys, hkeys, hresolved⟩ := Result.of_bind_ok hresolved
  obtain rfl : path.keys = keys := by rw [← Except.ok.inj hresolved]
  constructor
  case keys => rwa [h.same]
  case unhandled => exact fun hstops hnone => haddressed.receive_unhandled hstops hnone
  case handled =>
    intro before values key below after hstops handler hhandler
    exact ⟨holds_readContext id hstops.split hstops.length,
      haddressed.receive_handled hstops hhandler⟩
  case unread => exact fun hstops => haddressed.receive_unread hstops
  case failed => exact fun hstops => haddressed.receive_failed hstops
  case decoded =>
    intro values lowest after hreads
    obtain ⟨root, hroot, hkind⟩ := hbuilt.rooted
    obtain ⟨index, node, hlast, hnode, hendpoint⟩ := endpointOf_ok haddressed.ended
    have hsuits := hreads.suits hbuilt h.same path.path hpassable.descends hkeys
      (hbuilt.typed.suits_root hroot hkind)
    rw [hlast, Option.getD_some] at hsuits
    rw [h.same] at hnode
    refine ⟨hreads.length, hreads.lowest, ?_⟩
    obtain ⟨type, data⟩ := lowest
    obtain rfl : endpoint.type = type := hsuits.taken hnode hendpoint
    exact ⟨data, rfl, haddressed.receive_read hreads⟩
  case total =>
    have hcarry : Carry conn.tree path.keys := by
      rw [h.same]
      exact ResolvedPath.carry_of_carriers path.path hkeys
    exact stops_or_reads env path.keys hcarry

omit h

/-- **What becomes of a message is decided by the first key without a value.**  On every path that
is bound, after any traffic, keys are read from the top down, each below the value before it.  If
one has no value then the handler for missing keys is all that runs, if there is one; it is told of
this key and of all below it, and sees the values of those above.  If one cannot be read then
nothing runs, and if all have values then the decoder is all that runs. -/
theorem receive_dispatches (label : String) (attachment : Option (Value A))
    (happenings : List (Happening A)) {tag : UInt32}
    (htag : Reader.u32 (.ofBytes message) = .ok tag dec) (hordinary : tag.toNat ≠ announceTag)
    (hbound : ((new builder.build label attachment).live happenings).ids.lookup tag.toNat
      = .ok path) (env : A.Env) :
    ∃ endpoint, ((new builder.build label attachment).live happenings).Addressed message tag.toNat
        path endpoint dec ∧
      ((new builder.build label attachment).live happenings).Dispatches env message tag.toNat path
        endpoint dec := by
  obtain ⟨root, hroot, hkind⟩ := hbuilt.rooted
  have hinner : builder.build.isEndpoint .root = false := by
    have hnode : builder.build.node? .root = some root := hroot
    simp [Tree.isEndpoint, hnode, hkind, NodeKind.endpoint?]
  have hcharted := (charted_new builder.build label attachment).live hinner happenings
  obtain ⟨endpoint, haddressed⟩ := hcharted.addressed htag hordinary hbound
  exact ⟨endpoint, haddressed, hcharted.dispatches hbuilt haddressed env⟩

end Tree

end Connection

/-! The house, and someone who watches for rooms without a half. -/

namespace House

/-- The nodes without a value are reported. -/
def watch : MissingHandler house := fun _ missing _ _ =>
  ⟨missing.keys.map NodeIndex.position, .ok ()⟩

def declareWatch : BuilderCall house := .onMissing switch watch

/-- The house with a watch. -/
def watched : TreeBuilder house := Step.final (declareWatch.run builder)

theorem watched_built :
    Built .zero (fun handles call => call.Honest handles) watched handles := by
  have hrun : declareWatch.run builder = .ok [] watched := rfl
  have hhonest : declareWatch.Honest handles := by
    simp [BuilderCall.Honest, BuilderCall.uses, declareWatch, switch, handles]
  have hbuilt := Built.answered declareWatch built hhonest hrun
  rwa [List.append_nil] at hbuilt

/-- The other side, once the path of the switches is announced. -/
def watcher : Connection house :=
  (Connection.new watched.build "b" none).live (knocks.take 1)

/-- The path of the switches. -/
def switchPath : ResolvedPath where
  path := [⟨1⟩, ⟨2⟩, ⟨4⟩, ⟨5⟩]
  keys := [⟨1⟩, ⟨2⟩, ⟨4⟩]
  length := .dynamic
  dotted := "room.half.place.switch"

/-- A message for a room with an odd number has no half and no place, so that only the watch hears
of it.  The byte behind the room and the switch is not looked at. -/
theorem odd_room_watched :
    watcher.receive () [0, 0, 0, 3, 96, 9]
      = ⟨.ok (.missingKeys 3 "room.half.place.switch" ⟨[⟨2⟩, ⟨4⟩], ["half", "place"]⟩), watcher,
        [(2 : Nat), (4 : Nat)]⟩ := by
  have htag : Reader.u32 (.ofBytes [0, 0, 0, 3, 96, 9]) = .ok 3 (.ofBytes [96, 9]) := rfl
  have hbound : watcher.ids.lookup (3 : UInt32).toNat = .ok switchPath := by decide +kernel
  obtain ⟨endpoint, haddressed, hdispatches⟩ := Connection.receive_dispatches watched_built "b" none
    (knocks.take 1) htag (by decide) hbound ()
  have hended : Connection.endpointOf watcher.tree 3 switchPath
      = .ok ⟨number, decodeSwitch, some watch⟩ := rfl
  cases hended.symm.trans haddressed.ended
  have hroom : watcher.Asks () ⟨1⟩ .unit (.ofBytes [96, 9])
      (.ok (some ⟨number, (3 : Nat)⟩) ⟨[9], List.replicate 5 false, none⟩) := ⟨_, _, rfl, rfl, rfl⟩
  have hhalf : watcher.Asks () ⟨2⟩ ⟨number, (3 : Nat)⟩ ⟨[9], List.replicate 5 false, none⟩
      (.ok none ⟨[9], List.replicate 5 false, none⟩) := ⟨_, _, rfl, rfl, rfl⟩
  have hstops : watcher.Stops () .unit (.ofBytes [96, 9]) switchPath.keys [⟨1⟩]
      [⟨number, (3 : Nat)⟩] ⟨2⟩ [⟨4⟩] (.ok none ⟨[9], List.replicate 5 false, none⟩) :=
    ⟨rfl, _, _, .key hroom .done, hhalf⟩
  exact (hdispatches.handled hstops rfl).2

end House

end PathWire

/-
A letter arrives as it was sent.

A letter is a send that succeeded.  Its bytes are an id, the carriers of its path and a payload, and
once the path is bound the peer reads them back in this order: it comes to the endpoint that the
letter was sent to, with the value that it was sent with and with the context that the letter's
writer saw, and it finds the payload as it was written and nothing behind it.
-/
import PathWire.Proofs.Peer.Faithful
import PathWire.Proofs.Peer.Send

namespace PathWire

variable {A : Application}

/-- A send that succeeded, and what the peer's callbacks can look up when it comes through. -/
structure Letter (A : Application) : Type 1 where
  {Answer : Type}
  {type : ContextType A}
  env : A.Env
  endpoint : EndpointRef type
  value : type.El
  chosen : Option (LinkChoice A)
  priority : Priority
  payload : Payload A Answer
  answer : Answer
  before : Connection A
  after : Connection A
  sent : Connection.Departure before env endpoint.index ⟨type, value⟩ chosen priority payload
    answer after
  peerEnv : A.Env

/-- A send that succeeded, as a letter. -/
noncomputable def Letter.ofSend {α : Type} {type : ContextType A} {conn after : Connection A}
    {env : A.Env} {endpoint : EndpointRef type} {value : type.El} {chosen : Option (LinkChoice A)}
    {priority : Priority} {payload : Payload A α} {answer : α}
    (h : conn.sendValue env endpoint.index ⟨type, value⟩ chosen priority payload
      = .ok (answer, after)) (peerEnv : A.Env) : Letter A :=
  { env, endpoint, value, chosen, priority, payload, answer, before := conn, after, peerEnv
    sent := (Connection.sendValue_ok h).some }

/-- What the writer of a letter's payload saw. -/
def Letter.context (letter : Letter A) : MessageContext A :=
  letter.before.writeContext letter.sent.id letter.sent.route

/-- What is asked of the application for one letter: its endpoint was declared, the nodes on its
way are faithful, and its payload is written with the codec. -/
structure Letter.Faithful (tree : Tree A) (handles : List (Handle A))
    (attached : Option (Value A)) (letter : Letter A) : Prop where
  declared : .endpoint letter.type letter.endpoint.index ∈ handles
  nodes : ∀ index value,
    Route.Passes tree letter.env letter.chosen letter.sent.route index value →
      Route.FaithfulAt tree letter.env letter.peerEnv attached letter.chosen index value
  payload : letter.sent.keyed.Extends letter.sent.written

/-! ### How a letter arrives -/

/-- A decoder that reads fields one by one and, given their values, goes on with `handle`, which
reads no more. -/
structure Callback.Takes (decode : Callback A Unit) (reads : List FieldRead)
    (values : List FieldValue) (handle : Callback A Unit) : Prop where
  reads : ∀ dec rest caches events, Reader.fields reads dec = .ok values rest →
    decode ⟨dec, caches, events⟩ = handle ⟨rest, caches, events⟩
  stays : ∀ before after, handle before = .ok () after → after.decoder = before.decoder

namespace Connection

/-- What a message has come to when the endpoint's handler is done. -/
def conclude (conn : Connection A) (id : Nat) (path : String) :
    EStateM.Result ProtocolError (Decoding A) Unit → Received A
  | .ok () state => ⟨.ok (.dispatched id path), { conn with caches := state.caches }, state.events⟩
  | .error cause state => ⟨.error cause, { conn with caches := state.caches }, state.events⟩

/-- A letter arrives as it was sent. -/
structure Arrival.Opens {peer : Connection A} {message : Bytes} (letter : Letter A)
    (arrival : Arrival peer letter.peerEnv message) : Prop where
  /-- At the endpoint that it was sent to. -/
  addressed : ∃ node, peer.tree.node? letter.endpoint.index = some node ∧
    node.kind.endpoint? = some arrival.endpoint
  /-- With the value that it was sent with. -/
  value : (⟨arrival.endpoint.type, arrival.value⟩ : Value A) = ⟨letter.type, letter.value⟩
  /-- In the context that its writer saw, but for the direction and the attachment. -/
  context : arrival.context =
    { letter.context with direction := .read, attachment := peer.attachment }
  /-- Every node has the value that it had there. -/
  get : ∀ {type : ContextType A} (node : Parent type),
    arrival.context.get node = letter.context.get node
  /-- Reads that match the payload's writes give their values and leave nothing, so a decoder made
  of them is not refused for what it leaves. -/
  payload : ∀ {fields reads values}, letter.sent.written = letter.sent.keyed.writeAll fields →
    MatchAll (letter.sent.keyed.accepted fields) reads values →
    ∃ rest, Reader.fields reads arrival.payload = .ok values rest ∧ rest.remaining = 0 ∧
      ∀ handle, Callback.Takes
        (arrival.endpoint.decode letter.peerEnv arrival.value arrival.context) reads values handle →
        peer.receive letter.peerEnv message = peer.conclude letter.context.id letter.context.path
          (handle ⟨rest, peer.caches, []⟩)

end Connection

/-! ### One letter -/

namespace Connection

variable {α : Type} {conn after : Connection A} {env : A.Env} {endpoint : NodeIndex}
  {value : Value A} {chosen : Option (LinkChoice A)} {priority : Priority}
  {payload : Payload A α} {answer : α}

/-- The endpoint of a message is found at the end of its path. -/
theorem Departure.endpointOf_ok
    (sent : Departure conn env endpoint value chosen priority payload answer after)
    {node : Node A} {found : EndpointDef A} (hnode : conn.tree.node? endpoint = some node)
    (hendpoint : node.kind.endpoint? = some found) {id : Nat} {path : ResolvedPath}
    (hpath : path.path = sent.route.nodes) : endpointOf conn.tree id path = .ok found := by
  obtain ⟨hclimbs, -⟩ := Route.climb_ok _ sent.resolved
  have hlast := hclimbs.getLast? sent.addressed
  unfold endpointOf
  simp only [hpath, hlast]
  rw [Result.bind_ok (Tree.node_of_node? hnode)]
  simp only [hendpoint]
  rfl

/-- The bytes of a message are read as they were written: its id, its carriers and its payload. -/
theorem Departure.steps {peerEnv : A.Env} {lowest : Value A} {attached : Option (Value A)}
    (sent : Departure conn env endpoint value chosen priority payload answer after)
    (hreads : Route.ReadsBack conn.tree env peerEnv attached lowest .unit sent.route)
    {fields : List FieldWrite} {reads : List FieldRead} {values : List FieldValue}
    (hwritten : sent.written = sent.keyed.writeAll fields)
    (hmatch : MatchAll (sent.keyed.accepted fields) reads values) :
    ∃ behindTag behindKeys rest,
      Reader.u32 (.ofBytes sent.written.bytes) = .ok (UInt32.ofNat sent.id) behindTag ∧
      readKeys conn.tree peerEnv attached .unit sent.route.keys behindTag
        = .ok ⟨sent.route.values, lowest, []⟩ behindKeys ∧
      Reader.fields reads behindKeys = .ok values rest ∧ rest.remaining = 0 := by
  obtain ⟨hshortTag, hbeforeTag⟩ := mirrors_u32 .empty (UInt32.ofNat sent.id) Encoder.short_empty
  obtain ⟨hshortKeys, hbeforeKeys⟩ := hreads _ _ sent.carried hshortTag
  obtain ⟨hshort, hbeforeFields⟩ := mirrors_writeAll fields sent.keyed hmatch hshortKeys
  rw [← hwritten] at hshort hbeforeFields
  obtain ⟨rolling, hend⟩ := Encoder.ahead_bytes hshort
  obtain ⟨_, _, hplace, hstepFields⟩ := hbeforeFields hend
  obtain ⟨_, _, hplace, hstepKeys⟩ := hbeforeKeys hplace
  obtain ⟨_, _, hplace, hstepTag⟩ := hbeforeTag hplace
  obtain ⟨rfl, rfl⟩ := Encoder.ahead_empty hplace
  exact ⟨_, _, _, hstepTag, hstepKeys, hstepFields, rfl⟩

end Connection

namespace Letter

variable {builder : TreeBuilder A} {handles : List (Handle A)} {attached : Option (Value A)}
  {letter : Letter A}

/-- The peer finds the values of a faithful letter. -/
theorem Faithful.readsBack (hfaithful : letter.Faithful builder.build handles attached)
    (hshaped : builder.build.Shaped) (htyped : builder.Typed handles)
    (htree : letter.before.tree = builder.build) :
    Route.ReadsBack letter.before.tree letter.env letter.peerEnv attached
      ⟨letter.type, letter.value⟩ .unit letter.sent.route := by
  obtain ⟨node, endpoint, hnode, hendpoint, htype⟩ := htyped.pointed hfaithful.declared
  obtain ⟨hclimbs, -⟩ := Route.climb_ok _ letter.sent.resolved
  rw [htree] at hclimbs ⊢
  exact hclimbs.readsBack hshaped htyped hfaithful.nodes
    ⟨node, hnode, .inr ⟨endpoint, hendpoint, htype⟩⟩ (Route.readsBack_empty _)

/-- **A faithful letter arrives as it was sent**, once its path is bound. -/
theorem Faithful.opens (hfaithful : letter.Faithful builder.build handles attached)
    (hshaped : builder.build.Shaped) (htyped : builder.Typed handles)
    (htree : letter.before.tree = builder.build) {peer : Connection A}
    (hpeer : peer.tree = builder.build) (hattached : peer.attachment = attached)
    (hid : (UInt32.ofNat letter.sent.id).toNat = letter.sent.id)
    (hordinary : letter.sent.id ≠ announceTag) {path : ResolvedPath}
    (hlookup : peer.ids.lookup letter.sent.id = .ok path)
    (hpath : path.path = letter.sent.route.nodes) (hkeys : path.keys = letter.sent.route.keys)
    (hdotted : path.dotted = builder.build.dotted letter.sent.route.nodes) :
    ∃ arrival : Connection.Arrival peer letter.peerEnv letter.sent.written.bytes,
      arrival.Opens letter := by
  have hsame : peer.tree = letter.before.tree := hpeer.trans htree.symm
  have hreads := hfaithful.readsBack hshaped htyped htree
  obtain ⟨node, endpoint, hnode, hendpoint, htype⟩ := htyped.pointed hfaithful.declared
  have hnode : builder.build.node? letter.endpoint.index = some node := hnode
  obtain ⟨data, hdata⟩ : ∃ data : endpoint.type.El,
      (⟨endpoint.type, data⟩ : Value A) = ⟨letter.type, letter.value⟩ := by
    rw [htype]
    exact ⟨letter.value, rfl⟩
  have haddressed : Connection.endpointOf peer.tree letter.sent.id path = .ok endpoint := by
    rw [hsame]
    exact letter.sent.endpointOf_ok (htree.symm ▸ hnode) hendpoint hpath
  obtain ⟨fields, hwritten⟩ := hfaithful.payload
  obtain ⟨reads, values, hmatch⟩ := exists_matchAll (letter.sent.keyed.accepted fields)
  obtain ⟨behindTag, behindKeys, _, htagged, hcarried, -, -⟩ :=
    letter.sent.steps hreads hwritten hmatch
  let arrival : Connection.Arrival peer letter.peerEnv letter.sent.written.bytes :=
    { tag := UInt32.ofNat letter.sent.id
      behindTag
      path
      endpoint
      read := ⟨letter.sent.route.values, ⟨letter.type, letter.value⟩, []⟩
      payload := behindKeys
      value := data
      tagged := htagged
      ordinary := by rwa [hid]
      bound := by rwa [hid]
      addressed := by rwa [hid]
      carried := by rwa [hsame, hattached, hkeys]
      complete := rfl
      typed := Value.as_eq.mpr hdata.symm }
  have hcontext : arrival.context =
      { letter.context with direction := .read, attachment := peer.attachment } := by
    simp only [arrival, Connection.Arrival.context, Connection.readContext, Letter.context,
      Connection.writeContext, hid, hsame, hpath, hkeys]
  refine ⟨arrival, ?_, hdata, hcontext, ?_, ?_⟩
  · rw [hpeer]
    exact ⟨node, hnode, hendpoint⟩
  · intro type handle
    rw [hcontext]
    rfl
  · intro fields reads values hwritten hmatch
    obtain ⟨behindTag', behindKeys', rest, htagged', hcarried', hfields, hrest⟩ :=
      letter.sent.steps hreads hwritten hmatch
    cases htagged.symm.trans htagged'
    cases hcarried.symm.trans hcarried'
    refine ⟨rest, hfields, hrest, ?_⟩
    intro handle htakes
    have hdecoded : arrival.decoded = handle ⟨rest, peer.caches, []⟩ :=
      htakes.reads _ _ _ _ hfields
    cases hresult : handle ⟨rest, peer.caches, []⟩ with
    | error cause state => exact arrival.receive_error (hdecoded.trans hresult)
    | ok answer state =>
        rw [arrival.receive_ok (hdecoded.trans hresult), htakes.stays _ _ hresult, if_pos hrest]
        simp only [arrival, Connection.conclude, hid, hdotted, Letter.context,
          Connection.writeContext, htree]

end Letter

end PathWire

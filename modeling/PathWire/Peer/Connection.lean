/-
One side of a link between two peers.

A connection owns its id tables, its caches and the queue of encoded messages that wait
to be sent.  The first message on a path is preceded by an announce that binds the path
to an id; every message starts with that id, and the carriers' bytes and the payload
follow.  A send that fails changes nothing.
-/
import PathWire.Peer.IdTables
import PathWire.Peer.Route

namespace PathWire

variable {A : Application}

/-- When a message leaves the queue. -/
inductive Priority where
  /-- With the next flush. -/
  | normal
  /-- At once, with everything queued before it. -/
  | urgent
  deriving DecidableEq, Repr

/-- The priority's name. -/
def Priority.name : Priority → String
  | normal => "normal"
  | urgent => "urgent"

/-- An encoded message that waits to be sent. -/
structure Outbound where
  bytes : Bytes
  priority : Priority
  deriving DecidableEq, Repr

/-- What a message that decoded cleanly did. -/
inductive Delivery where
  /-- An announce bound `id` to `path`. -/
  | registered (id : Nat) (path : String)
  /-- The endpoint handled the message. -/
  | dispatched (id : Nat) (path : String)
  /-- A carrier had no value, and the missing-keys handler ran instead. -/
  | missingKeys (id : Nat) (path : String) (missing : MissingKeys)
  deriving DecidableEq, Repr

/-- One side of a link between two peers. -/
structure Connection (A : Application) where
  tree : Tree A
  label : String
  ids : IdTables
  caches : CacheStore A
  attachment : Option (Value A)
  /-- Oldest first. -/
  outbox : List Outbound

namespace Connection

/-- A connection on which nothing was sent or received. -/
def new (tree : Tree A) (label : String) (attachment : Option (Value A)) : Connection A :=
  { tree, label, attachment
    ids := .new tree.revision.maxIncomingId.toNat
    caches := .empty
    outbox := [] }

/-- Whether messages wait to be sent. -/
def hasOutbound (conn : Connection A) : Bool := !conn.outbox.isEmpty

/-- Takes every queued message. -/
def drain (conn : Connection A) : List Outbound × Connection A :=
  (conn.outbox, { conn with outbox := [] })

end Connection

/-! ### Sending -/

/-- Writes a message's payload, and says something to the sender. -/
abbrev Payload (A : Application) (α : Type) :=
  MessageContext A → CacheStore A → Encoder → Except ProtocolError (α × Encoder)

/-- The payload of a message without one. -/
def Payload.nothing : Payload A Unit := fun _ _ enc => .ok ((), enc)

namespace Connection

/-- Writes a path's names. -/
def writeNames (tree : Tree A) : List NodeIndex → Encoder → Except ProtocolError Encoder
  | [], enc => .ok enc
  | index :: rest, enc => do
    let enc ← liftCodec (enc.writeStr (tree.name index) tree.revision.maxNameBytes)
    writeNames tree rest enc

/-- The message that binds a path to an id. -/
def announce (tree : Tree A) (id : Nat) (nodes : List NodeIndex) : Except ProtocolError Bytes := do
  let enc := Encoder.empty.writeU32 (UInt32.ofNat announceTag)
  let enc := enc.writeVarU32 (UInt32.ofNat id)
  let enc := enc.writeVarU32 (UInt32.ofNat nodes.length)
  return (← writeNames tree nodes enc).bytes

/-- Writes the carriers' values from the top down. -/
def writeKeys (tree : Tree A) (env : A.Env) :
    List (NodeIndex × Value A) → Encoder → Except ProtocolError Encoder
  | [], enc => .ok enc
  | (index, value) :: rest, enc => do
    let node ← tree.node index
    match node.kind.carrier? with
    | some carrier => writeKeys tree env rest (← carrier.write env value enc)
    | none => writeKeys tree env rest enc

/-- The id of a path: the one it has, or the next free one. -/
def idFor (ids : IdTables) (path : Path) : Except ProtocolError Nat :=
  match ids.outgoing? path with
  | some id => .ok id
  | none => ids.peekNext

/-- What the payload of a message on `route` sees. -/
def writeContext (conn : Connection A) (id : Nat) (route : Route A) : MessageContext A where
  direction := .write
  id := id
  path := conn.tree.dotted route.nodes
  nodes := route.nodes
  keys := route.keys.map conn.tree.routeKey
  values := route.values
  attachment := conn.attachment

/-- Queues an encoded message. -/
def enqueue (conn : Connection A) (bytes : Bytes) (priority : Priority) : Connection A :=
  { conn with outbox := conn.outbox ++ [⟨bytes, priority⟩] }

/-- Binds a path that has no id yet, and queues the announce that tells the peer. -/
def introduce (conn : Connection A) (id : Nat) (path : Path) (priority : Priority) :
    Except ProtocolError (Connection A) := do
  match conn.ids.outgoing? path with
  | some _ => return conn
  | none =>
    let bytes ← announce conn.tree id path
    return { conn with ids := conn.ids.commit path id }.enqueue bytes priority

/-- Sends a message with a value to the endpoint at an index. -/
def sendValue {α : Type} (conn : Connection A) (env : A.Env) (endpoint : NodeIndex)
    (value : Value A) (chosen : Option (LinkChoice A)) (priority : Priority)
    (payload : Payload A α) : Except ProtocolError (α × Connection A) := do
  if !conn.tree.isEndpoint endpoint then throw (.notAnEndpoint (conn.tree.name endpoint))
  let route ← Route.resolve conn.tree env endpoint value chosen
  let id ← idFor conn.ids route.nodes
  let enc := Encoder.empty.writeU32 (UInt32.ofNat id)
  let enc ← writeKeys conn.tree env (route.keys.zip route.values) enc
  let (answer, enc) ← payload (conn.writeContext id route) conn.caches enc
  let conn ← conn.introduce id route.nodes priority
  return (answer, conn.enqueue enc.bytes priority)

/-- Sends a message; Dynamic nodes on the way are resolved by their resolvers. -/
def send {α : Type} {type : ContextType A} (conn : Connection A) (env : A.Env)
    (endpoint : EndpointRef type) (value : type.El) (priority : Priority)
    (payload : Payload A α) : Except ProtocolError (α × Connection A) :=
  conn.sendValue env endpoint.index ⟨type, value⟩ none priority payload

/-- Sends a message through the owner that `link` names for the Dynamic node it targets. -/
def sendLinked {α : Type} {type child : ContextType A} (conn : Connection A) (env : A.Env)
    (endpoint : EndpointRef type) (value : type.El) (link : DynamicLink child)
    (priority : Priority) (payload : Payload A α) : Except ProtocolError (α × Connection A) :=
  conn.sendValue env endpoint.index ⟨type, value⟩ (some link.choice) priority payload

/-- Sends a message without payload. -/
def signal {type : ContextType A} (conn : Connection A) (env : A.Env)
    (endpoint : EndpointRef type) (value : type.El) :
    Except ProtocolError (Unit × Connection A) :=
  conn.send env endpoint value .normal .nothing

/-! ### Receiving -/

/-- What receiving one message did. -/
structure Received (A : Application) where
  outcome : Except ProtocolError Delivery
  conn : Connection A
  /-- What the application's callbacks reported. -/
  events : List A.Event

/-- The keys read from a message: either all have a value, or those from `absent` on have
none. -/
structure ReadKeys (A : Application) where
  /-- The values read, top-down. -/
  values : List (Value A)
  /-- The lowest value read, the unit value if there is none. -/
  lowest : Value A
  /-- The carriers without a value. -/
  absent : List NodeIndex

/-- Reads the values of carriers from the top down, each below the one before, up to the first
that has none. -/
def readKeys (tree : Tree A) (env : A.Env) (attached : Option (Value A)) (above : Value A) :
    List NodeIndex → MessageReader (ReadKeys A)
  | [] => return ⟨[], above, []⟩
  | index :: rest => do
    let node ← Carrier.expecting (tree.node index)
    match node.kind.carrier? with
    | none => readKeys tree env attached above rest
    | some carrier =>
      match ← carrier.read env above attached with
      | some value =>
        let below ← readKeys tree env attached value rest
        return { below with values := value :: below.values }
      | none => return ⟨[], above, index :: rest⟩

/-- What the callbacks see of a received message. -/
def readContext (conn : Connection A) (id : Nat) (path : ResolvedPath)
    (values : List (Value A)) : MessageContext A where
  direction := .read
  id := id
  path := conn.tree.dotted path.path
  nodes := path.path
  keys := path.keys.map conn.tree.routeKey
  values := values
  attachment := conn.attachment

/-- The result of a message that changed nothing. -/
def refused (conn : Connection A) (cause : ProtocolError) : Received A := ⟨.error cause, conn, []⟩

/-- Reads the names of an announced path. -/
def readNames (limit : Nat) : (count : Nat) → Reader (List String)
  | 0 => return []
  | count + 1 => do
    let name ← Reader.str limit
    return name :: (← readNames limit count)

/-- Reads an announce behind its tag: the id and the names of its path. -/
def readAnnounce (revision : Revision) : MessageReader (Nat × List String) := do
  let id ← Reader.varU32.inMessage
  let depth := (← Reader.varU32.inMessage).toNat
  if revision.maxPathDepth < depth then throw (.pathTooDeep depth revision.maxPathDepth)
  let names ← (readNames revision.maxNameBytes depth).inMessage
  let left := (← get).remaining
  if left != 0 then throw (.trailingBytes (Dotted.join names) left)
  return (id.toNat, names)

/-- Binds the path of an announce. -/
def receiveAnnounce (conn : Connection A) (dec : Decoder) : Received A :=
  match readAnnounce conn.tree.revision dec with
  | .error cause _ => conn.refused cause
  | .ok (id, names) _ =>
    match ResolvedPath.ofNames conn.tree names with
    | .error cause => conn.refused cause
    | .ok path =>
      match conn.ids.register id path with
      | .error cause => conn.refused cause
      | .ok (path, ids) => ⟨.ok (.registered id path.dotted), { conn with ids }, []⟩

/-- Runs the handler for a message of which some carrier has no value. -/
def reportMissing (conn : Connection A) (env : A.Env) (endpoint : EndpointDef A) (id : Nat)
    (path : ResolvedPath) (read : ReadKeys A) : Received A :=
  let missing : MissingKeys := ⟨read.absent, read.absent.map conn.tree.name⟩
  let delivery := Delivery.missingKeys id path.dotted missing
  match endpoint.onMissing with
  | none => ⟨.ok delivery, conn, []⟩
  | some handler =>
    let outcome := handler env missing (conn.readContext id path read.values) conn.caches
    ⟨outcome.result.map fun () => delivery, conn, outcome.events⟩

/-- Runs an endpoint's decoder on its value.  The message must end where the decoder stops;
what the decoder did to the caches counts in any case. -/
def dispatch (conn : Connection A) (env : A.Env) (endpoint : EndpointDef A) (id : Nat)
    (path : ResolvedPath) (read : ReadKeys A) (dec : Decoder) : Received A :=
  match read.lowest.as endpoint.type with
  | .error cause => conn.refused cause
  | .ok value =>
    let ctx := conn.readContext id path read.values
    match endpoint.decode env value ctx ⟨dec, conn.caches, []⟩ with
    | .error cause state => ⟨.error cause, { conn with caches := state.caches }, state.events⟩
    | .ok () state =>
      let left := state.decoder.remaining
      let outcome := if left = 0 then .ok (.dispatched id path.dotted)
        else .error (.trailingBytes path.dotted left)
      ⟨outcome, { conn with caches := state.caches }, state.events⟩

/-- The endpoint at the end of a bound path. -/
def endpointOf (tree : Tree A) (id : Nat) (path : ResolvedPath) :
    Except ProtocolError (EndpointDef A) := do
  match path.path.getLast? with
  | none => throw (.unknownId id)
  | some index =>
    match (← tree.node index).kind.endpoint? with
    | some endpoint => return endpoint
    | none => throw (.notAnEndpoint path.dotted)

/-- Handles a message behind its tag, on the path bound to its id. -/
def receiveOn (conn : Connection A) (env : A.Env) (id : Nat) (path : ResolvedPath)
    (dec : Decoder) : Received A :=
  match endpointOf conn.tree id path with
  | .error cause => conn.refused cause
  | .ok endpoint =>
    match readKeys conn.tree env conn.attachment .unit path.keys dec with
    | .error cause _ => conn.refused cause
    | .ok read dec =>
      if read.absent.isEmpty then conn.dispatch env endpoint id path read dec
      else conn.reportMissing env endpoint id path read

/-- Decodes and handles one message.  An error leaves the connection usable. -/
def receive (conn : Connection A) (env : A.Env) (message : Bytes) : Received A :=
  match Reader.u32 (Decoder.ofBytes message) with
  | .error cause _ => conn.refused (.codec cause)
  | .ok tag dec =>
    let id := tag.toNat
    if id = announceTag then conn.receiveAnnounce dec
    else match conn.ids.lookup id with
      | .error cause => conn.refused cause
      | .ok path => conn.receiveOn env id path dec

end Connection

end PathWire

/-
Scripted connections and sessions.

What a script can do with a connection or a session, as functions on it.  The same
functions serve a session that the script holds itself and one that a task owns.
-/
import PathWire.Scenario.Step

namespace PathWire.Scenario

/-- Everything a script has defined that a connection's step can refer to. -/
structure Registry where
  names : Names := {}
  caches : List (String × AnyCache) := []

/-! ### Sending -/

/-- What a payload saw of its message. -/
def noteOf (names : Names) (ctx : MessageContext app) (watched : List String) : WriteNote :=
  ⟨ctx.id, ctx.path, ctx.node, watch names ctx watched⟩

/-- Writes the parts of a payload. -/
def writePayload : List PayloadWrite → Encoder → Except ProtocolError Encoder
  | [], enc => .ok enc
  | .op write :: rest, enc => do writePayload rest (← liftCodec (write.apply enc))
  | .fail reason :: _, _ => .error (.handler reason)

/-- A scripted payload. -/
def payloadOf (names : Names) (spec : SendSpec) : Payload app WriteNote := fun ctx _ enc => do
  return (noteOf names ctx spec.watched, ← writePayload spec.payload enc)

/-- A send whose names have been looked up. -/
structure PreparedSend where
  shape : Shape
  endpoint : EndpointRef shape.type
  value : shape.type.El
  link : Option (DynamicLink valType)

/-- Looks up the names of a send. -/
def SendSpec.prepare? (spec : SendSpec) (names : Names) : Option PreparedSend := do
  let (shape, index) ← names.endpoints.lookup spec.endpoint
  let prepared : PreparedSend := ⟨shape, ⟨index⟩, shape.ofChain spec.value, none⟩
  match spec.link with
  | some (name, owner) => return { prepared with link := some (← linkTo? names name owner) }
  | none => return prepared

/-- Sends on a connection. -/
def SendSpec.onConn (spec : SendSpec) (names : Names) (prepared : PreparedSend)
    (conn : Connection app) : Except ProtocolError (Answer × Connection app) :=
  let priority := spec.priority.getD .normal
  match prepared.link with
  | some link => do
    let (note, conn) ← conn.sendLinked names prepared.endpoint prepared.value link priority
      (payloadOf names spec)
    return (.note note, conn)
  | none =>
    if spec.isSignal then do
      let ((), conn) ← conn.signal names prepared.endpoint prepared.value
      return (.nothing, conn)
    else do
      let (note, conn) ← conn.send names prepared.endpoint prepared.value priority
        (payloadOf names spec)
      return (.note note, conn)

/-! ### Caches -/

/-- An object for a cache of the given kind. -/
def ObjectInput.object? : ObjectInput → (kind : CacheKind) → Option kind.Object
  | .text value, .str => some value
  | .number value, .int =>
    if 0 ≤ value ∧ value < Bits.bound 32 then some (UInt32.ofNat value.toNat) else none
  | .thing kind damage, .item =>
    if 0 ≤ damage ∧ damage < Bits.bound 16 then some (Item.mk kind (UInt16.ofNat damage.toNat))
    else none
  | _, _ => none

/-- Assigns an id to an object on a connection. -/
def assignOn (names : Names) (cache : AnyCache) (input : ObjectInput) (conn : Connection app) :
    Except ProtocolError Nat × Connection app :=
  match input.object? cache.kind with
  | some object => cache.cache.assign names conn object
  | none => (.error (.handler "bad cache value"), conn)

/-- Resolves an id that the peer assigned. -/
def resolveOn (cache : AnyCache) (id : Nat) (conn : Connection app) :
    Except ProtocolError CachedObject :=
  (cache.cache.resolve conn.caches id).map (CachedObject.of cache.kind)

/-- A cache on a connection. -/
def cacheInfoOn (cache : AnyCache) (conn : Connection app) : CacheInfo :=
  { name := cache.cache.name
    endpoint := cache.cache.endpoint.index
    outgoing := cache.cache.outgoingSize conn.caches
    incoming := cache.cache.incomingSize conn.caches
    summary := cache.cache.summary ++ " " ++ conn.caches.summary }

/-- The sizes of a connection's tables. -/
def connInfoOf (conn : Connection app) : ConnInfo :=
  ⟨conn.ids.outgoingSize, conn.ids.incomingSize, conn.hasOutbound⟩

/-! ### Connections -/

/-- The nodes of named handles. -/
def nodesOf? (names : Names) (handles : List String) : Option (List NodeIndex) :=
  handles.mapM fun handle => (names.handle? handle).map (·.2)

/-- A path with its names. -/
def pathInfo (tree : Tree app) (path : ResolvedPath) : PathInfo := ⟨path, path.names tree⟩

/-- A result with the connection it left behind. -/
abbrev OnConn := Reply × Connection app

/-- The reply of a step that leaves the connection as it is. -/
def unchanged (conn : Connection app) (reply : Reply) : OnConn := (reply, conn)

/-- Runs a step on a connection; the reply does not yet say anything of the connection. -/
def ConnStep.runBare (registry : Registry) (conn : Connection app) : ConnStep → OnConn
  | .send spec =>
    match spec.prepare? registry.names with
    | none => unchanged conn .badRequest
    | some prepared =>
      match spec.onConn registry.names prepared conn with
      | .ok (answer, conn) => (.ok answer, conn)
      | .error cause => unchanged conn (.refused cause)
  | .receive bytes =>
    let received := conn.receive registry.names bytes
    ({ Reply.ofResult received.outcome .delivery with events := received.events }, received.conn)
  | .drain =>
    let (messages, conn) := conn.drain
    (.ok (.queued messages), conn)
  | .assign cache object =>
    match registry.caches.lookup cache with
    | none => unchanged conn .badRequest
    | some cache =>
      let (result, conn) := assignOn registry.names cache object conn
      (.ofResult result .count, conn)
  | .resolve cache id =>
    match registry.caches.lookup cache with
    | none => unchanged conn .badRequest
    | some cache => unchanged conn (.ofResult (resolveOn cache id conn) .object)
  | .cacheInfo cache =>
    match registry.caches.lookup cache with
    | none => unchanged conn .badRequest
    | some cache => unchanged conn (.ok (.cacheInfo (cacheInfoOn cache conn)))
  | .incoming id =>
    unchanged conn (.ofResult (conn.ids.lookup id) fun path => .path (pathInfo conn.tree path))
  | .outgoing handles =>
    match nodesOf? registry.names handles with
    | none => unchanged conn .badRequest
    | some nodes => unchanged conn (.ok (.maybeCount (conn.ids.outgoing? nodes)))
  | .nextId => unchanged conn (.ofResult conn.ids.peekNext .count)
  | .label => unchanged conn (.ok (.label conn.label true))

/-- Runs a step on a connection. -/
def ConnStep.run (registry : Registry) (conn : Connection app) (step : ConnStep) : OnConn :=
  let (reply, conn) := step.runBare registry conn
  ({ reply with subject := .conn (connInfoOf conn) }, conn)

/-! ### Sessions -/

section

variable {T : Type} [Transport T]

/-- A result with the session it left behind. -/
abbrev OnSession (T : Type) := Reply × Session app T

/-- Runs an action of a session. -/
def runAction {α : Type} (session : Session app T) (action : SessionAction app T α)
    (answer : α → Answer) : OnSession T :=
  match action session with
  | .ok value session => (.ok (answer value), session)
  | .error cause session => (⟨.error (.session cause), [], .nothing⟩, session)

/-- A session's send budget. -/
def bandwidthOf (bandwidth : Bandwidth) : Answer :=
  .bandwidth bandwidth.localCap.toNat (bandwidth.peer.map UInt32.toNat) bandwidth.effective

/-- Runs a step on a session; the reply does not yet say anything of the session. -/
def SessionStep.runBare (registry : Registry) (session : Session app T) :
    SessionStep → OnSession T
  | .send spec =>
    match spec.prepare? registry.names with
    | none => (.badRequest, session)
    | some prepared =>
      runAction session (SessionAction.onConnection (spec.onConn registry.names prepared)) id
  | .start => runAction session SessionAction.start fun _ => .nothing
  | .tick => runAction session SessionAction.tick fun _ => .nothing
  | .flush => runAction session SessionAction.flush fun _ => .nothing
  | .assign cache object =>
    match registry.caches.lookup cache with
    | none => (.badRequest, session)
    | some cache =>
      runAction session (SessionAction.withConnection (assignOn registry.names cache object)) .count
  | .resolve cache id =>
    match registry.caches.lookup cache with
    | none => (.badRequest, session)
    | some cache => (.ofResult (resolveOn cache id session.conn) .object, session)
  | .cacheInfo cache =>
    match registry.caches.lookup cache with
    | none => (.badRequest, session)
    | some cache => (.ok (.cacheInfo (cacheInfoOn cache session.conn)), session)
  | .bandwidth => (.ok (bandwidthOf session.bandwidth), session)
  | .ids => (.ok (.connInfo (connInfoOf session.conn)), session)
  | .info => (.ok .nothing, session)
  | .receive bytes =>
    let received := session.receive registry.names bytes
    ({ Reply.ok (.report received.report) with events := received.events }, received.session)

/-- What is said of a session. -/
def subjectOf (session : Session app T) : Subject := .session session.stats session.pending

/-- Runs a step on a session. -/
def SessionStep.run (registry : Registry) (session : Session app T) (step : SessionStep) :
    OnSession T :=
  let (reply, session) := step.runBare registry session
  ({ reply with subject := subjectOf session }, session)

end

end PathWire.Scenario

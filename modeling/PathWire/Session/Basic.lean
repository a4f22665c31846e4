/-
A session: one connection with its batcher, its send budget and its transport.

What the connection queues is pushed into the batcher right away and written on a tick, on
overflow or for an urgent message.  A received frame is a container, an advertisement or
one message; a message that cannot be handled is dropped without affecting the rest.  The
counters say what became of every message and frame.
-/
import PathWire.Frame.Advert
import PathWire.Peer.ObjectCache
import PathWire.Session.Config
import PathWire.Session.Transport

namespace PathWire

/-- What became of a session's messages and frames. -/
structure SessionStats where
  framesSent : Nat := 0
  bytesSent : Nat := 0
  messagesSent : Nat := 0
  framesReceived : Nat := 0
  pathsRegistered : Nat := 0
  messagesDelivered : Nat := 0
  messagesMissing : Nat := 0
  messagesDropped : Nat := 0
  overBudgetTicks : Nat := 0
  /-- Messages lost because the transport failed before they reached the batcher. -/
  messagesDiscarded : Nat := 0
  /-- Frames the transport refused or never got to see. -/
  framesDiscarded : Nat := 0
  deriving DecidableEq, Repr

/-- What one received frame did. -/
structure ReceiveReport where
  deliveries : List Delivery := []
  errors : List SessionError := []

/-- The number of messages and frames dropped. -/
def ReceiveReport.dropped (report : ReceiveReport) : Nat := report.errors.length

/-- One connection with everything between it and the transport. -/
structure Session (A : Application) (T : Type) where
  conn : Connection A
  batcher : Batcher
  bandwidth : Bandwidth
  transport : T
  tickIntervalMs : Nat
  /-- Bytes written since the last tick. -/
  tickBytes : Nat
  /-- Whether the local cap was advertised. -/
  started : Bool
  stats : SessionStats

/-- An operation of a session; what it did before it failed is not undone. -/
abbrev SessionAction (A : Application) (T : Type) := EStateM SessionError (Session A T)

variable {A : Application} {T : Type} {α : Type}

namespace Session

/-- A session that has not started. -/
def new (conn : Connection A) (transport : T) (config : SessionConfig) : Session A T where
  conn := conn
  batcher := .new config.session.maxFrameBytes
  bandwidth := .new config.bandwidth.localCap config.bandwidth.floor
  transport := transport
  tickIntervalMs := config.session.tickIntervalMs
  tickBytes := 0
  started := false
  stats := {}

/-- The number of messages that wait for the next flush. -/
def pending (session : Session A T) : Nat := session.batcher.queue.length

/-- Changes the counters. -/
def count (session : Session A T) (change : SessionStats → SessionStats) : Session A T :=
  { session with stats := change session.stats }

end Session

namespace SessionAction

/-- Runs an action, and changes the counters if it fails. -/
def orCount (action : SessionAction A T α) (change : SessionStats → SessionStats) :
    SessionAction A T α := fun session =>
  match action session with
  | .ok value session => .ok value session
  | .error cause session => .error cause (session.count change)

/-! ### Writing -/

section Writing

variable [Transport T]

/-- Hands one frame to the transport. -/
def write (frame : Bytes) : SessionAction A T Unit := fun session =>
  match Transport.sendRaw session.transport frame with
  | (.ok (), transport) =>
    .ok () { session with
      transport
      tickBytes := session.tickBytes + frame.length
      stats := { session.stats with
        framesSent := session.stats.framesSent + 1
        bytesSent := session.stats.bytesSent + frame.length } }
  | (.error cause, transport) =>
    .error (.transport cause) { session with
      transport
      stats := { session.stats with framesDiscarded := session.stats.framesDiscarded + 1 } }

/-- Hands frames to the transport up to the first that is refused; the others are lost. -/
def writeAll : List Bytes → SessionAction A T Unit
  | [] => return ()
  | frame :: rest => do
    (write frame).orCount fun stats =>
      { stats with framesDiscarded := stats.framesDiscarded + rest.length }
    writeAll rest

/-- Runs a step of the batcher. -/
def onBatcher (step : Batcher → Except SessionError α × Batcher) : SessionAction A T α :=
  fun session =>
    match step session.batcher with
    | (.ok value, batcher) => .ok value { session with batcher }
    | (.error cause, batcher) => .error cause { session with batcher }

/-- Pushes one message into the batcher and writes the frames this gives. -/
def push (message : Outbound) : SessionAction A T Unit := do
  writeAll (← onBatcher (·.push message))

/-- Pushes messages into the batcher up to the first failure; the others are lost. -/
def pushAll : List Outbound → SessionAction A T Unit
  | [] => return ()
  | message :: rest => do
    modify fun session => session.count fun stats =>
      { stats with messagesSent := stats.messagesSent + 1 }
    (push message).orCount fun stats =>
      { stats with messagesDiscarded := stats.messagesDiscarded + rest.length }
    pushAll rest

/-- Takes everything the connection has queued to the batcher. -/
def collect : SessionAction A T Unit := do
  let outbox ← modifyGet fun session =>
    let (outbox, conn) := session.conn.drain
    (outbox, { session with conn })
  pushAll outbox

/-! ### Operations -/

/-- Advertises the local cap.  Only the first call does anything. -/
def start : SessionAction A T Unit := do
  let session ← get
  if session.started then return ()
  set { session with started := true }
  write session.bandwidth.advertisement

/-- Runs a step of the connection that changes it only if it succeeds, and collects what it
queued. -/
def onConnection (step : Connection A → Except ProtocolError (α × Connection A)) :
    SessionAction A T α := do
  let session ← get
  match step session.conn with
  | .error cause => throw (.protocol cause)
  | .ok (value, conn) =>
    set { session with conn }
    collect
    return value

/-- Sends a message. -/
def send {type : ContextType A} (env : A.Env) (endpoint : EndpointRef type) (value : type.El)
    (priority : Priority) (payload : Payload A α) : SessionAction A T α :=
  onConnection (·.send env endpoint value priority payload)

/-- Sends a message through a chosen owner. -/
def sendLinked {type child : ContextType A} (env : A.Env) (endpoint : EndpointRef type)
    (value : type.El) (link : DynamicLink child) (priority : Priority) (payload : Payload A α) :
    SessionAction A T α :=
  onConnection (·.sendLinked env endpoint value link priority payload)

/-- Sends a message without payload. -/
def signal {type : ContextType A} (env : A.Env) (endpoint : EndpointRef type)
    (value : type.El) : SessionAction A T Unit :=
  onConnection (·.signal env endpoint value)

/-- Runs a step of the connection, such as a cache assignment, and collects what it queued also
if it fails. -/
def withConnection (step : Connection A → Except ProtocolError α × Connection A) :
    SessionAction A T α := do
  let result ← modifyGet fun session =>
    let (result, conn) := step session.conn
    (result, { session with conn })
  collect
  match result with
  | .ok value => return value
  | .error cause => throw (.protocol cause)

/-- Writes everything that waits as one frame. -/
def flush : SessionAction A T Unit := do
  match ← onBatcher (·.flush) with
  | some frame => write frame
  | none => return ()

/-- Compares the bytes written since the last tick with the budget, and starts anew. -/
def settleBudget (session : Session A T) : Session A T :=
  let budget := session.bandwidth.perTick session.tickIntervalMs
  let excess := if budget < session.tickBytes then 1 else 0
  { session.count fun stats => { stats with overBudgetTicks := stats.overBudgetTicks + excess }
    with tickBytes := 0 }

/-- The periodic flush with the check of the budget. -/
def tick : SessionAction A T Unit := do
  flush
  modify settleBudget

end Writing

end SessionAction

/-! ### Receiving -/

namespace Session

/-- A session that received something, with the report so far and the events of the
application's callbacks. -/
structure Receiving (A : Application) (T : Type) where
  session : Session A T
  report : ReceiveReport
  events : List A.Event

/-- Counts a delivery by its kind. -/
def countDelivery (delivery : Delivery) (stats : SessionStats) : SessionStats :=
  match delivery with
  | .registered _ _ => { stats with pathsRegistered := stats.pathsRegistered + 1 }
  | .dispatched _ _ => { stats with messagesDelivered := stats.messagesDelivered + 1 }
  | .missingKeys _ _ _ => { stats with messagesMissing := stats.messagesMissing + 1 }

/-- Adds an error to the report and counts it. -/
def Receiving.drop (state : Receiving A T) (cause : SessionError) : Receiving A T :=
  { state with
    session := state.session.count fun stats =>
      { stats with messagesDropped := stats.messagesDropped + 1 }
    report := { state.report with errors := state.report.errors ++ [cause] } }

/-- Hands one message to the connection. -/
def Receiving.dispatch (env : A.Env) (state : Receiving A T) (message : Bytes) : Receiving A T :=
  let received := state.session.conn.receive env message
  let state := { state with
    session := { state.session with conn := received.conn }
    events := state.events ++ received.events }
  match received.outcome with
  | .ok delivery =>
    { state with
      session := state.session.count (countDelivery delivery)
      report := { state.report with deliveries := state.report.deliveries ++ [delivery] } }
  | .error cause => state.drop (.protocol cause)

/-- The tag of a frame that is long enough to have one. -/
def frameTag? (frame : Bytes) : Option Nat :=
  if tagBytes ≤ frame.length then some (Bytes.toNat (frame.take tagBytes)) else none

/-- Unpacks and handles one frame. -/
def receive (session : Session A T) (env : A.Env) (frame : Bytes) : Receiving A T :=
  let session := session.count fun stats =>
    { stats with framesReceived := stats.framesReceived + 1 }
  let state : Receiving A T := ⟨session, {}, []⟩
  if frameTag? frame = some batchTag then
    match splitBatch frame with
    | .ok messages => messages.foldl (Receiving.dispatch env) state
    | .error cause => state.drop cause
  else if frameTag? frame = some bandwidthTag then
    match decodeAdvert frame with
    | .ok cap => { state with
        session := { session with bandwidth := { session.bandwidth with peer := some cap } } }
    | .error cause => state.drop cause
  else state.dispatch env frame

end Session

end PathWire

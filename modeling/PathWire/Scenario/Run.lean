/-
Running a script.

A script's state holds everything it has named so far.  A step that refers to something
that was never defined is refused and changes nothing.
-/
import PathWire.Scenario.Tasks

namespace PathWire.Scenario

/-- A session with the transport a script chose for it. -/
inductive AnySession where
  | list (session : Session app FrameList)
  | channel (session : Session app FrameChannel)

/-- Everything a script has defined. -/
structure Script where
  registry : Registry := {}
  builders : List (String × TreeBuilder app) := []
  trees : List (String × Tree app) := []
  ids : List (String × IdTables) := []
  conns : List (String × Connection app) := []
  sessions : List (String × AnySession) := []
  tasks : List (String × Task) := []
  /-- The time, in milliseconds. -/
  now : Nat := 0

/-- A list of named things with one of them set. -/
def setNamed {α : Type} (name : String) (value : α) (entries : List (String × α)) :
    List (String × α) :=
  (name, value) :: entries.filter fun entry => entry.1 != name

/-- A result with the script's state after it. -/
abbrev OnScript := Reply × Script

namespace Script

/-- The names a script has defined. -/
def names (script : Script) : Names := script.registry.names

/-- The script with more names. -/
def withNames (script : Script) (names : Names) : Script :=
  { script with registry := { script.registry with names } }

/-- The refusal of a step, which changes nothing. -/
def refuse (script : Script) : OnScript := (.badRequest, script)

/-! ### Trees -/

/-- Keeps what a declaration gave under its handle's name. -/
def keep (script : Script) (handle : String) : Declared → Script
  | .parent shape index =>
    script.withNames { script.names with
      parents := setNamed handle (shape, index) script.names.parents }
  | .endpoint shape index =>
    script.withNames { script.names with
      endpoints := setNamed handle (shape, index) script.names.endpoints }
  | .link entry =>
    script.withNames { script.names with links := setNamed handle entry script.names.links }
  | .cache declared =>
    let entry : CacheEntry := ⟨declared.kind, declared.cache.name, declared.cache.slot⟩
    let names := { script.names with
      endpoints := setNamed ("put:" ++ handle) (.unit, declared.cache.endpoint.index)
        script.names.endpoints
      caches := setNamed handle entry script.names.caches }
    { script with registry :=
      { names, caches := setNamed handle declared script.registry.caches } }

/-- Runs a declaration on a builder. -/
def building {α : Type} (script : Script) (tree : String) (step : Building app α)
    (done : α → Script → OnScript) : OnScript :=
  match script.builders.lookup tree with
  | none => script.refuse
  | some builder =>
    match step builder with
    | .ok value builder =>
      done value { script with builders := setNamed tree builder script.builders }
    | .error cause builder =>
      (.refused cause,
        { script with builders := setNamed tree builder script.builders })

/-- The parent a declaration names; the root if it names none. -/
def parent? (script : Script) (name : Option String) : Option (Shape × NodeIndex) :=
  match name with
  | none => some (.unit, .root)
  | some name => script.names.parents.lookup name

/-- Makes a declaration. -/
def declare (script : Script) (tree name handle : String) (parent : Option String)
    (declaration : Declaration) : OnScript :=
  match script.parent? parent with
  | none => script.refuse
  | some (shape, index) =>
    match declaration.run script.names shape ⟨index⟩ name with
    | none => script.refuse
    | some step => script.building tree step fun declared script =>
      (.ok (.index declared.index), script.keep handle declared)

/-- Declares the length of an endpoint's payload. -/
def payloadLength (script : Script) (tree endpoint : String) (bytes : Nat) : OnScript :=
  match script.names.endpoints.lookup endpoint with
  | none => script.refuse
  | some (shape, index) =>
    script.building tree (Building.setPayloadLength (EndpointRef.mk index : EndpointRef shape.type)
      bytes) fun _ script => (.ok .nothing, script)

/-- Installs a handler for messages whose keys have no value. -/
def onMissing (script : Script) (tree endpoint : String) (watched : List String)
    (refusal : Option String) : OnScript :=
  match script.names.endpoints.lookup endpoint with
  | none => script.refuse
  | some (shape, index) =>
    script.building tree (Building.onMissing (EndpointRef.mk index : EndpointRef shape.type)
      (missingHandler watched refusal)) fun _ script => (.ok .nothing, script)

/-- Finishes a tree. -/
def build (script : Script) (tree : String) : OnScript :=
  match script.builders.lookup tree with
  | none => script.refuse
  | some builder =>
    let built := builder.build
    (.ok (.built built.size built.isEmpty built.revision.id.toNat),
      { script with
        builders := script.builders.filter fun entry => entry.1 != tree
        trees := setNamed tree built script.trees })

/-- A node as a script sees it. -/
def nodeInfo (tree : Tree app) (index : NodeIndex) : NodeInfo :=
  ⟨index, tree.name index, tree.isEndpoint index, tree.parent? index, tree.lengthHint? index⟩

/-- Asks something of a tree. -/
def askTree (script : Script) (tree : String) (answer : Tree app → Option Reply) : OnScript :=
  match (script.trees.lookup tree).bind answer with
  | none => script.refuse
  | some reply => (reply, script)

/-- The path a script describes. -/
def pathOf? (script : Script) (tree : Tree app) :
    PathSpec → Option (Except ProtocolError ResolvedPath)
  | .names names => some (ResolvedPath.ofNames tree names)
  | .nodes handles => (nodesOf? script.names handles).map (ResolvedPath.ofNodes tree)

/-- The answer to a question for a node that may not exist. -/
def nodeReply (tree : Tree app) (index : Option NodeIndex) : Reply :=
  .ok (.node (index.map (nodeInfo tree)))

/-! ### Id tables -/

/-- Runs a step on id tables. -/
def runIds (script : Script) (ids : IdTables) : IdsStep → Option (Reply × IdTables)
  | .peek => some (.ofResult ids.peekNext .count, ids)
  | .commit handles id => do
    let nodes ← nodesOf? script.names handles
    return (.ok .nothing, ids.commit nodes id)
  | .outgoing handles => do
    let nodes ← nodesOf? script.names handles
    return (.ok (.maybeCount (ids.outgoing? nodes)), ids)
  | .register tree path id => do
    let tree ← script.trees.lookup tree
    let resolved ← script.pathOf? tree path
    match resolved.bind (ids.register id) with
    | .ok (path, ids) => return (.ok (.path (pathInfo tree path)), ids)
    | .error cause => return (.refused cause, ids)
  | .incoming id => some (.ofResult (ids.lookup id) fun path => .text path.dotted, ids)

/-- Runs a step on named id tables. -/
def onIds (script : Script) (name : String) (step : IdsStep) : OnScript :=
  match (script.ids.lookup name).bind fun ids => script.runIds ids step with
  | none => script.refuse
  | some (reply, ids) =>
    ({ reply with subject := .ids ids.outgoingSize ids.incomingSize },
      { script with ids := setNamed name ids script.ids })

/-! ### Connections and sessions -/

/-- A new connection. -/
def connection (tree : Tree app) (label : String) : Attachment → Connection app
  | .nothing => .new tree label none
  | .chain chain => .new tree label (some (attachedChain chain))
  | .other => .new tree label (some attachedOther)

/-- Sets up a connection. -/
def newConn (script : Script) (name tree : String) (attachment : Attachment) : OnScript :=
  match script.trees.lookup tree with
  | none => script.refuse
  | some tree =>
    (.ok .nothing,
      { script with conns := setNamed name (connection tree name attachment) script.conns })

/-- Runs a step on a named connection. -/
def onConn (script : Script) (name : String) (step : ConnStep) : OnScript :=
  match script.conns.lookup name with
  | none => script.refuse
  | some conn =>
    let (reply, conn) := step.run script.registry conn
    (reply, { script with conns := setNamed name conn script.conns })

/-- What was pumped so far, with the receiving connection. -/
structure Pumping where
  conn : Connection app
  results : List (Except ProtocolError Delivery × Outbound)
  events : List Event

/-- Feeds one message to the receiving connection. -/
def pumpOne (names : Names) (state : Pumping) (message : Outbound) : Pumping :=
  let received := state.conn.receive (A := app) names message.bytes
  let events : List Event := received.events
  ⟨received.conn, state.results ++ [(received.outcome, message)], state.events ++ events⟩

/-- Feeds everything one connection has queued to another. -/
def pump (script : Script) (source target : String) : OnScript :=
  match script.conns.lookup source with
  | none => script.refuse
  | some conn =>
    let (messages, conn) := conn.drain
    let conns := setNamed source conn script.conns
    match conns.lookup target with
    | none => script.refuse
    | some receiver =>
      let state := messages.foldl (pumpOne script.names) ⟨receiver, [], []⟩
      ({ Reply.ok (.pumped state.results) with events := state.events },
        { script with conns := setNamed target state.conn conns })

/-- Sets up a session. -/
def newSession (script : Script) (name tree : String) (config : SessionConfig)
    (attachment : Attachment) (isChannel : Bool) : OnScript :=
  match script.trees.lookup tree with
  | none => script.refuse
  | some tree =>
    let conn := connection tree name attachment
    let session := if isChannel then AnySession.channel (.new conn .new config)
      else AnySession.list (.new conn ⟨[]⟩ config)
    (.ok .nothing, { script with sessions := setNamed name session script.sessions })

/-- Runs a step on a session. -/
def runSession (registry : Registry) (step : SessionStep) : AnySession → Reply × AnySession
  | .list session =>
    let (reply, session) := step.run registry session
    (reply, .list session)
  | .channel session =>
    let (reply, session) := step.run registry session
    (reply, .channel session)

/-- Runs a step on a named session. -/
def onSession (script : Script) (name : String) (step : SessionStep) : OnScript :=
  match script.sessions.lookup name with
  | none => script.refuse
  | some session =>
    let (reply, session) := runSession script.registry step session
    (reply, { script with sessions := setNamed name session script.sessions })

/-- Takes the frames a session has written. -/
def takeFrames : AnySession → List Bytes × AnySession
  | .list session => (session.transport.frames, .list { session with transport := ⟨[]⟩ })
  | .channel session =>
    let channel := session.transport
    (channel.frames, .channel { session with transport := { channel with frames := [] } })

/-- Runs a step on a session's transport. -/
def runTransport (step : TransportStep) (session : AnySession) : Reply × AnySession :=
  match step, session with
  | .frames, session =>
    let (frames, session) := takeFrames session
    (.ok (.frames frames), session)
  | .written, .list s => (.ok (.maybeCount (some s.transport.frames.length)), session)
  | .written, .channel _ => (.ok (.maybeCount none), session)
  | .close, .channel s => (.ok .nothing, .channel { s with transport := s.transport.close })
  | .close, .list _ => (.ok .nothing, session)

/-- Runs a step on the transport of a named session. -/
def onTransport (script : Script) (name : String) (step : TransportStep) : OnScript :=
  match script.sessions.lookup name with
  | none => script.refuse
  | some session =>
    let (reply, session) := runTransport step session
    (reply, { script with sessions := setNamed name session script.sessions })

/-- Feeds frames to a session. -/
def feed (registry : Registry) : List Bytes → AnySession →
    List (Bytes × ReceiveReport) × List Event × AnySession
  | [], session => ([], [], session)
  | frame :: rest, session =>
    let (reply, session) := runSession registry (.receive frame) session
    let report := match reply.result with
      | .ok (.report report) => report
      | _ => {}
    let (reports, events, session) := feed registry rest session
    ((frame, report) :: reports, reply.events ++ events, session)

/-- What is said of a session. -/
def subject : AnySession → Subject
  | .list session => subjectOf session
  | .channel session => subjectOf session

/-- Feeds every frame one session has written to another. -/
def shuttle (script : Script) (source target : String) : OnScript :=
  match script.sessions.lookup source with
  | none => script.refuse
  | some session =>
    let (frames, session) := takeFrames session
    let sessions := setNamed source session script.sessions
    match sessions.lookup target with
    | none => script.refuse
    | some receiver =>
      let (reports, events, receiver) := feed script.registry frames receiver
      (⟨.ok (.shuttled reports), events, subject receiver⟩,
        { script with sessions := setNamed target receiver sessions })

/-! ### Tasks -/

/-- Sets up a task. -/
def spawn (script : Script) (name tree : String) (config : SessionConfig)
    (attachment : Attachment) (isClosed stream : Bool) : OnScript :=
  match script.trees.lookup tree with
  | none => script.refuse
  | some tree =>
    let attachment := if stream then .nothing else attachment
    let channel := if isClosed && !stream then FrameChannel.new.close else .new
    let session := Session.new (connection tree name attachment) channel config
    let task := Task.spawn script.names session config stream script.now
    (.ok .nothing, { script with tasks := setNamed name task script.tasks })

/-- Runs a step on a named task. -/
def onTask (script : Script) (name : String) (step : TaskStep) : OnScript :=
  match script.tasks.lookup name with
  | none => script.refuse
  | some task =>
    let (reply, task) := step.run script.registry task
    (reply, { script with tasks := setNamed name task script.tasks })

/-- Moves tasks to time `now`. -/
def advanceTasks (names : Names) (now : Nat) :
    List (String × Task) → List Event × List (String × Task)
  | [] => ([], [])
  | (name, task) :: rest =>
    let (reply, task) := task.advance names now
    let (events, tasks) := advanceTasks names now rest
    (reply.events ++ events, (name, task) :: tasks)

/-- Moves the clock. -/
def advance (script : Script) (ms : Nat) : OnScript :=
  let now := script.now + ms
  let (events, tasks) := advanceTasks script.names now script.tasks
  ({ Reply.ok .nothing with events }, { script with now, tasks })

/-! ### All steps -/

/-- Runs one step. -/
def step (script : Script) : Step → OnScript
  | .builder tree spec =>
    (.ok .nothing,
      { script with builders := setNamed tree (.new spec.revision) script.builders })
  | .build tree => script.build tree
  | .declare tree name handle parent declaration =>
    script.declare tree name handle parent declaration
  | .payloadLength tree endpoint bytes => script.payloadLength tree endpoint bytes
  | .onMissing tree endpoint watched refusal => script.onMissing tree endpoint watched refusal
  | .world name atoms =>
    (.ok .nothing, script.withNames { script.names with
      worlds := setNamed name atoms script.names.worlds })
  | .find tree dotted =>
    script.askTree tree fun tree => some (nodeReply tree (tree.find? dotted))
  | .child tree of name => script.askTree tree fun tree => do
    let index ← match of with
      | none => some NodeIndex.root
      | some handle => (script.names.handle? handle).map (·.2)
    return nodeReply tree (tree.child? index name)
  | .node tree handle => script.askTree tree fun tree =>
    (script.names.handle? handle).map fun found => nodeReply tree (some found.2)
  | .path tree path => script.askTree tree fun tree =>
    (script.pathOf? tree path).map fun result =>
      .ofResult result fun path => .path (pathInfo tree path)
  | .dotted tree handles => script.askTree tree fun tree =>
    (nodesOf? script.names handles).map fun nodes =>
      .ok (.dotted (tree.dotted nodes) (tree.pathLength nodes) (Path.display nodes))
  | .samePath a b =>
    match nodesOf? script.names a, nodesOf? script.names b with
    | some a, some b => (.ok (.flag (a == b)), script)
    | _, _ => script.refuse
  | .target link =>
    match script.names.links.lookup link with
    | some entry => (.ok (.index entry.target), script)
    | none => script.refuse
  | .treeSummary tree => script.askTree tree fun tree => some (.ok (.text tree.summary))
  | .handle handle =>
    match script.names.handle? handle with
    | some (kind, index) => (.ok (.handle kind index), script)
    | none => script.refuse
  | .idsNew ids max =>
    (.ok .nothing, { script with ids := setNamed ids (.new max) script.ids })
  | .ids ids step => script.onIds ids step
  | .newConn name tree attachment => script.newConn name tree attachment
  | .conn name step => script.onConn name step
  | .pump conn receiver => script.pump conn receiver
  | .newSession name tree config attachment channel =>
    script.newSession name tree config attachment channel
  | .session name step => script.onSession name step
  | .transport session step => script.onTransport session step
  | .shuttle session receiver => script.shuttle session receiver
  | .spawn name tree config attachment isClosed stream =>
    script.spawn name tree config attachment isClosed stream
  | .advance ms => script.advance ms
  | .task name step => script.onTask name step

/-- Runs a script from a state on. -/
def runFrom (script : Script) : List Step → List Reply
  | [] => []
  | step :: rest =>
    let (reply, script) := script.step step
    reply :: script.runFrom rest

/-- Runs a script. -/
def run (steps : List Step) : List Reply := Script.runFrom {} steps

end Script

end PathWire.Scenario

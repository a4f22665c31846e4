/-
What a script says and what it is answered.

A script is a list of steps over named trees, connections, sessions and tasks.  Each step
gives an answer or a failure, together with what the application's callbacks reported
while it ran and the counters of the thing it worked on.
-/
import PathWire.Scenario.Declare
import PathWire.Session.Stream

namespace PathWire.Scenario

/-! ### Steps -/

/-- The limits a script sets for a tree; the others are those of the first revision. -/
structure RevisionSpec where
  id : Option UInt16
  maxIncomingId : Option UInt32
  maxNameBytes : Option Nat
  maxPathDepth : Option Nat
  maxCacheEntries : Option UInt32

/-- The revision with the limits a script sets. -/
def RevisionSpec.revision (spec : RevisionSpec) : Revision :=
  { Revision.zero with
    id := spec.id.getD Revision.zero.id
    maxIncomingId := spec.maxIncomingId.getD Revision.zero.maxIncomingId
    maxNameBytes := spec.maxNameBytes.getD Revision.zero.maxNameBytes
    maxPathDepth := spec.maxPathDepth.getD Revision.zero.maxPathDepth
    maxCacheEntries := spec.maxCacheEntries.getD Revision.zero.maxCacheEntries }

/-- What is attached to a connection. -/
inductive Attachment where
  | nothing
  | chain (chain : Chain)
  /-- Something that is no chain. -/
  | other

/-- One part of a payload to be written. -/
inductive PayloadWrite where
  | op (write : WriteOp)
  /-- Refuses with a reason. -/
  | fail (reason : String)

/-- A scripted send. -/
structure SendSpec where
  endpoint : String
  value : Chain
  payload : List PayloadWrite
  priority : Option Priority
  /-- The link to use, with the chain above it. -/
  link : Option (String × Chain)
  /-- Whether to send a signal, which has no payload. -/
  isSignal : Bool
  watched : List String

/-- An object as a script writes it, before it is known what the cache holds. -/
inductive ObjectInput where
  | text (text : String)
  | number (number : Int)
  | thing (kind : String) (damage : Int)
  /-- Nothing a cache holds. -/
  | other

/-- A path, by its names or by its nodes. -/
inductive PathSpec where
  | names (names : List String)
  | nodes (handles : List String)

/-- What a script does with a connection. -/
inductive ConnStep where
  | send (spec : SendSpec)
  | receive (bytes : Bytes)
  | drain
  | assign (cache : String) (object : ObjectInput)
  | resolve (cache : String) (id : Nat)
  | cacheInfo (cache : String)
  | incoming (id : Nat)
  | outgoing (handles : List String)
  | nextId
  | label

/-- What a script does with a session. -/
inductive SessionStep where
  | send (spec : SendSpec)
  | start
  | tick
  | flush
  | assign (cache : String) (object : ObjectInput)
  | resolve (cache : String) (id : Nat)
  | cacheInfo (cache : String)
  | bandwidth
  | ids
  | info
  | receive (bytes : Bytes)

/-- What a script does with the transport of a session. -/
inductive TransportStep where
  /-- Take the frames written. -/
  | frames
  /-- Count the frames written to a list. -/
  | written
  /-- Drop the far end of a channel. -/
  | close
  deriving DecidableEq, Repr

/-- What a script does with a task. -/
inductive TaskStep where
  | session (step : SessionStep)
  | deliver (bytes : Bytes)
  | frames
  | close
  | drop
  | isClosed
  | shutdown
  | stats
  | write (bytes : Bytes)
  | read
  | closeStream
  | dropStream
  | streamResult

/-- What a script does with id tables of its own. -/
inductive IdsStep where
  | peek
  | commit (handles : List String) (id : Nat)
  | outgoing (handles : List String)
  | register (tree : String) (path : PathSpec) (id : Nat)
  | incoming (id : Nat)

/-- One step of a script. -/
inductive Step where
  | builder (tree : String) (spec : RevisionSpec)
  | build (tree : String)
  | declare (tree name handle : String) (parent : Option String) (declaration : Declaration)
  | payloadLength (tree endpoint : String) (bytes : Nat)
  | onMissing (tree endpoint : String) (watched : List String) (refusal : Option String)
  | world (name : String) (atoms : List Atom)
  | find (tree dotted : String)
  | child (tree : String) (of : Option String) (name : String)
  | node (tree handle : String)
  | path (tree : String) (path : PathSpec)
  | dotted (tree : String) (handles : List String)
  | samePath (a b : List String)
  | target (link : String)
  | treeSummary (tree : String)
  | handle (handle : String)
  | idsNew (ids : String) (max : Nat)
  | ids (ids : String) (step : IdsStep)
  | newConn (name tree : String) (attachment : Attachment)
  | conn (name : String) (step : ConnStep)
  | pump (conn receiver : String)
  | newSession (name tree : String) (config : SessionConfig) (attachment : Attachment)
      (channel : Bool)
  | session (name : String) (step : SessionStep)
  | transport (session : String) (step : TransportStep)
  | shuttle (session receiver : String)
  | spawn (name tree : String) (config : SessionConfig) (attachment : Attachment)
      (isClosed stream : Bool)
  | advance (ms : Nat)
  | task (name : String) (step : TaskStep)

/-! ### Answers -/

/-- Why a step gave no answer. -/
inductive Failure where
  | protocol (cause : ProtocolError)
  | session (cause : SessionError)
  | transport (cause : TransportError)
  /-- The step refers to something that does not exist. -/
  | badRequest

/-- A node of a tree, as a script sees it. -/
structure NodeInfo where
  index : NodeIndex
  name : String
  isEndpoint : Bool
  parent : Option NodeIndex
  length : Option LengthHint

/-- A path, as a script sees it. -/
structure PathInfo where
  path : ResolvedPath
  names : List String

/-- What a payload saw of its message. -/
structure WriteNote where
  id : Nat
  path : String
  node : NodeIndex
  watched : Watched

/-- The sizes of a connection's tables, and whether messages wait. -/
structure ConnInfo where
  outgoing : Nat
  incoming : Nat
  queued : Bool

/-- A cache, as a script sees it. -/
structure CacheInfo where
  name : String
  endpoint : NodeIndex
  outgoing : Nat
  incoming : Nat
  summary : String

/-- What a step answers. -/
inductive Answer where
  | nothing
  | flag (value : Bool)
  | maybeFlag (value : Option Bool)
  | count (value : Nat)
  | maybeCount (value : Option Nat)
  | text (value : String)
  | index (index : NodeIndex)
  | built (size : Nat) (isEmpty : Bool) (revision : Nat)
  | node (info : Option NodeInfo)
  | path (info : PathInfo)
  | dotted (text : String) (length : LengthHint) (display : String)
  | handle (kind : HandleKind) (index : NodeIndex)
  | note (note : WriteNote)
  | delivery (delivery : Delivery)
  | queued (messages : List Outbound)
  | pumped (results : List (Except ProtocolError Delivery × Outbound))
  | object (object : CachedObject)
  | cacheInfo (info : CacheInfo)
  | label (label : String) (sameTree : Bool)
  | connInfo (info : ConnInfo)
  | bandwidth (localCap : Nat) (peer : Option Nat) (effective : Nat)
  | report (report : ReceiveReport)
  | shuttled (frames : List (Bytes × ReceiveReport))
  | frames (frames : List Bytes)
  | stats (stats : SessionStats)
  | streamed (bytes : Bytes) (ended : Bool)

/-- What is said of the thing a step worked on. -/
inductive Subject where
  | nothing
  | conn (info : ConnInfo)
  | session (stats : SessionStats) (pending : Nat)
  | ids (outgoing incoming : Nat)

/-- All that a step gives. -/
structure Reply where
  result : Except Failure Answer
  events : List Event := []
  subject : Subject := .nothing

namespace Reply

/-- A step that went well and says nothing else. -/
def ok (answer : Answer) : Reply := ⟨.ok answer, [], .nothing⟩

/-- A step that refers to something that does not exist. -/
def badRequest : Reply := ⟨.error .badRequest, [], .nothing⟩

/-- A step that the protocol refused. -/
def refused (cause : ProtocolError) : Reply := ⟨.error (.protocol cause), [], .nothing⟩

/-- The reply of a step that the protocol may refuse. -/
def ofResult {α : Type} (result : Except ProtocolError α) (answer : α → Answer) : Reply :=
  match result with
  | .ok value => .ok (answer value)
  | .error cause => .refused cause

end Reply

end PathWire.Scenario

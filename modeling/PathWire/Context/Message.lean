/-
What a callback sees of the message at hand.

While a message is written or decoded the application's callbacks see the path it
travels on, the values of the keys on that path, and what is attached to the connection.
On receipt they also read the payload, use the caches and report events; the state they
leave behind counts also if they refuse in the end.
-/
import PathWire.Context.Carrier
import PathWire.Context.Store
import PathWire.Tree.Handle

namespace PathWire

/-- Whether a message is being decoded or encoded. -/
inductive Direction where
  | read
  | write
  deriving DecidableEq, Repr

/-- The direction's name. -/
def Direction.name : Direction → String
  | read => "Read"
  | write => "Write"

/-- A carrier on a message's path. -/
structure RouteKey where
  /-- The carrier's node. -/
  node : NodeIndex
  /-- The Dynamic node it stands in for, if it is a link. -/
  target : Option NodeIndex
  deriving DecidableEq, Repr

/-- The carriers without a value on receipt: the first one and all below it. -/
structure MissingKeys where
  keys : List NodeIndex
  names : List String
  deriving DecidableEq, Repr

namespace MissingKeys

variable {A : Application}

/-- Whether a node's value is among the missing ones. -/
def contains {type : ContextType A} (missing : MissingKeys) (handle : Parent type) : Bool :=
  missing.keys.contains handle.index

/-- The name of the first carrier without a value. -/
def first? (missing : MissingKeys) : Option String := missing.names.head?

end MissingKeys

/-- One message's path and the values on it. -/
structure MessageContext (A : Application) where
  direction : Direction
  /-- The wire id of the path. -/
  id : Nat
  /-- The dotted name of the path. -/
  path : String
  /-- The nodes of the path, top-down. -/
  nodes : List NodeIndex
  /-- The carriers among them, top-down. -/
  keys : List RouteKey
  /-- The values of the first carriers, top-down. -/
  values : List (Value A)
  /-- What is attached to the connection. -/
  attachment : Option (Value A)

namespace MessageContext

variable {A : Application}

/-- The endpoint's node. -/
def node (ctx : MessageContext A) : NodeIndex := ctx.nodes.getLast?.getD .root

/-- Where on the path the value of a node stands: at the node itself, else at the first link
that stands in for it. -/
def keyPosition? (ctx : MessageContext A) (index : NodeIndex) : Option Nat :=
  (ctx.keys.findIdx? fun key => key.node == index).or
    (ctx.keys.findIdx? fun key => key.target == some index)

/-- The value of a node above the payload. -/
def get {type : ContextType A} (ctx : MessageContext A) (handle : Parent type) : Option type.El :=
  ((ctx.keyPosition? handle.index).bind (ctx.values[·]?)).bind (·.as? type)

/-- The nearest value above the payload. -/
def nearest? (ctx : MessageContext A) (type : ContextType A) : Option type.El :=
  ctx.values.getLast?.bind (·.as? type)

/-- What is attached to the connection, if it is of the given type. -/
def attached? (ctx : MessageContext A) (type : ContextType A) : Option type.El :=
  ctx.attachment.bind (·.as? type)

end MessageContext

/-- What a callback works on while a message is decoded. -/
structure Decoding (A : Application) where
  decoder : Decoder
  caches : CacheStore A
  /-- The events reported so far, oldest first. -/
  events : List A.Event

/-- A step of a callback that handles a received message. -/
abbrev Callback (A : Application) := EStateM ProtocolError (Decoding A)

namespace Callback

variable {A : Application}

/-- A step that only reads the payload. -/
def reading {α : Type} (step : MessageReader α) : Callback A α := fun state =>
  match step state.decoder with
  | .ok value decoder => .ok value { state with decoder }
  | .error e decoder => .error e { state with decoder }

/-- Reports an event. -/
def emit (event : A.Event) : Callback A Unit :=
  modify fun state => { state with events := state.events ++ [event] }

end Callback

/-- What a missing-keys handler leaves behind: its events, and whether it refused. -/
structure MissingOutcome (A : Application) where
  events : List A.Event
  result : Except ProtocolError Unit

/-- Handles a message of which some carrier has no value. -/
abbrev MissingHandler (A : Application) :=
  A.Env → MissingKeys → MessageContext A → CacheStore A → MissingOutcome A

/-- How an endpoint handles its messages. -/
structure EndpointDef (A : Application) where
  /-- The type of its context value. -/
  type : ContextType A
  /-- Reads the payload and handles the message. -/
  decode : A.Env → type.El → MessageContext A → Callback A Unit
  /-- Runs instead of `decode` when a carrier has no value. -/
  onMissing : Option (MissingHandler A)

/-- Picks a link for a value of a Dynamic node. -/
structure Resolver (A : Application) where
  type : ContextType A
  pick : A.Env → type.El → Option (DynamicLink type)

/-- The link picked for a value. -/
def Resolver.choose {A : Application} (resolver : Resolver A) (env : A.Env) (value : Value A) :
    Except ProtocolError (Option (LinkChoice A)) := do
  return (resolver.pick env (← value.as resolver.type)).map DynamicLink.choice

end PathWire

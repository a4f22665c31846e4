/-
The application that scripts run on.

Its context values are chains, its caches hold texts, numbers or things, and its callbacks
report what they saw.  Conversions between the three types of chains never fail: a chain
becomes the unit value by forgetting it, and a narrow one without a check.
-/
import PathWire.Peer.ObjectCache
import PathWire.Scenario.Chain
import PathWire.Scenario.Fields

namespace PathWire.Scenario

/-- Codes of the application's context types. -/
inductive Kind where
  /-- Chains. -/
  | val
  /-- Narrow chains. -/
  | narrow
  /-- Something attached to a connection that is no chain. -/
  | foreign
  deriving DecidableEq, Repr

/-- The data of a context type. -/
def Kind.Carried : Kind → Type
  | val => Chain
  | narrow => Narrow
  | foreign => Unit

/-- A thing that a cache can hold. -/
structure Item where
  kind : String
  damage : UInt16
  deriving DecidableEq, Repr

/-- The objects of a cache. -/
def CacheKind.Object : CacheKind → Type
  | str => String
  | int => UInt32
  | item => Item

/-- What decides whether two objects share an id. -/
def CacheKind.Key : CacheKind → Type
  | str => String
  | int => UInt32
  | item => String

instance : (kind : CacheKind) → DecidableEq kind.Key
  | .str => inferInstanceAs (DecidableEq String)
  | .int => inferInstanceAs (DecidableEq UInt32)
  | .item => inferInstanceAs (DecidableEq String)

/-- An object of some cache. -/
inductive CachedObject where
  | str (text : String)
  | int (number : UInt32)
  | item (item : Item)
  deriving DecidableEq, Repr

/-- An object of a cache of the given kind. -/
def CachedObject.of : (kind : CacheKind) → kind.Object → CachedObject
  | .str, value => .str value
  | .int, value => .int value
  | .item, value => .item value

/-- What one read of a payload gave. -/
inductive ReadAnswer where
  | field (value : FieldValue)
  | object (object : CachedObject)

/-- The values of watched nodes, by handle name; none where there is no value. -/
abbrev Watched := List (String × Option Chain)

/-- What a callback reports. -/
inductive Event where
  /-- An endpoint took a message. -/
  | received (id : Nat) (node : NodeIndex) (path : String) (value : Chain)
      (nearest : Option Chain) (reads : List ReadAnswer) (attachment : Option Chain)
      (watched : Watched)
  /-- A message's key had no value. -/
  | missing (id : Nat) (path : String) (missing : MissingKeys)
      (contains : List (String × Option Bool)) (nearest : Option Chain) (watched : Watched)

/-- The scripts' application. -/
def app : Application where
  Kind := Kind
  decideKind := inferInstance
  Carried := Kind.Carried
  Item := CacheKind
  decideItem := inferInstance
  Object := CacheKind.Object
  ObjectKey := CacheKind.Key
  decideObjectKey := inferInstance
  Env := Names
  Event := Event

/-! ### Chains as context values -/

/-- The context type of plain chains. -/
def valType : ContextType app := .of Kind.val

/-- The context type of narrow chains. -/
def narrowType : ContextType app := .of Kind.narrow

/-- A chain attached to a connection. -/
def attachedChain (chain : Chain) : Value app := ⟨valType, chain⟩

/-- Something attached to a connection that is no chain. -/
def attachedOther : Value app := ⟨.of Kind.foreign, ()⟩

namespace Shape

/-- The context type of a shape. -/
def type : Shape → ContextType app
  | unit => .unit
  | val => valType
  | narrow => narrowType

/-- A chain as a value of the given shape. -/
def ofChain : (shape : Shape) → Chain → shape.type.El
  | unit, _ => ()
  | val, chain => chain
  | narrow, chain => Narrow.mk chain

/-- The chain of a value. -/
def toChain : (shape : Shape) → shape.type.El → Chain
  | unit, _ => []
  | val, chain => chain
  | narrow, value => Narrow.chain value

end Shape

/-- The value of a named node in a message, as a chain. -/
def watchOne (names : Names) (ctx : MessageContext app) (name : String) :
    String × Option Chain :=
  let found := match names.parents.lookup name with
    | some (shape, index) =>
      (ctx.get (Parent.mk index : Parent shape.type)).map shape.toChain
    | none => none
  (name, found)

/-- The values of named nodes in a message. -/
def watch (names : Names) (ctx : MessageContext app) (watched : List String) : Watched :=
  watched.map (watchOne names ctx)

end PathWire.Scenario

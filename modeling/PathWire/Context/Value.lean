/-
Context values: the typed data that the nodes above an endpoint hand to it.

Which types of data there are is the application's choice, so an application brings a
type of codes and the type each code stands for.  Inside the tree values travel with
their code, and whoever uses one checks that the code is the expected one.  The unit type
is always there: it is what the root hands to its children.
-/
import PathWire.Error

namespace PathWire

/-- What an application brings to the protocol. -/
structure Application where
  /-- Codes of its context types. -/
  Kind : Type
  decideKind : DecidableEq Kind
  /-- The data a code stands for. -/
  Carried : Kind → Type
  /-- Codes of the types of objects it keeps in caches. -/
  Item : Type
  decideItem : DecidableEq Item
  /-- The objects of a cache. -/
  Object : Item → Type
  /-- What decides whether two objects share an id. -/
  ObjectKey : Item → Type
  decideObjectKey : ∀ item, DecidableEq (ObjectKey item)
  /-- What its callbacks can look up while they run. -/
  Env : Type
  /-- What its callbacks report while they run. -/
  Event : Type

namespace Application

variable {A : Application}

instance : DecidableEq A.Kind := A.decideKind
instance : DecidableEq A.Item := A.decideItem
instance (item : A.Item) : DecidableEq (A.ObjectKey item) := A.decideObjectKey item

end Application

/-- A type of context values. -/
inductive ContextType (A : Application) where
  /-- The type with one value. -/
  | unit
  /-- One of the application's types. -/
  | of (kind : A.Kind)

namespace ContextType

variable {A : Application}

instance : DecidableEq (ContextType A)
  | unit, unit => .isTrue rfl
  | unit, of _ => .isFalse nofun
  | of _, unit => .isFalse nofun
  | of k, of l => if h : k = l then .isTrue (congrArg of h) else .isFalse fun e => h (of.inj e)

/-- The data of a context type. -/
def El : ContextType A → Type
  | unit => Unit
  | of kind => A.Carried kind

end ContextType

/-- A context value together with its type. -/
structure Value (A : Application) where
  type : ContextType A
  data : type.El

namespace Value

variable {A : Application}

/-- The one value of the unit type. -/
def unit : Value A := ⟨.unit, ()⟩

/-- The data, if the value is of the given type. -/
def as? (value : Value A) (type : ContextType A) : Option type.El :=
  if h : value.type = type then some (h ▸ value.data) else none

/-- The data, for a user who expects the given type. -/
def as (value : Value A) (type : ContextType A) : Except ProtocolError type.El :=
  match value.as? type with
  | some data => .ok data
  | none => .error .valueType

end Value

end PathWire

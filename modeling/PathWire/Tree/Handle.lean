/-
Handles: typed references to nodes of a tree.

A handle is a node's index together with the type of value that its users see.  The
types keep a caller from attaching a node below a parent, or sending to an endpoint,
whose value it does not know how to use.
-/
import PathWire.Context.Value

namespace PathWire

/-- A node's position in its tree. -/
structure NodeIndex where
  position : Nat
  deriving DecidableEq, Repr

namespace NodeIndex

/-- The node all paths start below. -/
def root : NodeIndex := ⟨0⟩

/-- The index as messages show it. -/
def display (index : NodeIndex) : String := s!"#{index.position}"

end NodeIndex

variable {A : Application}

/-- A node whose children see a value of type `type`. -/
structure Parent (type : ContextType A) where
  index : NodeIndex

/-- An endpoint that is sent with a value of type `type`. -/
structure EndpointRef (type : ContextType A) where
  index : NodeIndex

/-- A position below a value of type `owner` where the Dynamic node `target`, whose children
see a value of type `child`, can hang. -/
structure LinkRef (owner child : ContextType A) where
  index : NodeIndex
  target : NodeIndex

/-- The root: its children see the unit value. -/
def Parent.root : Parent (A := A) .unit := ⟨.root⟩

/-- The Dynamic node a link is a position for. -/
def LinkRef.dynamic {owner child : ContextType A} (link : LinkRef owner child) : Parent child :=
  ⟨link.target⟩

/-- A link together with the instance of its parent that owns a value of type `child`. -/
structure DynamicLink (child : ContextType A) where
  owner : ContextType A
  link : LinkRef owner child
  parent : owner.El

/-- The choice of a link for a Dynamic node, without the type it was made for. -/
structure LinkChoice (A : Application) where
  /-- The link node. -/
  link : NodeIndex
  /-- The Dynamic node it is chosen for. -/
  dynamic : NodeIndex
  /-- The value right above the link. -/
  parent : Value A

/-- The choice a typed link stands for. -/
def DynamicLink.choice {child : ContextType A} (chosen : DynamicLink child) : LinkChoice A :=
  ⟨chosen.link.index, chosen.link.target, ⟨chosen.owner, chosen.parent⟩⟩

end PathWire

/-
The endpoint tree.

A tree is an arena of named nodes with the root at position zero.  Carriers put values on
a path, endpoints take messages, and a Dynamic node is the root of a subtree of its own
that is reached through the links that target it: seen from above, a link has the
children of its target.
-/
import PathWire.Context.Message
import PathWire.Revision
import PathWire.Text.Dotted

namespace PathWire

variable {A : Application}

/-- What a node is for. -/
inductive NodeKind (A : Application) where
  | root
  /-- Only groups its children. -/
  | group
  /-- Carries a value. -/
  | carrier (carrier : Carrier A)
  /-- The root of a subtree whose owner is chosen for each message. -/
  | dynamic (resolver : Option (Resolver A))
  /-- A place where the Dynamic node `target` can hang. -/
  | link (target : NodeIndex) (carrier : Carrier A)
  | endpoint (endpoint : EndpointDef A)
  /-- An endpoint that carries a value of its own. -/
  | keyedEndpoint (carrier : Carrier A) (endpoint : EndpointDef A)

namespace NodeKind

/-- How the node carries a value. -/
def carrier? : NodeKind A → Option (Carrier A)
  | carrier c | link _ c | keyedEndpoint c _ => some c
  | _ => none

/-- How the node handles messages. -/
def endpoint? : NodeKind A → Option (EndpointDef A)
  | endpoint e | keyedEndpoint _ e => some e
  | _ => none

/-- The Dynamic node that the node is a place for. -/
def target? : NodeKind A → Option NodeIndex
  | link target _ => some target
  | _ => none

/-- Whether the node is the root of a subtree of its own. -/
def isDynamic : NodeKind A → Bool
  | dynamic _ => true
  | _ => false

/-- Why no child may hang below the node: the name of its kind. -/
def leafLabel? : NodeKind A → Option String
  | link _ _ => some "link"
  | endpoint _ => some "endpoint"
  | keyedEndpoint _ _ => some "keyed-endpoint"
  | _ => none

/-- Replaces how the node handles messages. -/
def mapEndpoint (change : EndpointDef A → EndpointDef A) : NodeKind A → NodeKind A
  | endpoint e => endpoint (change e)
  | keyedEndpoint c e => keyedEndpoint c (change e)
  | kind => kind

end NodeKind

/-- A node of a tree. -/
structure Node (A : Application) where
  name : String
  /-- None for the root and for Dynamic nodes. -/
  parent : Option NodeIndex
  /-- In order of declaration. -/
  children : List NodeIndex
  /-- How many bytes the node itself adds to a message. -/
  ownLength : LengthHint
  /-- The hints from the node's parentless ancestor down to it, added up. -/
  length : LengthHint
  kind : NodeKind A

/-- A finished endpoint tree. -/
structure Tree (A : Application) where
  nodes : Array (Node A)
  revision : Revision

namespace Tree

/-- The node at an index. -/
def node? (tree : Tree A) (index : NodeIndex) : Option (Node A) := tree.nodes[index.position]?

/-- The node at an index, for a user who relies on it. -/
def node (tree : Tree A) (index : NodeIndex) : Except ProtocolError (Node A) :=
  match tree.node? index with
  | some node => .ok node
  | none => .error (.unknownNode index.position)

/-- The number of nodes. -/
def size (tree : Tree A) : Nat := tree.nodes.size

/-- A tree is empty if it has nothing but the root. -/
def isEmpty (tree : Tree A) : Bool := tree.nodes.size ≤ 1

/-- The name of a node; a question mark for an index outside the tree. -/
def name (tree : Tree A) (index : NodeIndex) : String :=
  match tree.node? index with
  | some node => node.name
  | none => "?"

/-- The node above a node. -/
def parent? (tree : Tree A) (index : NodeIndex) : Option NodeIndex :=
  (tree.node? index).bind (·.parent)

/-- Whether messages can be sent to a node. -/
def isEndpoint (tree : Tree A) (index : NodeIndex) : Bool :=
  ((tree.node? index).bind (·.kind.endpoint?)).isSome

/-- The length hint of a node, from its parentless ancestor down. -/
def lengthHint? (tree : Tree A) (index : NodeIndex) : Option LengthHint :=
  (tree.node? index).map (·.length)

/-- The children seen below a node: its own, or its target's if it is a link. -/
def childrenOf (tree : Tree A) (index : NodeIndex) : List NodeIndex :=
  match tree.node? index with
  | some node =>
    match node.kind.target? with
    | some target => ((tree.node? target).map (·.children)).getD []
    | none => node.children
  | none => []

/-- Whether a node of the tree has the given name. -/
def isNamed (tree : Tree A) (name : String) (index : NodeIndex) : Bool :=
  match tree.node? index with
  | some node => node.name == name
  | none => false

/-- The child of a node with the given name. -/
def child? (tree : Tree A) (parent : NodeIndex) (name : String) : Option NodeIndex :=
  (tree.childrenOf parent).find? (tree.isNamed name)

/-- The node at the end of a chain of names from a node down. -/
def descend? (tree : Tree A) (start : NodeIndex) : List String → Option NodeIndex
  | [] => some start
  | name :: names => (tree.child? start name).bind (tree.descend? · names)

/-- The node with a dotted name. -/
def find? (tree : Tree A) (dotted : String) : Option NodeIndex :=
  tree.descend? .root (Dotted.split dotted)

/-- The dotted name of a sequence of nodes. -/
def dotted (tree : Tree A) (nodes : List NodeIndex) : String := Dotted.join (nodes.map tree.name)

/-- The own length hint of a node; dynamic for an index outside the tree. -/
def ownLength (tree : Tree A) (index : NodeIndex) : LengthHint :=
  match tree.node? index with
  | some node => node.ownLength
  | none => .dynamic

/-- The own length hints along a sequence of nodes, added up. -/
def pathLength (tree : Tree A) (nodes : List NodeIndex) : LengthHint :=
  nodes.foldl (fun sum index => sum.add (tree.ownLength index)) (.fixed 0)

/-- The Dynamic node that a node of the tree is a place for. -/
def linkTarget? (tree : Tree A) (index : NodeIndex) : Option NodeIndex :=
  (tree.node? index).bind (·.kind.target?)

/-- A carrier of the tree, as a message's context shows it. -/
def routeKey (tree : Tree A) (index : NodeIndex) : RouteKey := ⟨index, tree.linkTarget? index⟩

/-- The tree in a few words. -/
def summary (tree : Tree A) : String :=
  s!"Tree \x7b nodes: {tree.nodes.size}, revision: {tree.revision.id} \x7d"

end Tree

end PathWire

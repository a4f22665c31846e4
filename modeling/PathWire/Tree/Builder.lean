/-
Declaring a tree.

A builder holds the nodes declared so far.  Each declaration checks the new node's name
against its parent and its siblings and gives a handle to it; the handle's type says what
the node's children see.  A declaration is a step on the builder's state that keeps the
state also when it fails.
-/
import PathWire.Tree.Basic

namespace PathWire

variable {A : Application}

/-- A tree under construction. -/
structure TreeBuilder (A : Application) where
  nodes : Array (Node A)
  revision : Revision
  /-- The group that all caches are declared in, once there is one. -/
  cacheGroup : Option NodeIndex
  /-- The number of caches declared. -/
  cacheSlots : Nat

/-- A declaration. -/
abbrev Building (A : Application) := EStateM ProtocolError (TreeBuilder A)

namespace TreeBuilder

/-- The node all others hang below. -/
def rootNode : Node A where
  name := ""
  parent := none
  children := []
  ownLength := .fixed 0
  length := .fixed 0
  kind := .root

/-- A builder with nothing but the root. -/
def new (revision : Revision) : TreeBuilder A := ⟨#[rootNode], revision, none, 0⟩

/-- The tree with the nodes declared so far. -/
def build (builder : TreeBuilder A) : Tree A := ⟨builder.nodes, builder.revision⟩

/-- The node at an index. -/
def node? (builder : TreeBuilder A) (index : NodeIndex) : Option (Node A) :=
  builder.nodes[index.position]?

/-- The name of a node; empty for an index outside the tree. -/
def nameOf (builder : TreeBuilder A) (index : NodeIndex) : String :=
  match builder.node? index with
  | some node => node.name
  | none => ""

/-- The length hint down to a node; dynamic for an index outside the tree. -/
def lengthOf (builder : TreeBuilder A) (index : NodeIndex) : LengthHint :=
  match builder.node? index with
  | some node => node.length
  | none => .dynamic

/-- The length hint above a node. -/
def lengthAbove (builder : TreeBuilder A) (index : NodeIndex) : LengthHint :=
  match (builder.node? index).bind (·.parent) with
  | some parent => builder.lengthOf parent
  | none => .fixed 0

/-- A node name is not empty, not too long and holds no dot. -/
def isName (revision : Revision) (name : String) : Bool :=
  !name.isEmpty && name.utf8ByteSize ≤ revision.maxNameBytes && !name.toList.contains '.'

/-- The children that a new node would have as siblings; refused below a node that can have
none. -/
def siblings (builder : TreeBuilder A) (parent : Option NodeIndex) (name : String) :
    Except ProtocolError (List NodeIndex) :=
  match parent with
  | none => .ok []
  | some index =>
    match builder.node? index with
    | none => .error (.unknownNode index.position)
    | some node =>
      match node.kind.leafLabel? with
      | some label => .error (.invalidName s!"{name} (parent '{node.name}' is a {label})")
      | none => .ok node.children

/-- Whether a node has the given name. -/
def isNamed (builder : TreeBuilder A) (name : String) (index : NodeIndex) : Bool :=
  match builder.node? index with
  | some node => node.name == name
  | none => false

/-- Checks a new node's name against its parent and its siblings. -/
def checkName (builder : TreeBuilder A) (parent : Option NodeIndex) (name : String) :
    Except ProtocolError Unit := do
  if !isName builder.revision name then throw (.invalidName name)
  let siblings ← builder.siblings parent name
  if siblings.any (builder.isNamed name) then
    throw (.duplicateName ((parent.map builder.nameOf).getD "") name)

/-- Hangs a child below a node. -/
def adopt (child : NodeIndex) (node : Node A) : Node A :=
  { node with children := node.children ++ [child] }

/-- The builder with one more node, whose name has been checked. -/
def push (builder : TreeBuilder A) (parent : Option NodeIndex) (name : String)
    (ownLength : LengthHint) (kind : NodeKind A) : TreeBuilder A :=
  let index : NodeIndex := ⟨builder.nodes.size⟩
  let above := match parent with
    | some p => builder.lengthOf p
    | none => .fixed 0
  let node : Node A :=
    { name, parent, children := [], ownLength, length := above.add ownLength, kind }
  let nodes := match parent with
    | some p => builder.nodes.modify p.position (adopt index)
    | none => builder.nodes
  { builder with nodes := nodes.push node }

end TreeBuilder

namespace Building

open TreeBuilder

/-- Declares a node. -/
def add (parent : Option NodeIndex) (name : String) (ownLength : LengthHint)
    (kind : NodeKind A) : Building A NodeIndex := fun builder =>
  match builder.checkName parent name with
  | .ok () => .ok ⟨builder.nodes.size⟩ (builder.push parent name ownLength kind)
  | .error e => .error e builder

/-- Declares a node that only groups its children, which see what the parent's children
see. -/
def group {type : ContextType A} (parent : Parent type) (name : String) :
    Building A (Parent type) := do
  return ⟨← add (some parent.index) name (.fixed 0) .group⟩

/-- Declares a node that carries a value below its parent's. -/
def carrier (parent : NodeIndex) (name : String) (carrier : Carrier A) :
    Building A NodeIndex :=
  add (some parent) name carrier.length (.carrier carrier)

/-- Declares a node whose value is on the wire. -/
def key {parent child : ContextType A} (above : Parent parent) (name : String)
    (key : ContextKey A parent child) : Building A (Parent child) := do
  return ⟨← carrier above.index name (.key key)⟩

/-- Declares a node below the root whose value comes from what is attached to the
connection. -/
def typedGroup {attached child : ContextType A} (name : String)
    (supply : A.Env → attached.El → Option child.El) : Building A (Parent child) := do
  return ⟨← carrier .root name (.attachment supply)⟩

/-- Declares a node whose value is a part of its parent's, found by `narrow` and put back by
`widen`. -/
def view {parent child : ContextType A} (above : Parent parent) (name : String)
    (narrow : A.Env → parent.El → Option child.El) (widen : A.Env → child.El → parent.El) :
    Building A (Parent child) := do
  return ⟨← carrier above.index name (.view narrow widen)⟩

/-- Declares the root of a subtree whose owner is chosen for each message, by `pick` unless
the sender chooses. -/
def dynamic (child : ContextType A) (name : String)
    (pick : Option (A.Env → child.El → Option (DynamicLink child))) :
    Building A (Parent child) := do
  return ⟨← add none name (.fixed 0) (.dynamic (pick.map (Resolver.mk child)))⟩

/-- Declares a place below `above` where a Dynamic node can hang.  On receipt `childOf` finds
the Dynamic node's value in the parent. -/
def link {owner child : ContextType A} (above : Parent owner) (target : Parent child)
    (name : String) (childOf : A.Env → owner.El → Option child.El) :
    Building A (LinkRef owner child) := do
  let builder ← get
  let isDynamic := match builder.node? target.index with
    | some node => node.kind.isDynamic
    | none => false
  if !isDynamic then throw (.notDynamic (builder.nameOf target.index))
  let index ← add (some above.index) name (.fixed 0)
    (.link target.index (.link name childOf))
  return ⟨index, target.index⟩

/-- Declares an endpoint. -/
def endpoint {type : ContextType A} (above : Parent type) (name : String)
    (decode : A.Env → type.El → MessageContext A → Callback A Unit) :
    Building A (EndpointRef type) := do
  return ⟨← add (some above.index) name .dynamic (.endpoint ⟨type, decode, none⟩)⟩

/-- Declares an endpoint that carries a value of its own below its parent's. -/
def keyedEndpoint {parent child : ContextType A} (above : Parent parent) (name : String)
    (key : ContextKey A parent child)
    (decode : A.Env → child.El → MessageContext A → Callback A Unit) :
    Building A (EndpointRef child) := do
  return ⟨← add (some above.index) name .dynamic (.keyedEndpoint (.key key) ⟨child, decode, none⟩)⟩

/-- Replaces a node of the builder. -/
def modifyNode (index : NodeIndex) (change : Node A → Node A) : Building A Unit := do
  let builder ← get
  match builder.node? index with
  | some _ => set { builder with nodes := builder.nodes.modify index.position change }
  | none => throw (.unknownNode index.position)

/-- The node with a payload of exactly `bytes` bytes, below `above`. -/
def sized (above : LengthHint) (bytes : Nat) (node : Node A) : Node A :=
  let own := match node.kind with
    | .keyedEndpoint carrier _ => carrier.length
    | _ => .fixed 0
  let ownLength := own.add (.fixed bytes)
  { node with ownLength, length := above.add ownLength }

/-- Declares an endpoint's payload to be exactly `bytes` bytes long. -/
def setPayloadLength {type : ContextType A} (endpoint : EndpointRef type) (bytes : Nat) :
    Building A Unit := do
  modifyNode endpoint.index (sized ((← get).lengthAbove endpoint.index) bytes)

/-- Declares an endpoint without payload. -/
def signal {type : ContextType A} (above : Parent type) (name : String)
    (handle : A.Env → type.El → MessageContext A → Callback A Unit) :
    Building A (EndpointRef type) := do
  let declared ← endpoint above name handle
  setPayloadLength declared 0
  return declared

/-- The node with a handler for messages of which some carrier has no value. -/
def handlingMissing (handler : MissingHandler A) (node : Node A) : Node A :=
  { node with kind := node.kind.mapEndpoint fun e => { e with onMissing := some handler } }

/-- Installs the handler that runs when a carrier on an endpoint's path has no value. -/
def onMissing {type : ContextType A} (endpoint : EndpointRef type)
    (handler : MissingHandler A) : Building A Unit := do
  let builder ← get
  match builder.node? endpoint.index with
  | none => throw (.unknownNode endpoint.index.position)
  | some node =>
    if node.kind.endpoint?.isNone then throw (.notAnEndpoint node.name)
    modifyNode endpoint.index (handlingMissing handler)

end Building

end PathWire

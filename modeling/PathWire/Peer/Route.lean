/-
Finding the wire path of a message.

Going up from the endpoint, every carrier turns its value into the one above it.  At a
Dynamic node a link is put in its place: the one the sender chose for that node, else the
one its resolver picks for the value at hand.  The climb goes on above the link with the
parent instance that belongs to it, so the path and the values are fixed together and
the receiver has nothing left to choose.
-/
import PathWire.Tree.Path

namespace PathWire

variable {A : Application}

/-- A path fixed for sending, with the value of each carrier on it, all top-down. -/
structure Route (A : Application) where
  nodes : List NodeIndex
  keys : List NodeIndex
  values : List (Value A)

namespace Route

/-- The route below which nothing has been added yet. -/
def empty : Route A := ⟨[], [], []⟩

/-- The route with one more node on top. -/
def addNode (route : Route A) (index : NodeIndex) : Route A :=
  { route with nodes := index :: route.nodes }

/-- The route with one more carrier on top. -/
def addKey (route : Route A) (index : NodeIndex) (value : Value A) : Route A :=
  { nodes := index :: route.nodes, keys := index :: route.keys, values := value :: route.values }

/-- The node above one that must have one. -/
def above (node : Node A) : Except ProtocolError NodeIndex :=
  match node.parent with
  | some parent => .ok parent
  | none => .error (.unresolvedDynamic node.name)

/-- The link to put in place of the Dynamic node `index`: the sender's choice if it is for that
node, else the resolver's. -/
def linkFor (env : A.Env) (chosen : Option (LinkChoice A)) (index : NodeIndex) (name : String)
    (resolver : Option (Resolver A)) (value : Value A) : Except ProtocolError (LinkChoice A) := do
  match chosen.filter (·.dynamic == index) with
  | some link => return link
  | none =>
    let picked ← match resolver with
      | some resolver => resolver.choose env value
      | none => pure none
    match picked with
    | some link => return link
    | none => throw (.unresolvedDynamic name)

/-- Climbs from the node `index`, whose value is `value`, to the root, on top of what lies below.
At most `left` more nodes are looked at. -/
def climb (tree : Tree A) (env : A.Env) (chosen : Option (LinkChoice A)) :
    (left : Nat) → NodeIndex → Value A → Route A → Except ProtocolError (Route A)
  | 0, _, _, below => throw (.pathTooDeep below.nodes.length tree.revision.maxPathDepth)
  | left + 1, index, value, below => do
    let node ← tree.node index
    match node.kind with
    | .root => return below
    | .dynamic resolver =>
      let link ← linkFor env chosen index node.name resolver value
      let linkNode ← tree.node link.link
      if linkNode.kind.target? != some index then
        throw (.linkMismatch linkNode.name node.name)
      climb tree env chosen left (← above linkNode) link.parent (below.addKey link.link value)
    | kind =>
      match kind.carrier? with
      | some carrier =>
        let parentValue ← carrier.toParent env value
        climb tree env chosen left (← above node) parentValue (below.addKey index value)
      | none => climb tree env chosen left (← above node) value (below.addNode index)

/-- The route of a message to an endpoint.  The node count is bounded by the path depth, so a
Dynamic node that owns itself is found out. -/
def resolve (tree : Tree A) (env : A.Env) (endpoint : NodeIndex) (value : Value A)
    (chosen : Option (LinkChoice A)) : Except ProtocolError (Route A) :=
  climb tree env chosen (tree.revision.maxPathDepth + 1) endpoint value empty

end Route

end PathWire

/-
Wire paths.

A path is the sequence of nodes a message passes, from just below the root to an
endpoint, with links in place of the Dynamic nodes they target.  Two messages travel on
the same path if their node sequences are equal.  On the wire a path is its list of
names, and reading it means walking the names down the local tree.
-/
import PathWire.Tree.Basic

namespace PathWire

variable {A : Application}

/-- A node sequence. -/
abbrev Path := List NodeIndex

/-- The node sequence in brackets. -/
def Path.display (path : Path) : String :=
  "[" ++ ", ".intercalate (path.map fun index => s!"NodeIndex({index.position})") ++ "]"

/-- A path with what is derived from it once. -/
structure ResolvedPath where
  path : Path
  /-- The nodes of the path that carry a value. -/
  keys : List NodeIndex
  /-- The size of a message without its tag. -/
  length : LengthHint
  dotted : String
  deriving DecidableEq, Repr

namespace ResolvedPath

/-- The nodes of a sequence that carry a value. -/
def carriers (tree : Tree A) : List NodeIndex → Except ProtocolError (List NodeIndex)
  | [] => return []
  | index :: rest => do
    let node ← tree.node index
    let keys ← carriers tree rest
    return if node.kind.carrier?.isSome then index :: keys else keys

/-- What is derived from a node sequence. -/
def ofNodes (tree : Tree A) (nodes : List NodeIndex) : Except ProtocolError ResolvedPath := do
  return { path := nodes
           keys := ← carriers tree nodes
           length := tree.pathLength nodes
           dotted := tree.dotted nodes }

/-- Walks a chain of names down from the end of the nodes in `above`, which end at `last`.
Gives all nodes and the last of them. -/
def walk (tree : Tree A) (above : List NodeIndex) (last : NodeIndex) :
    List String → Except ProtocolError (List NodeIndex × NodeIndex)
  | [] => .ok (above, last)
  | name :: names =>
    match tree.child? last name with
    | some child => walk tree (above ++ [child]) child names
    | none => .error (.unknownName (tree.dotted above) name)

/-- The path with the given names, which has to end at an endpoint. -/
def ofNames (tree : Tree A) (names : List String) : Except ProtocolError ResolvedPath := do
  if tree.revision.maxPathDepth < names.length then
    throw (.pathTooDeep names.length tree.revision.maxPathDepth)
  let (nodes, last) ← walk tree [] .root names
  if tree.isEndpoint last then ofNodes tree nodes else throw (.notAnEndpoint (tree.dotted nodes))

/-- The names of the path's nodes. -/
def names (path : ResolvedPath) (tree : Tree A) : List String := path.path.map tree.name

/-- The size of a message with its tag, if it is fixed. -/
def fixedLength? (path : ResolvedPath) : Option Nat := path.length.fixed?.map (· + tagBytes)

end ResolvedPath

end PathWire

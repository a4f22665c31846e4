/-
Chains: the context values of scripts.

A chain is a list of atoms, and each key on a path adds its atom to the chain above it.
Three types of context values hold chains: the unit type only the empty one, the plain
type any, and the narrow type those that end in a byte, as far as a cast checks it.
-/
import PathWire.Context.Value
import PathWire.Tree.Handle

namespace PathWire.Scenario

/-- A part of a context value: a number of 64 bits with a sign, or a text. -/
inductive Atom where
  | int (value : Int64)
  | text (value : String)
  deriving DecidableEq, Repr

/-- The atom of a number, if it fits. -/
def Atom.ofInt? (value : Int) : Option Atom :=
  if -(Bits.bound 63 : Int) ≤ value ∧ value < Bits.bound 63 then some (.int (.ofInt value))
  else none

/-- A context value. -/
abbrev Chain := List Atom

/-- A chain in a type of its own. -/
structure Narrow where
  chain : Chain
  deriving DecidableEq, Repr

/-- A narrow chain ends in a number that fits a byte. -/
def Narrow.ofChain? (chain : Chain) : Option Narrow :=
  match chain.getLast? with
  | some (.int value) =>
    if 0 ≤ value.toInt ∧ value.toInt ≤ 255 then some ⟨chain⟩ else none
  | _ => none

/-- How one chain is derived from another, where it can be. -/
inductive ChainRule where
  /-- One more atom at the end. -/
  | append (atom : Atom)
  /-- The last atom alone. -/
  | last
  /-- All but the last atom. -/
  | drop
  | same
  /-- No chain at all. -/
  | nothing
  deriving DecidableEq, Repr

/-- The chain derived by a rule. -/
def ChainRule.apply : ChainRule → Chain → Option Chain
  | append atom, chain => some (chain ++ [atom])
  | last, chain => chain.getLast?.map ([·])
  | drop, chain => if chain.isEmpty then none else some chain.dropLast
  | same, chain => some chain
  | nothing, _ => none

/-- The types of context values a script can give to a handle. -/
inductive Shape where
  | unit
  | val
  | narrow
  deriving DecidableEq, Repr

/-! ### What callbacks can look up -/

/-- What a link handle refers to. -/
structure LinkEntry where
  /-- The type of the value above the link. -/
  owner : Shape
  index : NodeIndex
  target : NodeIndex
  deriving DecidableEq, Repr

/-- The objects a scripted cache holds. -/
inductive CacheKind where
  /-- Texts. -/
  | str
  /-- Numbers. -/
  | int
  /-- Things of some kind, with their damage; things of one kind share an id. -/
  | item
  deriving DecidableEq, Repr

/-- What a cache handle refers to. -/
structure CacheEntry where
  kind : CacheKind
  name : String
  slot : Nat
  deriving DecidableEq, Repr

/-- The names a script has defined so far. -/
structure Names where
  /-- The atoms that exist in each world. -/
  worlds : List (String × List Atom) := []
  parents : List (String × Shape × NodeIndex) := []
  endpoints : List (String × Shape × NodeIndex) := []
  links : List (String × LinkEntry) := []
  caches : List (String × CacheEntry) := []

/-- Which of the kinds of handles a name stands for. -/
inductive HandleKind where
  | parent
  | endpoint
  | link
  deriving DecidableEq, Repr

/-- The node a handle refers to; a name is looked up among the parents, then the endpoints,
then the links. -/
def Names.handle? (names : Names) (name : String) : Option (HandleKind × NodeIndex) :=
  match names.parents.lookup name, names.endpoints.lookup name, names.links.lookup name with
  | some (_, index), _, _ => some (.parent, index)
  | none, some (_, index), _ => some (.endpoint, index)
  | none, none, some link => some (.link, link.index)
  | none, none, none => none

/-- Whether an atom exists in a world; a world that was never defined is empty. -/
def Names.exists? (names : Names) (world : String) (atom : Atom) : Bool :=
  ((names.worlds.lookup world).getD []).contains atom

end PathWire.Scenario

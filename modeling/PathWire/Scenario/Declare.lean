/-
Scripted declarations: trees whose callbacks follow data.

A key writes the last atom of its chain with one codec field and reads it back below its
parent's chain; with a world it also checks that the atom exists there.  An endpoint reads
a list of fields, reports what it saw, and may refuse in the end.
-/
import PathWire.Scenario.App
import PathWire.Text.Hex

namespace PathWire.Scenario

/-! ### Atoms on the wire -/

/-- The number of an atom, if it is one below `bound`. -/
def Atom.below? (bound : Nat) : Atom → Option Nat
  | int value =>
    if 0 ≤ value.toInt ∧ value.toInt < bound then some value.toInt.toNat else none
  | text _ => none

/-- The number of an atom, if it is one of at least `-bound` and below `bound`. -/
def Atom.within? (bound : Nat) : Atom → Option Int
  | int value =>
    if -(bound : Int) ≤ value.toInt ∧ value.toInt < bound then some value.toInt else none
  | text _ => none

/-- The text of an atom, if it is one. -/
def Atom.text? : Atom → Option String
  | text value => some value
  | int _ => none

/-- The write that matches a read, for the value an atom stands for. -/
def writeOf? (atom : Atom) : ReadOp → Option WriteOp
  | .facing => (atom.below? (Bits.bound 32)).map .facing
  | .gappy => (atom.below? (Bits.bound 32)).map .gappy
  | .field read =>
    match read with
    | .bits width => (atom.below? (Bits.bound 32)).map fun n => .field (.bits n width)
    | .enum count => (atom.below? (Bits.bound 32)).map fun n => .field (.enum n count)
    | .u8 => (atom.below? (Bits.bound 8)).map fun n => .field (.u8 (UInt8.ofNat n))
    | .u16 => (atom.below? (Bits.bound 16)).map fun n => .field (.u16 (UInt16.ofNat n))
    | .u32 => (atom.below? (Bits.bound 32)).map fun n => .field (.u32 (UInt32.ofNat n))
    | .u64 => (atom.below? (Bits.bound 64)).map fun n => .field (.u64 (UInt64.ofNat n))
    | .f32 => (atom.below? (Bits.bound 32)).map fun n => .field (.f32 (UInt32.ofNat n))
    | .f64 => (atom.below? (Bits.bound 64)).map fun n => .field (.f64 (UInt64.ofNat n))
    | .varI32 => (atom.within? (Bits.bound 31)).map fun n => .field (.varI32 (Int32.ofInt n))
    | .varI64 => (atom.within? (Bits.bound 63)).map fun n => .field (.varI64 (Int64.ofInt n))
    | .varU32 => (atom.below? (Bits.bound 32)).map fun n => .field (.varU32 (UInt32.ofNat n))
    | .varU64 => (atom.below? (Bits.bound 64)).map fun n => .field (.varU64 (UInt64.ofNat n))
    | .block _ => (atom.text?.bind Hex.decode?).map fun data => .field (.block data)
    | .str limit => atom.text?.map fun text => .field (.str text limit)
    | .ident => atom.text?.map .identText
    | .bool | .identSafe => none

/-- The atom that stands for a value read, if one does.  Of the numbers of 64 bits without a
sign only the lower half fits an atom. -/
def atomOf? : FieldValue → Option Atom
  | .bits value | .enum value => Atom.ofInt? value
  | .u8 value => Atom.ofInt? value.toNat
  | .u16 value => Atom.ofInt? value.toNat
  | .u32 value | .f32 value | .varU32 value => Atom.ofInt? value.toNat
  | .u64 value | .f64 value | .varU64 value => Atom.ofInt? value.toNat
  | .varI32 value => Atom.ofInt? value.toInt
  | .varI64 value => Atom.ofInt? value.toInt
  | .block data => some (.text (Hex.encode data))
  | .str text => some (.text text)
  | .ident id => some (.text id.display)
  | .bool _ | .identSafe _ => none

/-! ### Keys -/

/-- How a scripted key puts its atom on the wire. -/
structure KeySpec where
  codec : ReadOp
  /-- The number of bytes, if it is fixed. -/
  length : Option Nat
  /-- The world whose atoms exist, if not all do. -/
  world : Option String

namespace KeySpec

/-- Writes the last atom of a chain. -/
def write (spec : KeySpec) (chain : Chain) (enc : Encoder) : Except ProtocolError Encoder :=
  match chain.getLast? with
  | none => .error (.handler "empty key value")
  | some atom =>
    match writeOf? atom spec.codec with
    | none => .error (.handler "bad atom")
    | some op => liftCodec (op.apply enc)

/-- Whether an atom exists on this side. -/
def accepts (spec : KeySpec) (names : Names) (atom : Atom) : Bool :=
  match spec.world with
  | some world => names.exists? world atom
  | none => true

/-- Reads an atom below a chain. -/
def read (spec : KeySpec) (names : Names) (above : Chain) : MessageReader (Option Chain) := do
  let value ← spec.codec.run.inMessage
  match atomOf? value with
  | none => throw (.handler "bad atom")
  | some atom => return if spec.accepts names atom then some (above ++ [atom]) else none

/-- The key below a parent of the given shape. -/
def key (spec : KeySpec) (parent : Shape) : ContextKey app parent.type valType where
  length := match spec.length with
    | some bytes => .fixed bytes
    | none => .dynamic
  parentOf := fun _ chain => parent.ofChain (List.dropLast chain)
  write := fun _ chain enc => spec.write chain enc
  read := fun names above => spec.read names (parent.toChain above)

end KeySpec

/-! ### Endpoints -/

/-- One read of a payload. -/
inductive PayloadRead where
  | op (read : ReadOp)
  /-- An id of the named cache, resolved there. -/
  | cached (cache : String)

/-- What a scripted endpoint does with a message. -/
structure HandlerSpec where
  reads : List PayloadRead
  /-- The nodes whose values are reported. -/
  watched : List String
  /-- Why the endpoint refuses in the end, if it does. -/
  refusal : Option String

/-- The refusal of a callback that has one. -/
def refuse (refusal : Option String) : Except ProtocolError Unit :=
  match refusal with
  | some reason => .error (.handler reason)
  | none => .ok ()

namespace HandlerSpec

/-- Resolves an id in a named cache. -/
def resolveNamed (names : Names) (cache : String) (caches : CacheStore app) (id : Nat) :
    Except ProtocolError CachedObject :=
  match names.caches.lookup cache with
  | none => .error (.handler "unknown cache")
  | some entry =>
    let found : Except ProtocolError (app.Object entry.kind) :=
      ObjectCache.resolveIn entry.name entry.slot entry.kind caches id
    found.map (CachedObject.of entry.kind)

/-- Reads one part of the payload. -/
def readOne (names : Names) : PayloadRead → Callback app ReadAnswer
  | .op read => return .field (← Callback.reading read.run.inMessage)
  | .cached cache => do
    let id ← Callback.reading Reader.varU32.inMessage
    match resolveNamed names cache (← get).caches id.toNat with
    | .ok object => return .object object
    | .error cause => throw cause

/-- Reads the payload, reports the message, and refuses it if the script says so. -/
def decode (spec : HandlerSpec) (shape : Shape) (names : Names) (value : shape.type.El)
    (ctx : MessageContext app) : Callback app Unit := do
  let reads ← spec.reads.mapM (readOne names)
  Callback.emit (Event.received ctx.id ctx.node ctx.path (shape.toChain value)
    ((ctx.nearest? shape.type).map shape.toChain) reads (ctx.attached? valType)
    (watch names ctx spec.watched))
  match refuse spec.refusal with
  | .ok () => return ()
  | .error cause => throw cause

end HandlerSpec

/-- Whether a named node's value is among the missing ones. -/
def containsNamed (names : Names) (missing : MissingKeys) (name : String) :
    String × Option Bool :=
  (name, (names.parents.lookup name).map fun (shape, index) =>
    missing.contains (Parent.mk index : Parent shape.type))

/-- A scripted handler for messages whose keys have no value. -/
def missingHandler (watched : List String) (refusal : Option String) : MissingHandler app :=
  fun names missing ctx _ =>
    let event := Event.missing ctx.id ctx.path missing
      (watched.map (containsNamed names missing)) (ctx.nearest? valType) (watch names ctx watched)
    ⟨[event], refuse refusal⟩

/-! ### Dynamic nodes -/

/-- One rule of a scripted resolver. -/
structure OwnerRule where
  /-- The last atom of the values the rule is for; none for all values. -/
  last : Option Atom
  /-- The link to use. -/
  link : String
  /-- The chain of the owner; none for the value without its last atom. -/
  owner : Option Chain

/-- The link with the given name, below the given chain. -/
def linkTo? (names : Names) (name : String) (owner : Chain) : Option (DynamicLink valType) :=
  (names.links.lookup name).map fun entry =>
    ⟨entry.owner.type, ⟨entry.index, entry.target⟩, entry.owner.ofChain owner⟩

/-- Whether a rule is for a value. -/
def OwnerRule.isFor (rule : OwnerRule) (chain : Chain) : Bool :=
  match rule.last with
  | none => true
  | some atom => chain.getLast? == some atom

/-- The link that the first matching rule picks for a value. -/
def pickOwner (rules : List OwnerRule) (names : Names) (chain : Chain) :
    Option (DynamicLink valType) :=
  (rules.find? (·.isFor chain)).bind fun rule =>
    linkTo? names rule.link (rule.owner.getD chain.dropLast)

/-! ### Caches -/

/-- A cache that a script has declared. -/
structure AnyCache where
  kind : CacheKind
  cache : ObjectCache app kind

/-- How objects of a cache are told apart and put on the wire; texts are bounded by
`limit`. -/
def objectCodec (limit : Nat) : (kind : CacheKind) → ObjectCodec app kind
  | .str => {
      keyOf := fun text => text
      write := fun _ text enc => liftCodec (enc.writeStr text limit)
      read := fun _ => (Reader.str limit).inMessage }
  | .int => {
      keyOf := fun number => number
      write := fun _ number enc => .ok (enc.writeVarU32 number)
      read := fun _ => Reader.varU32.inMessage }
  | .item => {
      keyOf := Item.kind
      write := fun _ (item : Item) enc => do
        return (← liftCodec (enc.writeStr item.kind limit)).writeU16 item.damage
      read := fun _ => do
        let kind ← (Reader.str limit).inMessage
        return Item.mk kind (← Reader.u16.inMessage) }

/-! ### Declarations -/

/-- What a script declares as a node. -/
inductive Declaration where
  | group
  | key (spec : KeySpec)
  | typedGroup (supply : ChainRule)
  /-- A view that narrows a plain chain, or else does nothing. -/
  | cast (toNarrow : Bool)
  | extractor (extract lift : ChainRule)
  | dynamic (rules : Option (List OwnerRule))
  | link (target : String) (childOf : ChainRule)
  | endpoint (handler : HandlerSpec)
  | signal (handler : HandlerSpec)
  | keyedEndpoint (spec : KeySpec) (handler : HandlerSpec)
  | cache (kind : CacheKind) (limit : Nat) (capacity : Option UInt32)

/-- What a declaration gives. -/
inductive Declared where
  | parent (shape : Shape) (index : NodeIndex)
  | endpoint (shape : Shape) (index : NodeIndex)
  | link (entry : LinkEntry)
  | cache (cache : AnyCache)

/-- The node a declaration made. -/
def Declared.index : Declared → NodeIndex
  | parent _ index | endpoint _ index => index
  | link entry => entry.index
  | cache declared => declared.cache.endpoint.index

/-- Declares a view on a parent. -/
def declareCast (shape : Shape) (parent : Parent shape.type) (name : String) (toNarrow : Bool) :
    Building app Declared :=
  match shape, parent, toNarrow with
  | .val, parent, true => do
    let node : Parent narrowType ← Building.view parent name
      (fun _ chain => Narrow.ofChain? chain) (fun _ value => Narrow.chain value)
    return .parent .narrow node.index
  | shape, parent, _ => do
    let node : Parent shape.type ← Building.view parent name
      (fun _ value => some value) (fun _ value => value)
    return .parent shape node.index

/-- Declares a view that takes part of a parent's chain. -/
def declareExtractor (shape : Shape) (parent : Parent shape.type) (name : String)
    (extract lift : ChainRule) : Building app Declared := do
  let node : Parent valType ← Building.view parent name
    (fun _ value => extract.apply (shape.toChain value))
    (fun _ chain => shape.ofChain ((lift.apply chain).getD []))
  return .parent .val node.index

/-- Declares a cache. -/
def declareCache (name : String) (kind : CacheKind) (limit : Nat) (capacity : Option UInt32) :
    Building app Declared := do
  let cache ← match capacity with
    | some entries => Building.cacheWithCapacity name (objectCodec limit kind) entries
    | none => Building.cache name (objectCodec limit kind)
  return .cache ⟨kind, cache⟩

/-- Makes a declaration below a parent.  The target of a link is the index of a Dynamic
node. -/
def Declaration.run (names : Names) (shape : Shape) (parent : Parent shape.type)
    (name : String) : Declaration → Option (Building app Declared)
  | group => some do return .parent shape (← Building.group parent name).index
  | key spec => some do
    return .parent .val (← Building.key parent name (spec.key shape)).index
  | typedGroup supply => some do
    let node : Parent valType ← Building.typedGroup name
      fun _ (attached : valType.El) => supply.apply attached
    return .parent .val node.index
  | cast toNarrow => some (declareCast shape parent name toNarrow)
  | extractor extract lift => some (declareExtractor shape parent name extract lift)
  | dynamic rules => some do
    return .parent .val (← Building.dynamic valType name (rules.map pickOwner)).index
  | link target childOf =>
    match names.parents.lookup target with
    | some (.val, index) => some do
      let link : LinkRef shape.type valType ← Building.link parent ⟨index⟩ name
        fun _ value => childOf.apply (shape.toChain value)
      return .link ⟨shape, link.index, link.target⟩
    | _ => none
  | endpoint handler => some do
    return .endpoint shape (← Building.endpoint parent name (handler.decode shape)).index
  | signal handler => some do
    return .endpoint shape (← Building.signal parent name (handler.decode shape)).index
  | keyedEndpoint spec handler => some do
    let node ← Building.keyedEndpoint parent name (spec.key shape) (handler.decode .val)
    return .endpoint .val node.index
  | cache kind limit capacity => some (declareCache name kind limit capacity)

end PathWire.Scenario

/-
Keys and values.

A key may be dotted: its parts lead through tables to the key proper.  Arrays may run over
several lines and end in a comma; tables in braces do neither.
-/
import PathWire.Toml.Moment
import PathWire.Toml.Number

namespace PathWire.Toml

/-- How deep arrays and tables in braces may stand in each other, and how many parts a key
may have. -/
def nestingLimit : Nat := 79

/-! ### Keys -/

/-- A dotted key. -/
structure Key where
  /-- The tables it goes through. -/
  path : List String
  /-- The key in the last of them. -/
  last : String
  deriving DecidableEq, Repr

/-- Characters of a key without quotes. -/
def isBare (c : Char) : Bool := c.isAlphanum || c == '_' || c == '-'

/-- A key without quotes. -/
def bareKey : Rule String :=
  (Rule.run isBare).checked fun chars =>
    if chars.isEmpty then none else some (String.ofList chars)

/-- One part of a dotted key. -/
def keyPart : Rule String := basicText <|> literalText <|> bareKey

/-- A key, with the blanks around it. -/
def key : Rule Key :=
  (Rule.separated (padded blanks keyPart) (Rule.word ".")).checked fun parts =>
    if nestingLimit < parts.length then none
    else parts.getLast?.map fun last => ⟨parts.dropLast, last⟩

/-! ### Values -/

/-- A truth value. -/
def boolean : Rule Bool :=
  (do Rule.word "true"; return true) <|> (do Rule.word "false"; return false)

/-- A value that holds no others. -/
def scalar : Rule Value :=
  (Value.text <$> quotedText) <|> (Value.moment <$> moment) <|> (Value.real <$> real) <|>
    (Value.integer <$> integer) <|> (Value.boolean <$> boolean)

/-- An array in brackets. -/
def array (item : Rule Value) : Rule Value := do
  Rule.word "["
  let items ← (do
    let items ← Rule.separated (padded gap item) (Rule.word ",")
    let _ ← Rule.optional (Rule.word ",")
    return items) <|> pure []
  gap
  Rule.word "]"
  return .array .fixed items

/-- A key and its value, in a table in braces. -/
def pair (item : Rule Value) : Rule (Key × Value) := do
  let name ← key
  Rule.word "="
  return (name, ← padded blanks item)

/-- A table in braces. -/
def braceTable (item : Rule Value) : Rule Value := do
  Rule.word "\x7b"
  let pairs ← Rule.separated (pair item) (Rule.word ",") <|> pure []
  blanks
  Rule.word "\x7d"
  let entries ← StateT.lift <| pairs.foldlM
    (fun (entries : Entries) (name, value) => entries.addDotted? name.path name.last value) []
  return .table .braces entries

/-- A value, with at most so many arrays and tables around any part of it. -/
def valueWithin : (depth : Nat) → Rule Value
  | 0 => scalar
  | depth + 1 => scalar <|> array (valueWithin depth) <|> braceTable (valueWithin depth)

/-- A value. -/
def value : Rule Value := valueWithin nestingLimit

end PathWire.Toml

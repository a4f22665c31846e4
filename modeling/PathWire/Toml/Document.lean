/-
Settings files.

A file is a sequence of statements, one to a line: keys with their values, and headers,
which say to which table the keys after them belong.  Reading a file finds its
statements; carrying them out one after the other makes its table.
-/
import PathWire.Toml.Expression

namespace PathWire.Toml

/-- A line that says something. -/
inductive Statement where
  /-- A key and its value. -/
  | entry (key : Key) (value : Value)
  /-- The keys that follow are of this table. -/
  | header (key : Key)
  /-- The keys that follow are of a new table at the end of this array. -/
  | element (key : Key)
  deriving Repr

/-! ### Finding the statements -/

/-- A header between brackets. -/
def bracketed (opening closing : String) : Rule Key := do
  Rule.word opening
  let name ← key
  Rule.word closing
  lineRest
  return name

/-- A key and its value on a line of their own. -/
def entry : Rule Statement := do
  let name ← key
  Rule.word "="
  blanks
  let value ← value
  lineRest
  return .entry name value

/-- A statement with the rest of its line. -/
def statement : Rule Statement :=
  (Statement.element <$> bracketed "[[" "]]") <|> (Statement.header <$> bracketed "[" "]") <|>
    entry

/-- A line, with its statement if it has one. -/
def line : Rule (Option Statement) :=
  (do newline; return none) <|> (do comment; lineEnd; return none) <|> (some <$> statement)

/-- All statements of a file, which may start with a byte order mark. -/
def statements : Rule (List Statement) := do
  let _ ← Rule.optional (Rule.word "\uFEFF")
  blanks
  let lines ← Rule.many (line <* blanks)
  Rule.atEnd
  return lines.reduceOption

/-! ### Carrying them out -/

/-- A file's table as far as it has been read, and the table that the next keys belong to. -/
structure Draft where
  entries : Entries := []
  current : List String := []
  deriving Repr

namespace Draft

/-- The table of a key gets its header. -/
def openTable? (key : String) (entries : Entries) : Option Entries :=
  match entries.lookup key with
  | none => some (entries ++ [(key, .table .header [])])
  | some (.table .implied inner) => some (entries.set key (.table .header inner))
  | some _ => none

/-- The array of a key gets a new table. -/
def openElement? (key : String) (entries : Entries) : Option Entries :=
  match entries.lookup key with
  | none => some (entries ++ [(key, .array .growing [.table .header []])])
  | some (.array .growing items) =>
    some (entries.set key (.array .growing (items ++ [.table .header []])))
  | some _ => none

/-- Changes the table at a path; tables on the way are implied by it. -/
def changeAt? (draft : Draft) (path : List String) (change : Entries → Option Entries) :
    Option Entries :=
  Entries.modifyAt .implied (fun _ => change) path .header draft.entries

/-- Carries out a statement. -/
def perform? (draft : Draft) : Statement → Option Draft
  | .entry key value => do
    let entries ← draft.changeAt? draft.current fun table =>
      table.addDotted? key.path key.last value
    return { draft with entries }
  | .header key => do
    return ⟨← draft.changeAt? key.path (openTable? key.last), key.path ++ [key.last]⟩
  | .element key => do
    return ⟨← draft.changeAt? key.path (openElement? key.last), key.path ++ [key.last]⟩

end Draft

/-- The table that a text writes, if it is a settings file. -/
def read? (text : String) : Option Entries := do
  let (statements, _) ← statements text.toList
  let draft ← statements.foldlM Draft.perform? {}
  return draft.entries

end PathWire.Toml

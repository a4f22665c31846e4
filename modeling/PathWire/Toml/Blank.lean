/-
What separates the parts of a settings file: blanks, ends of lines and comments.
-/
import PathWire.Toml.Rule

namespace PathWire.Toml

/-- Characters outside ASCII. -/
def isForeign (c : Char) : Bool := 0x80 ≤ c.toNat

/-- Blanks within a line. -/
def isBlank (c : Char) : Bool := c = ' ' || c = '\t'

/-- What may stand in a line: no control character but the tab. -/
def isPrinting (c : Char) : Bool := c = '\t' || (0x20 ≤ c.toNat && c.toNat ≤ 0x7E) || isForeign c

/-- Blanks within a line, perhaps none. -/
def blanks : Rule Unit := do
  let _ ← Rule.run isBlank

/-- The end of a line that is not the last. -/
def newline : Rule Unit := Rule.word "\n" <|> Rule.word "\r\n"

/-- The end of a line. -/
def lineEnd : Rule Unit := newline <|> Rule.atEnd

/-- A comment, up to the end of its line. -/
def comment : Rule Unit := do
  Rule.word "#"
  let _ ← Rule.run isPrinting

/-- What may follow a complete statement on its line. -/
def lineRest : Rule Unit := do
  blanks
  let _ ← Rule.optional comment
  lineEnd

/-- Blanks and ends of lines, perhaps none. -/
def blankLines : Rule Unit := do
  let _ ← Rule.many ((do let _ ← Rule.one isBlank) <|> newline)

/-- Blanks, ends of lines and comments, perhaps none: what may surround the elements of an
array. -/
def gap : Rule Unit := do
  let _ ← Rule.many ((do let _ ← Rule.one isBlank) <|> newline <|> (comment *> newline))

/-- A rule with blanks on both sides. -/
def padded {α : Type} (space : Rule Unit) (rule : Rule α) : Rule α := do
  space
  let value ← rule
  space
  return value

end PathWire.Toml

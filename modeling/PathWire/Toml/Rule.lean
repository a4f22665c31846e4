/-
Rules of a grammar.

A rule reads a value off the front of a text and leaves what follows, or it does not
apply and has read nothing.  Rules are joined in sequence, by choice and by repetition.
-/
namespace PathWire.Toml

/-- Reads a value off the front of a text, or does not apply. -/
abbrev Rule (α : Type) := StateT (List Char) Option α

namespace Rule

variable {α : Type}

/-- One character of a class. -/
def one (allowed : Char → Bool) : Rule Char
  | c :: rest => if allowed c then some (c, rest) else none
  | [] => none

/-- The given characters. -/
def word (letters : String) : Rule Unit := fun text =>
  if letters.toList.isPrefixOf text then some ((), text.drop letters.length) else none

/-- As many characters of a class as there are. -/
def run (allowed : Char → Bool) : Rule (List Char) := fun text => some (text.span allowed)

/-- Exactly so many characters of a class. -/
def exactly (count : Nat) (allowed : Char → Bool) : Rule (List Char) := fun text =>
  let front := text.take count
  if front.length = count ∧ front.all allowed then some (front, text.drop count) else none

/-- The end of the text. -/
def atEnd : Rule Unit
  | [] => some ((), [])
  | _ :: _ => none

/-- What a rule reads, if it applies. -/
def optional (rule : Rule α) : Rule (Option α) := (some <$> rule) <|> pure none

/-- What a rule reads as long as it applies, at most so many times. -/
def upTo (rule : Rule α) : Nat → Rule (List α)
  | 0 => pure []
  | limit + 1 => fun text =>
    match rule text with
    | some (first, rest) => do
      let (more, rest) ← upTo rule limit rest
      some (first :: more, rest)
    | none => some ([], text)

/-- What a rule reads as long as it applies.  The rule never reads nothing, so that the
text's length bounds how often. -/
def many (rule : Rule α) : Rule (List α) := fun text => upTo rule text.length text

/-- What a rule reads again and again, with a separator between. -/
def separated (rule : Rule α) (separator : Rule Unit) : Rule (List α) := do
  let first ← rule
  return first :: (← many (separator *> rule))

/-- A value that passes a check. -/
def checked {β : Type} (rule : Rule α) (check : α → Option β) : Rule β := do
  let value ← rule
  StateT.lift (check value)

end Rule

end PathWire.Toml

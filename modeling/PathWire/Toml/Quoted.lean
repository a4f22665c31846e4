/-
Quoted text.

Text in double quotes has escapes, text in single quotes has none.  Each may also be
given in three quotes on both sides; such a text may run over several lines, and may
hold one or two of its quotes in a row anywhere, also right before the closing three.
-/
import PathWire.Toml.Blank

namespace PathWire.Toml

/-! ### Escapes -/

/-- The value of a hexadecimal digit. -/
def hexValue (c : Char) : Nat :=
  if c.isDigit then c.toNat - '0'.toNat
  else if 'a' ≤ c then c.toNat - 'a'.toNat + 10
  else c.toNat - 'A'.toNat + 10

/-- Hexadecimal digits. -/
def isHexDigit (c : Char) : Bool :=
  c.isDigit || ('a' ≤ c && c ≤ 'f') || ('A' ≤ c && c ≤ 'F')

/-- The number that digits write in a base. -/
def ofDigits (base : Nat) (digits : List Char) : Nat :=
  digits.foldl (fun number digit => number * base + hexValue digit) 0

/-- The character with a code; surrogates and numbers beyond the last code have none. -/
def charOfCode? (code : Nat) : Option Char :=
  if code.isValidChar then some (Char.ofNat code) else none

/-- A character by its code in so many hexadecimal digits. -/
def codeEscape (digits : Nat) : Rule Char :=
  (Rule.exactly digits isHexDigit).checked fun ds => charOfCode? (ofDigits 16 ds)

/-- What a letter after a backslash stands for. -/
def letterEscape? : Char → Option Char
  | 'b' => some '\x08'
  | 'f' => some '\x0c'
  | 'n' => some '\n'
  | 'r' => some '\r'
  | 't' => some '\t'
  | '"' => some '"'
  | '\\' => some '\\'
  | _ => none

/-- An escaped character. -/
def escape : Rule Char := do
  Rule.word "\\"
  (Rule.word "u" *> codeEscape 4) <|> (Rule.word "U" *> codeEscape 8) <|>
    (Rule.one fun _ => true).checked letterEscape?

/-! ### On one line -/

/-- Characters that stand for themselves between double quotes. -/
def isPlain (c : Char) : Bool := isPrinting c && c ≠ '"' && c ≠ '\\'

/-- Characters that stand for themselves between single quotes. -/
def isLiteral (c : Char) : Bool := isPrinting c && c ≠ '\x27'

/-- Text in double quotes. -/
def basicText : Rule String := do
  Rule.word "\""
  let chars ← Rule.many (Rule.one isPlain <|> escape)
  Rule.word "\""
  return String.ofList chars

/-- Text in single quotes. -/
def literalText : Rule String := do
  Rule.word "'"
  let chars ← Rule.run isLiteral
  Rule.word "'"
  return String.ofList chars

/-! ### On several lines -/

/-- An end of line in a text, however it was written. -/
def textNewline : Rule Char := do
  newline
  return '\n'

/-- One or two quotes within a text. -/
def innerQuotes (quote : Char) : Rule (List Char) :=
  (Rule.run (· == quote)).checked fun quotes =>
    if quotes.length = 1 ∨ quotes.length = 2 then some quotes else none

/-- The closing three quotes, with up to two before them that belong to the text. -/
def closingQuotes (quote : Char) : Rule (List Char) := do
  let _ ← Rule.exactly 3 (· == quote)
  let first ← Rule.optional (Rule.one (· == quote))
  let second ← Rule.optional (Rule.one (· == quote))
  return first.toList ++ second.toList

/-- A backslash at the end of a line, which joins the next text to it: blanks and ends of
lines between count for nothing. -/
def joinedLine : Rule (List Char) := do
  Rule.word "\\"
  blanks
  newline
  blankLines
  return []

/-- Text in three quotes on both sides, of the given parts. An end of line right after the
opening quotes does not belong to it. -/
def longText (quote : Char) (part : Rule (List Char)) : Rule String := do
  let _ ← Rule.exactly 3 (· == quote)
  let _ ← Rule.optional newline
  let parts ← Rule.many (part <|> innerQuotes quote)
  let last ← closingQuotes quote
  return String.ofList (parts.flatten ++ last)

/-- Text in three double quotes. -/
def longBasicText : Rule String :=
  longText '"' (joinedLine <|> (([·]) <$> (Rule.one isPlain <|> escape <|> textNewline)))

/-- Text in three single quotes. -/
def longLiteralText : Rule String :=
  longText '\x27' (([·]) <$> (Rule.one isLiteral <|> textNewline))

/-- Any quoted text. -/
def quotedText : Rule String := longBasicText <|> basicText <|> longLiteralText <|> literalText

end PathWire.Toml

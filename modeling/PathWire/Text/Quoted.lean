/-
Quoting a text for display.

A quoted text stands between double quotes.  Quotes and backslashes inside are escaped by
a backslash, line ends and tabs by their letters, and other characters without a shape by
their number.
-/
import PathWire.Text.Shapeless

namespace PathWire.Quoted

/-- The number of a character in the least number of hexadecimal digits. -/
def hexNumber (c : Char) : String := String.ofList (Nat.toDigits 16 c.toNat)

/-- A character as it stands inside quotes. -/
def escape (c : Char) : String :=
  match c with
  | '"' => "\\\""
  | '\\' => "\\\\"
  | '\n' => "\\n"
  | '\r' => "\\r"
  | '\t' => "\\t"
  | '\x00' => "\\0"
  | c => if isShapeless c then "\\u\x7b" ++ hexNumber c ++ "\x7d" else c.toString

/-- The quoted text. -/
def quote (text : String) : String := "\"" ++ String.join (text.toList.map escape) ++ "\""

end PathWire.Quoted

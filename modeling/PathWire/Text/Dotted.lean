/-
Dotted names.

A path is shown as the names of its nodes with dots between them.  No node name holds a
dot, so a dotted name can be taken apart again.
-/

namespace PathWire.Dotted

/-- The names with dots between them. -/
def join (names : List String) : String := ".".intercalate names

/-- The stretches between the dots of a text. -/
def splitChars : List Char → List (List Char)
  | [] => [[]]
  | c :: rest =>
    if c = '.' then [] :: splitChars rest
    else match splitChars rest with
      | [] => [[c]]
      | first :: others => (c :: first) :: others

/-- The names between the dots of a text; a text without dots is one name. -/
def split (text : String) : List String := (splitChars text.toList).map String.ofList

end PathWire.Dotted

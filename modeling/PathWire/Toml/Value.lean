/-
What a settings file says.

A value is a scalar, an array or a table.  A table also remembers how it was written,
because that decides what the lines after it may still add to it: a table in braces is
complete, one that has had its header gets no second one, and one that a longer name
merely mentions may still get it.
-/
namespace PathWire.Toml

/-- A day of the calendar. -/
structure Date where
  year : Nat
  month : Nat
  day : Nat
  deriving DecidableEq, Repr

/-- A time of day. -/
structure Time where
  hour : Nat
  minute : Nat
  second : Nat
  nanosecond : Nat
  deriving DecidableEq, Repr

/-- How far a time is ahead of universal time. -/
inductive Offset where
  | universal
  | minutes (ahead : Int)
  deriving DecidableEq, Repr

/-- A day, a time of day, or both; only both together may have an offset. -/
inductive Moment where
  | date (date : Date)
  | time (time : Time)
  | both (date : Date) (time : Time) (offset : Option Offset)
  deriving DecidableEq, Repr

/-- A number written with a point, an exponent, or as a word. -/
inductive Real where
  /-- The digits, times ten to the exponent. -/
  | decimal (negative : Bool) (digits : Nat) (exponent : Int)
  | infinity (negative : Bool)
  | nan (negative : Bool)
  deriving DecidableEq, Repr

/-- How a table came to be. -/
inductive Origin where
  /-- Written in braces. -/
  | braces
  /-- Under a header of its own. -/
  | header
  /-- On the way to a longer header. -/
  | implied
  /-- On the way to a dotted key. -/
  | dotted
  deriving DecidableEq, Repr

/-- How an array came to be. -/
inductive Growth where
  /-- Written in brackets. -/
  | fixed
  /-- One element for each header in double brackets. -/
  | growing
  deriving DecidableEq, Repr

/-- A value of a settings file. -/
inductive Value where
  | text (chars : String)
  | integer (number : Int)
  | real (number : Real)
  | boolean (truth : Bool)
  | moment (moment : Moment)
  | array (growth : Growth) (items : List Value)
  | table (origin : Origin) (entries : List (String × Value))
  deriving Repr

/-- The entries of a table, in the order in which their keys appear. -/
abbrev Entries := List (String × Value)

namespace Entries

/-- Gives a key a value, in place of the one it has. -/
def set (key : String) (value : Value) : Entries → Entries
  | [] => [(key, value)]
  | (other, old) :: rest =>
    if other = key then (key, value) :: rest else (other, old) :: set key value rest

/-- A new key; a key is given once. -/
def add? (entries : Entries) (key : String) (value : Value) : Option Entries :=
  match entries.lookup key with
  | none => some (entries ++ [(key, value)])
  | some _ => none

/-- Changes the table at the end of a path.  Tables on the way that are not there come to
be in the way given; the way of an array leads to its last table.  Dotted keys never
reach into a table that has a header, and nothing reaches into a value in braces or
brackets. -/
def modifyAt (way : Origin) (change : Origin → Entries → Option Entries) :
    (path : List String) → (origin : Origin) → Entries → Option Entries
  | [], origin, entries => change origin entries
  | part :: path, _, entries =>
    match entries.lookup part with
    | none => do
      let inner ← modifyAt way change path way []
      return entries.set part (.table way inner)
    | some (.table origin inner) =>
      if origin = .braces ∨ (way = .dotted ∧ origin = .header) then none
      else do
        let inner ← modifyAt way change path origin inner
        return entries.set part (.table origin inner)
    | some (.array .growing items) =>
      match items.getLast? with
      | some (.table origin inner) => do
        let inner ← modifyAt way change path origin inner
        return entries.set part (.array .growing (items.dropLast ++ [.table origin inner]))
      | _ => none
    | some _ => none

/-- Gives a dotted key a value.  The table that gets it is the one at hand, or one that
has only ever been mentioned by dotted keys. -/
def addDotted? (entries : Entries) (path : List String) (key : String) (value : Value) :
    Option Entries :=
  modifyAt .dotted
    (fun origin inner =>
      if path ≠ [] ∧ origin ≠ .dotted then none else add? inner key value)
    path .header entries

end Entries

end PathWire.Toml

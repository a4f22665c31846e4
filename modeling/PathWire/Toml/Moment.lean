/-
Dates and times of day.

Every part has a fixed number of digits and lies in its range; the day lies in its month.
A second may be the sixtieth, and of a second's fraction nine digits count.
-/
import PathWire.Toml.Quoted
import PathWire.Toml.Value

namespace PathWire.Toml

/-- A number of so many digits, between a least and a greatest. -/
def bounded (digits least greatest : Nat) : Rule Nat :=
  (Rule.exactly digits Char.isDigit).checked fun ds =>
    let number := ofDigits 10 ds
    if least ≤ number ∧ number ≤ greatest then some number else none

/-- How many days a month has. -/
def daysIn (year month : Nat) : Nat :=
  if month = 2 then
    if year % 4 = 0 ∧ (year % 100 ≠ 0 ∨ year % 400 = 0) then 29 else 28
  else if month = 4 ∨ month = 6 ∨ month = 9 ∨ month = 11 then 30
  else 31

/-- A day, as in `2001-02-03`. -/
def date : Rule Date := do
  let year ← bounded 4 0 9999
  Rule.word "-"
  let month ← bounded 2 1 12
  Rule.word "-"
  let day ← bounded 2 1 (daysIn year month)
  return ⟨year, month, day⟩

/-- A fraction of a second in nanoseconds, as in `.25`. -/
def secondFraction : Rule Nat := do
  Rule.word "."
  let first ← Rule.one Char.isDigit
  let more ← Rule.run Char.isDigit
  let counted := (first :: more).take 9
  return ofDigits 10 counted * Nat.pow 10 (9 - counted.length)

/-- A time of day, as in `07:08:09.25`. -/
def time : Rule Time := do
  let hour ← bounded 2 0 23
  Rule.word ":"
  let minute ← bounded 2 0 59
  Rule.word ":"
  let second ← bounded 2 0 60
  let fraction ← Rule.optional secondFraction
  return ⟨hour, minute, second, fraction.getD 0⟩

/-- An offset, as in `Z` or `-08:00`. -/
def offset : Rule Offset := do
  match ← Rule.one (fun c => c == 'Z' || c == 'z' || c == '+' || c == '-') with
  | '+' => return .minutes (← ahead)
  | '-' => return .minutes (-(← ahead))
  | _ => return .universal
where
  ahead : Rule Int := do
    let hour ← bounded 2 0 23
    Rule.word ":"
    let minute ← bounded 2 0 59
    return Int.ofNat (hour * 60 + minute)

/-- A time of day with its offset, after the letter or the blank that follows a day. -/
def timeAfterDate : Rule (Time × Option Offset) := do
  let _ ← Rule.one fun c => c == 'T' || c == 't' || c == ' '
  let time ← time
  return (time, ← Rule.optional offset)

/-- A day, a time of day, or both. -/
def moment : Rule Moment :=
  (do
    let date ← date
    match ← Rule.optional timeAfterDate with
    | some (time, offset) => return .both date time offset
    | none => return .date date) <|>
  (Moment.time <$> time)

end PathWire.Toml

/-
Dates and times of a document. Settings never hold one, so only their form is checked: the fields
in their ranges, days within their month.
-/
import AlphaCodemod.Number.Decimal

namespace AlphaCodemod
namespace Toml

/-- The number of exactly `n` digits at the start of a text, and what follows it. -/
def fixedDigits? (n : Nat) (cs : List Char) : Option (Nat × List Char) :=
  let ds := cs.take n
  if ds.length = n ∧ ds.all isDigit then some (digitsValue ds, cs.drop n) else none

/-- What follows a given character. -/
def expect? (c : Char) : List Char → Option (List Char)
  | d :: cs => if d = c then some cs else none
  | [] => none

def daysInMonth (year month : Nat) : Nat :=
  if month = 2 then
    if year % 4 = 0 ∧ (year % 100 ≠ 0 ∨ year % 400 = 0) then 29 else 28
  else if month ∈ [4, 6, 9, 11] then 30
  else 31

/-- What follows a date. -/
def date? (cs : List Char) : Option (List Char) := do
  let (year, cs) ← fixedDigits? 4 cs
  let (month, cs) ← fixedDigits? 2 (← expect? '-' cs)
  let (day, cs) ← fixedDigits? 2 (← expect? '-' cs)
  guard (1 ≤ month ∧ month ≤ 12 ∧ 1 ≤ day ∧ day ≤ daysInMonth year month)
  return cs

/-- What follows the hours and minutes of a clock. -/
def clock? (cs : List Char) : Option (List Char) := do
  let (hour, cs) ← fixedDigits? 2 cs
  let (minute, cs) ← fixedDigits? 2 (← expect? ':' cs)
  guard (hour ≤ 23 ∧ minute ≤ 59)
  return cs

/-- What follows the seconds of a time, with or without a fraction; a minute may have a leap
second. -/
def seconds? (cs : List Char) : Option (List Char) := do
  let (second, cs) ← fixedDigits? 2 cs
  guard (second ≤ 60)
  match cs with
  | '.' :: cs =>
    guard (!(cs.takeWhile isDigit).isEmpty)
    return cs.dropWhile isDigit
  | _ => return cs

/-- What follows a time of day; its seconds may be left out. -/
def time? (cs : List Char) : Option (List Char) := do
  match ← clock? cs with
  | ':' :: cs => seconds? cs
  | cs => return cs

/-- What follows an offset from universal time, if one is there. -/
def offset? : List Char → Option (List Char)
  | 'Z' :: cs => some cs
  | 'z' :: cs => some cs
  | '+' :: cs => clock? cs
  | '-' :: cs => clock? cs
  | cs => some cs

/-- Whether a text is a date, a time, or both with an optional offset. -/
def isMoment (cs : List Char) : Bool :=
  match date? cs with
  | some [] => true
  | some (mark :: cs) =>
    (mark == 'T' || mark == 't' || mark == ' ') && ((time? cs).bind offset?) == some []
  | none => time? cs == some []

end Toml
end AlphaCodemod

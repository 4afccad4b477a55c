import Reachability.Text.Blank
import Reachability.Text.Numeral

set_option autoImplicit false

/-! # Dates

Dates of the Gregorian calendar, carried on into the past and the future, and the reading of their
numbers from text. -/

namespace Reachability

/-- Year, month and day. -/
structure CivilDate where
  /-- The year; the year before 1 is 0. -/
  year : Int
  /-- The month, from 1 to 12. -/
  month : Nat
  /-- The day of the month, from 1. -/
  day : Nat
  deriving DecidableEq

namespace CivilDate

/-- Whether February has 29 days in a year. -/
def isLeapYear (y : Int) : Bool := y % 4 == 0 && (y % 100 != 0 || y % 400 == 0)

/-- The number of days of a month. -/
def daysIn (y : Int) (month : Nat) : Nat :=
  if month = 2 then (if isLeapYear y then 29 else 28)
  else if month = 4 ∨ month = 6 ∨ month = 9 ∨ month = 11 then 30
  else 31

/-- The first year that can be named. -/
def firstYear : Int := -262143

/-- The last year that can be named. -/
def lastYear : Int := 262142

/-- The date with the given numbers, if there is one. -/
def ofNumbers? (y : Int) (month day : Nat) : Option CivilDate :=
  if firstYear ≤ y ∧ y ≤ lastYear ∧ 1 ≤ month ∧ month ≤ 12 ∧ 1 ≤ day ∧ day ≤ daysIn y month then
    some ⟨y, month, day⟩
  else none

/-- The date one day later. -/
def next? (d : CivilDate) : Option CivilDate :=
  if d.day < daysIn d.year d.month then ofNumbers? d.year d.month (d.day + 1)
  else if d.month < 12 then ofNumbers? d.year (d.month + 1) 1
  else ofNumbers? (d.year + 1) 1 1

/-- The date one day earlier. -/
def previous? (d : CivilDate) : Option CivilDate :=
  if 1 < d.day then ofNumbers? d.year d.month (d.day - 1)
  else if 1 < d.month then ofNumbers? d.year (d.month - 1) (daysIn d.year (d.month - 1))
  else ofNumbers? (d.year - 1) 12 31

/-- Whether `a` is before `b`. -/
def before (a b : CivilDate) : Bool :=
  a.year < b.year || (a.year == b.year && (a.month < b.month ||
    (a.month == b.month && a.day < b.day)))

/-! ## Reading -/

/-- The value of up to `width` digits that the characters start with, at least one, and what comes
    after them. -/
def takeNumber? (width : Nat) (cs : List Char) : Option (Nat × List Char) :=
  let ds := (cs.take width).takeWhile Char.isDigit
  (Text.natural? ds).map (·, cs.drop ds.length)

/-- A number of up to `width` digits after blanks. -/
def takePadded? (width : Nat) (cs : List Char) : Option (Nat × List Char) :=
  takeNumber? width (Text.dropBlank cs)

/-- A year after blanks: four digits at most, or a sign and any number of digits. -/
def takeYear? (cs : List Char) : Option (Int × List Char) :=
  match Text.dropBlank cs with
  | '-' :: rest => (takeNumber? rest.length rest).map fun (n, rest) => (-(n : Int), rest)
  | '+' :: rest => (takeNumber? rest.length rest).map fun (n, rest) => ((n : Int), rest)
  | cs => (takeNumber? 4 cs).map fun (n, rest) => ((n : Int), rest)

/-- The characters after the given one, if they start with it. -/
def takeSign? (sign : Char) : List Char → Option (List Char)
  | c :: cs => if c = sign then some cs else none
  | [] => none

/-- Reads year, month and day with hyphens between them. Before each number there may be blanks. -/
def parse? (cs : List Char) : Option CivilDate := do
  let (y, cs) ← takeYear? cs
  let (month, cs) ← takePadded? 2 (← takeSign? '-' cs)
  let (day, cs) ← takePadded? 2 (← takeSign? '-' cs)
  if cs.isEmpty then ofNumbers? y month day else none

/-! ## Writing -/

/-- Writes a year: four digits from 0 to 9999, otherwise a sign and at least four digits. -/
def yearText (y : Int) : List Char :=
  if 0 ≤ y ∧ y ≤ 9999 then Text.padded 4 y.toNat
  else (if y < 0 then '-' else '+') :: Text.padded 4 y.natAbs

/-- Writes a date with hyphens between its numbers. -/
def text (d : CivilDate) : List Char :=
  yearText d.year ++ '-' :: Text.padded 2 d.month ++ '-' :: Text.padded 2 d.day

end CivilDate

end Reachability

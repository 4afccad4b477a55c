import Reachability.Time.CivilDate

set_option autoImplicit false

/-! # Points in time

A time stamp is a date and a time of day in universal time, exact to the nanosecond. A leap second
is the second 59 with a full second of nanoseconds more. Stamps are read with any offset from
universal time and written without one. -/

namespace Reachability

/-- A point in time, in universal time. -/
structure Timestamp where
  /-- The date. -/
  date : CivilDate
  /-- The hour, below 24. -/
  hour : Nat
  /-- The minute, below 60. -/
  minute : Nat
  /-- The second, below 60. -/
  second : Nat
  /-- The nanoseconds, a full second more in a leap second. -/
  nanos : Nat
  deriving DecidableEq

namespace Timestamp

/-- A full second, in nanoseconds. -/
def secondNanos : Nat := 1000000000

/-! ## Reading -/

/-- The nanoseconds that decimal places stand for; places after the ninth do not count. -/
def placesNanos (places : List Char) : Nat :=
  let ds := (places.take 9).filterMap Text.digit?
  Text.ofDigits ds * Nat.pow 10 (9 - ds.length)

/-- The nanoseconds after a decimal point, if there is one; then it needs a digit. -/
def takeNanos? : List Char → Option (Nat × List Char)
  | '.' :: cs =>
    match cs.takeWhile Char.isDigit with
    | [] => none
    | places => some (placesNanos places, cs.dropWhile Char.isDigit)
  | cs => some (0, cs)

/-- A number of exactly two digits. -/
def takePair? : List Char → Option (Nat × List Char)
  | a :: b :: cs => do
    let a ← Text.digit? a
    let b ← Text.digit? b
    some (10 * a + b, cs)
  | _ => none

/-- Whether the characters are the word `UTC` in letters of any case. -/
def isUniversal (cs : List Char) : Bool := cs.map Char.toUpper == ['U', 'T', 'C']

/-- The sign of an offset: whether it is negative. -/
def takeOffsetSign? : List Char → Option (Bool × List Char)
  | c :: cs =>
    if c = '+' then some (false, cs)
    else if c = '-' ∨ c = '\u2212' then some (true, cs)
    else none
  | [] => none

/-- An offset from universal time in minutes, less than a day. -/
def takeOffset? (cs : List Char) : Option (Int × List Char) :=
  if isUniversal (cs.take 3) then some (0, cs.drop 3)
  else match cs with
    | 'Z' :: rest => some (0, rest)
    | 'z' :: rest => some (0, rest)
    | _ => do
      let (negative, cs) ← takeOffsetSign? cs
      let (hours, cs) ← takePair? cs
      let (minutes, cs) ← takePair? (cs.dropWhile fun c => c == ':' || Text.isBlank c)
      if minutes < 60 ∧ hours < 24 then
        let total := ((hours * 60 + minutes : Nat) : Int)
        some (if negative then -total else total, cs)
      else none

/-- The stamp whose local time, `offset` minutes ahead of universal time, has the given numbers. -/
def ofLocal? (date : CivilDate) (hour minute second nanos : Nat) (offset : Int) :
    Option Timestamp := do
  let total := ((hour * 60 + minute : Nat) : Int) - offset
  let date ← if total < 0 then date.previous? else if 1440 ≤ total then date.next? else some date
  let m := (total % 1440).toNat
  some ⟨date, m / 60, m % 60, second, nanos⟩

/-- The character between the date and the time. -/
def takeDivider? : List Char → Option (List Char)
  | c :: cs => if c = 't' ∨ c = 'T' ∨ c = ' ' then some cs else none
  | [] => none

/-- Reads date, time and offset. Before each number there may be blanks. -/
def ofChars? (cs : List Char) : Option Timestamp := do
  let (y, cs) ← CivilDate.takeYear? cs
  let (month, cs) ← CivilDate.takePadded? 2 (← CivilDate.takeSign? '-' (Text.dropBlank cs))
  let (day, cs) ← CivilDate.takePadded? 2 (← CivilDate.takeSign? '-' (Text.dropBlank cs))
  let cs ← takeDivider? cs
  let (hour, cs) ← CivilDate.takePadded? 2 cs
  let (minute, cs) ← CivilDate.takePadded? 2 (← CivilDate.takeSign? ':' (Text.dropBlank cs))
  let (second, cs) ← CivilDate.takePadded? 2 (← CivilDate.takeSign? ':' (Text.dropBlank cs))
  let (nanos, cs) ← takeNanos? cs
  let (offset, cs) ← takeOffset? (Text.dropBlank cs)
  let date ← CivilDate.ofNumbers? y month day
  if (Text.dropBlank cs).isEmpty ∧ hour < 24 ∧ minute < 60 ∧ second ≤ 60 then
    -- Second 60 is second 59 with a full second of nanoseconds more.
    if second = 60 then ofLocal? date hour minute 59 (secondNanos + nanos) offset
    else ofLocal? date hour minute second nanos offset
  else none

/-- Reads a stamp. -/
def parse? (s : String) : Option Timestamp := ofChars? s.toList

/-! ## Writing -/

/-- Writes nanoseconds as decimal places: none, or the fewest of 3, 6 and 9 that are exact. -/
def placesText (n : Nat) : List Char :=
  if n = 0 then []
  else if n % 1000000 = 0 then '.' :: Text.padded 3 (n / 1000000)
  else if n % 1000 = 0 then '.' :: Text.padded 6 (n / 1000)
  else '.' :: Text.padded 9 n

/-- Writes a stamp. A leap second is second 60. -/
def text (t : Timestamp) : List Char :=
  let leap := if t.nanos < secondNanos then 0 else 1
  t.date.text ++ 'T' :: Text.padded 2 t.hour ++ ':' :: Text.padded 2 t.minute ++
    ':' :: Text.padded 2 (t.second + leap) ++ placesText (t.nanos % secondNanos) ++ ['Z']

end Timestamp

end Reachability

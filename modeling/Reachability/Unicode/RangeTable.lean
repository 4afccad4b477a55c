import Reachability.Text.Numeral

set_option autoImplicit false

/-! # Properties by ranges

A property of characters is given as text: words that start with a range of code points in
hexadecimal, such as `61-7a`, and go on with the value. -/

namespace Reachability.Unicode

/-- Values for ranges of numbers, by ascending range. -/
structure RangeTable (α : Type) where
  /-- The first and the last number of each range, and its value. -/
  rows : Array (Nat × Nat × α)

/-- The hexadecimal number that characters start with, and what comes after it. -/
def takeHex (cs : List Char) : Nat × List Char :=
  let ds := cs.takeWhile fun c => (Text.hexDigit? c).isSome
  ((ds.filterMap Text.hexDigit?).foldl (fun n d => 16 * n + d) 0, cs.drop ds.length)

/-- The hexadecimal numbers between points. -/
def hexList (cs : List Char) : List Nat :=
  ((String.ofList cs).splitOn ".").map fun part => (takeHex part.toList).1

/-- A range and the characters after it. -/
def takeRange (word : List Char) : Nat × Nat × List Char :=
  let (first, rest) := takeHex word
  match rest with
  | '-' :: rest =>
    let (last, rest) := takeHex rest
    (first, last, rest)
  | _ => (first, first, rest)

/-- The words of a text. -/
def words (s : String) : List String := (s.splitOn "\n").flatMap (·.splitOn " ")

namespace RangeTable

variable {α : Type}

/-- The table that a text describes. -/
def ofText (value : List Char → α) (s : String) : RangeTable α where
  rows := ((words s).map fun word =>
    let (first, last, rest) := takeRange word.toList
    (first, last, value rest)).toArray

/-- Looks among the rows from `lo` up to but not including `hi`. -/
def findBetween (rows : Array (Nat × Nat × α)) (n lo hi : Nat) : Option (Nat × α) :=
  if lo < hi then
    let mid := (lo + hi) / 2
    match rows[mid]? with
    | none => none
    | some (first, last, value) =>
      if n < first then findBetween rows n lo mid
      else if last < n then findBetween rows n (mid + 1) hi
      else some (first, value)
  else none
termination_by hi - lo

/-- The start and the value of the range that a number is in. -/
def findRange? (t : RangeTable α) (n : Nat) : Option (Nat × α) :=
  findBetween t.rows n 0 t.rows.size

/-- The value of the range that a number is in. -/
def find? (t : RangeTable α) (n : Nat) : Option α := (t.findRange? n).map (·.2)

end RangeTable

end Reachability.Unicode

import Reachability.Unicode.DirectionData
import Reachability.Unicode.RangeTable

set_option autoImplicit false

/-! # Writing directions

In a domain name with a label that is written from right to left, every label has to keep to one
direction, so that the labels are shown in their order. -/

namespace Reachability.Unicode

/-- The bidirectional classes that the rule tells apart. -/
inductive Direction where
  | left
  | right
  | arabicLetter
  | arabicNumber
  | europeanNumber
  | weak
  | nonspacingMark
  | other
  deriving DecidableEq

/-- The class with the given short name. -/
def Direction.ofChars : List Char → Direction
  | [':', 'R'] => .right
  | [':', 'A', 'L'] => .arabicLetter
  | [':', 'A', 'N'] => .arabicNumber
  | [':', 'E', 'N'] => .europeanNumber
  | [':', 'N', 'S', 'M'] => .nonspacingMark
  | [':', 'E', 'S'] => .weak
  | [':', 'C', 'S'] => .weak
  | [':', 'E', 'T'] => .weak
  | [':', 'O', 'N'] => .weak
  | [':', 'B', 'N'] => .weak
  | _ => .other

/-- The classes other than left to right. -/
def directions : RangeTable Direction := .ofText Direction.ofChars directionData

/-- The bidirectional class of a character. -/
def direction (c : Char) : Direction := (directions.find? c.toNat).getD .left

/-- Whether a class is written from right to left. -/
def Direction.isRightToLeft : Direction → Bool
  | right | arabicLetter | arabicNumber => true
  | _ => false

/-- The classes of a label up to its last character that is not a mark above or below another. -/
def lastDirection? (ds : List Direction) : Option Direction :=
  (ds.filter (· ≠ .nonspacingMark)).getLast?

/-- Whether a label keeps to the direction that it starts with. -/
def keepsDirection (label : List Char) : Bool :=
  let ds := label.map direction
  match ds.head?, lastDirection? ds with
  | none, _ => true
  | some .left, some last =>
    ds.all (fun d => !d.isRightToLeft && d != .other) && (last == .left || last == .europeanNumber)
  | some first, some last =>
    (first == .right || first == .arabicLetter) && ds.all (fun d => d != .left && d != .other) &&
      (last.isRightToLeft || last == .europeanNumber) &&
      !(ds.contains .arabicNumber && ds.contains .europeanNumber)
  | _, none => false

/-- Whether a label is written from right to left in part. -/
def hasRightToLeft (label : List Char) : Bool := label.any fun c => (direction c).isRightToLeft

end Reachability.Unicode

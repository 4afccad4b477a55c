import Reachability.Unicode.JoiningData
import Reachability.Unicode.MarkData
import Reachability.Unicode.Normal

set_option autoImplicit false

/-! # Marks and joiners in context

A label may not start with a mark, and joiners may stand only where they change how letters are
drawn. -/

namespace Reachability.Unicode

/-- The combining marks. -/
def marks : RangeTable Unit := .ofText (fun _ => ()) markData

/-- Whether a character is a combining mark. -/
def isMark (c : Char) : Bool := 0x300 ≤ c.toNat && (marks.find? c.toNat).isSome

/-- How letters join to their neighbours. -/
inductive Joining where
  | left
  | right
  | both
  | transparent
  | none
  deriving DecidableEq

/-- The joining type that is written after a range. -/
def Joining.ofChars : List Char → Joining
  | [':', 'L'] => .left
  | [':', 'R'] => .right
  | [':', 'D'] => .both
  | [':', 'T'] => .transparent
  | _ => .none

/-- The joining types. -/
def joinings : RangeTable Joining := .ofText Joining.ofChars joiningData

/-- The joining type of a character. -/
def joining (c : Char) : Joining := (joinings.find? c.toNat).getD .none

/-- The combining class of the signs that take the vowel from a consonant. -/
def viramaClass : Nat := 9

/-- The joining type of the first character that is not transparent. -/
def nextJoining (cs : List Char) : Joining :=
  match (cs.map joining).find? (· ≠ .transparent) with
  | some j => j
  | none => .none

/-- Whether the character between `before`, last first, and `after` may stand there. -/
def fitsBetween (before : List Char) (c : Char) (after : List Char) : Bool :=
  let afterVirama := match before with
    | b :: _ => combiningClass b == viramaClass
    | [] => false
  if c = '\u200d' then afterVirama
  else if c = '\u200c' then
    afterVirama ||
      ((nextJoining before == .left || nextJoining before == .both) &&
        (nextJoining after == .right || nextJoining after == .both))
  else true

/-- Whether every joiner in `after` may stand where it does behind `before`, last first. -/
def joinersFit (before : List Char) : List Char → Bool
  | [] => true
  | c :: after => fitsBetween before c after && joinersFit (c :: before) after

end Reachability.Unicode

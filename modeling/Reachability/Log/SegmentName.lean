import Reachability.Disk.Path
import Reachability.Text.Affix
import Reachability.Time.CivilDate

set_option autoImplicit false

/-! # Names of rotated segments

A segment is set aside under the name of the active file with the date put in before the extension,
and a number after the date if that name is taken. The names sort by date and then by number. -/

namespace Reachability.Log

/-- The parts that the names of all segments of a log share: the active file's name around its last
    point. -/
structure SegmentFamily where
  /-- What comes before the date. -/
  stem : List Char
  /-- The extension, if there is one. -/
  ext : Option (List Char)
  deriving DecidableEq

namespace SegmentFamily

/-- The stem for a path without a name. -/
def standardStem : List Char := ['t', 'a', 's', 'k', 's']

/-- The family of a log with the given path. -/
def ofPath (path : List Char) : SegmentFamily :=
  match Disk.Path.name? path with
  | none => ⟨standardStem, none⟩
  | some name =>
    let (stem, ext) := Disk.Path.splitName name
    ⟨stem, ext⟩

/-- The name of a segment; the number 0 is not written. -/
def name (f : SegmentFamily) (date : List Char) (number : Nat) : List Char :=
  f.stem ++ '-' :: date ++ (if number = 0 then [] else '.' :: Text.decimal number) ++
    (match f.ext with
      | some ext => '.' :: ext
      | none => [])

/-- The characters that take up exactly `n` bytes, and those after them. -/
def takeBytes? (n : Nat) : List Char → Option (List Char × List Char)
  | [] => if n = 0 then some ([], []) else none
  | c :: cs =>
    if n = 0 then some ([], c :: cs)
    else if c.utf8Size ≤ n then
      (takeBytes? (n - c.utf8Size) cs).map fun (front, rest) => (c :: front, rest)
    else none

/-- The number of bytes of a date in a name. -/
def dateBytes : Nat := 10

/-- Reads the number after the date. -/
def number? : List Char → Option Nat
  | [] => some 0
  | '.' :: cs => Text.unsigned? Text.halfWordBound cs
  | _ => none

/-- The date and the number in a name, if it is a name of this family. -/
def key? (f : SegmentFamily) (name : List Char) : Option (CivilDate × Nat) := do
  let rest ← Text.cutLead? ['-'] (← Text.cutLead? f.stem name)
  let rest ← match f.ext with
    | some ext => (Text.cutEnding? ext rest).bind (Text.cutEnding? ['.'])
    | none => some rest
  let (date, number) ← takeBytes? dateBytes rest
  let date ← CivilDate.parse? date
  let number ← number? number
  some (date, number)

end SegmentFamily

/-- A file that is a rotated segment, by its name. -/
structure SegmentFile where
  /-- The date in the name. -/
  date : CivilDate
  /-- The number in the name. -/
  number : Nat
  /-- The name. -/
  name : String
  deriving DecidableEq

namespace SegmentFile

/-- Whether `a` is read before `b` or is `b`: earlier dates first, then smaller numbers, then
    names. -/
def le (a b : SegmentFile) : Bool :=
  a.date.before b.date || (a.date == b.date &&
    (a.number < b.number || (a.number == b.number && decide (a.name ≤ b.name))))

/-- The segments among the names in a directory, in the order in which they are read. -/
def ofNames (f : SegmentFamily) (names : List String) : List SegmentFile :=
  (names.filterMap fun name =>
    (f.key? name.toList).map fun (date, number) => ⟨date, number, name⟩).mergeSort le

end SegmentFile

end Reachability.Log

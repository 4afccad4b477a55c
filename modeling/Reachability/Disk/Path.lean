set_option autoImplicit false

/-! # Paths

The parts of a path as text: its last name, what comes before that, and the two parts of the name
around its last point. -/

namespace Reachability.Disk.Path

/-- A path, last character first, without the slashes and the lone points at its end. -/
def strip : List Char → List Char
  | ['/'] => ['/']
  | '/' :: rest => strip rest
  | '.' :: '/' :: rest => strip ('/' :: rest)
  | cs => cs

/-- The characters before the last name, last character first, and the name. -/
def cut (path : List Char) : List Char × List Char :=
  let back := strip path.reverse
  let name := back.takeWhile (· ≠ '/')
  (back.drop name.length, name.reverse)

/-- The last name of a path. Neither of the names `.` and `..` counts as one. -/
def name? (path : List Char) : Option (List Char) :=
  match (cut path).2 with
  | [] => none
  | ['.'] => none
  | ['.', '.'] => none
  | name => some name

/-- The path of the directory that the last name is in; empty if the path is nothing else, or if it
    has no last part. -/
def parent (path : List Char) : List Char :=
  match cut path with
  | (_, []) => []
  | (front, _) => (strip front).reverse

/-- A name before and after its last point. A point that it starts with does not count. -/
def splitName (name : List Char) : List Char × Option (List Char) :=
  let back := name.reverse
  let ext := back.takeWhile (· ≠ '.')
  match back.drop ext.length with
  | _ :: c :: stem => ((c :: stem).reverse, some ext.reverse)
  | _ => (name, none)

/-- A name in a directory. -/
def join (directory name : List Char) : List Char :=
  if directory.getLast? = some '/' then directory ++ name else directory ++ '/' :: name

/-- What stands between the slashes of a path. -/
def parts : List Char → List (List Char)
  | [] => [[]]
  | c :: cs =>
    if c = '/' then [] :: parts cs
    else
      match parts cs with
      | [] => [[c]]
      | part :: rest => (c :: part) :: rest

/-- The names in a path. Slashes that follow each other count as one. -/
def names (path : List Char) : List String :=
  ((parts path).filter fun part => !part.isEmpty).map String.ofList

end Reachability.Disk.Path

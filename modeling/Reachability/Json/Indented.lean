import Reachability.Json.Quoted

set_option autoImplicit false

/-! # Writing JSON over several lines

The form for readers: each field of an object on a line of its own, two blanks further to the right
than the object. -/

namespace Reachability.Json

/-- A new line that starts with blanks for a depth of nesting. -/
def newLine (depth : Nat) : List Char := '\n' :: List.replicate (2 * depth) ' '

/-- Writes a field on a line of its own. -/
def fieldLine (depth : Nat) (name : String) (value : List Char) : List Char :=
  newLine depth ++ quoted name ++ ':' :: ' ' :: value

/-- Writes an object that is nested so deep. The fields are written already. -/
def indented (depth : Nat) (fields : List (String × List Char)) : List Char :=
  if fields.isEmpty then braced []
  else
    let lines := fields.map fun (name, value) => fieldLine (depth + 1) name value
    '\x7b' :: commas lines ++ newLine depth ++ ['\x7d']

end Reachability.Json

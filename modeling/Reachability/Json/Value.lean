import Reachability.Json.Numeral

set_option autoImplicit false

/-! # Values of JSON

A value keeps all that was written: numerals keep their digits and objects their repeated keys. A
string that is no Unicode text is kept as `none`: its owner may pass over it, not read it. -/

namespace Reachability

/-- A value as written. -/
inductive Json where
  | null
  | truth (value : Bool)
  | number (value : Json.Numeral)
  | text (value : Option String)
  | array (items : List Json)
  | object (fields : List (Option String × Json))

namespace Json

/-- The text of a string. -/
def text? : Json → Option String
  | .text s => s
  | _ => none

/-- The whole number below `2 ^ 64` that a value is. -/
def word? : Json → Option UInt64
  | .number n => n.natural?.bind fun v => if v < Text.wordBound then some (UInt64.ofNat v) else none
  | _ => none

/-- The items of an array. -/
def items? : Json → Option (List Json)
  | .array items => some items
  | _ => none

/-- The fields of an object whose keys can all be read. -/
def fields? : Json → Option (List (String × Json))
  | .object fields => fields.mapM fun (k, v) => k.map (·, v)
  | _ => none

/-- The value of the only field with the given name; `some none` if there is no such field, and
    `none` if there are several. -/
def field? (name : String) (fields : List (String × Json)) : Option (Option Json) :=
  match fields.filter (·.1 = name) with
  | [] => some none
  | [(_, v)] => some (some v)
  | _ => none

mutual

/-- How deep arrays and objects are nested. -/
def depth : Json → Nat
  | .array items => depthOfItems items + 1
  | .object fields => depthOfFields fields + 1
  | _ => 0

/-- The greatest depth among items. -/
def depthOfItems : List Json → Nat
  | [] => 0
  | v :: rest => max (depth v) (depthOfItems rest)

/-- The greatest depth among the values of fields. -/
def depthOfFields : List (Option String × Json) → Nat
  | [] => 0
  | (_, v) :: rest => max (depth v) (depthOfFields rest)

end

mutual

/-- Whether every string in a value is a Unicode text and every number fits into a double. -/
def isReadable : Json → Bool
  | .text s => s.isSome
  | .number n => n.isFinite
  | .array items => itemsReadable items
  | .object fields => fieldsReadable fields
  | _ => true

/-- Whether all items are readable. -/
def itemsReadable : List Json → Bool
  | [] => true
  | v :: rest => isReadable v && itemsReadable rest

/-- Whether the keys and values of all fields are readable. -/
def fieldsReadable : List (Option String × Json) → Bool
  | [] => true
  | (k, v) :: rest => k.isSome && isReadable v && fieldsReadable rest

end

end Json

end Reachability

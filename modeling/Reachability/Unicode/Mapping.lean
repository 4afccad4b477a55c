import Reachability.Unicode.MappingData
import Reachability.Unicode.RangeTable

set_option autoImplicit false

/-! # Characters in domain names

What a character becomes before a domain name is looked at: letters become lower case, compatibility
forms become what they stand for, some characters vanish and some may not occur at all. -/

namespace Reachability.Unicode

/-- What becomes of the characters of a range. -/
inductive Fate where
  | valid
  | ignored
  | up (step : Nat)
  | down (step : Nat)
  | pairs
  | replaced (chars : List Nat)

/-- The fate that is written after a range. -/
def Fate.ofChars : List Char → Fate
  | '!' :: _ => .ignored
  | '+' :: rest => .up (takeHex rest).1
  | '<' :: rest => .down (takeHex rest).1
  | '~' :: _ => .pairs
  | '=' :: rest => .replaced (hexList rest)
  | _ => .valid

/-- The fates of all characters but the disallowed ones. -/
def fates : RangeTable Fate := .ofText Fate.ofChars mappingData

/-- The characters that take the place of one in a domain name; none if it is disallowed. -/
def mapChar? (c : Char) : Option (List Char) :=
  let n := c.toNat
  if n < 0x80 then some [c.toLower]
  else
    (fates.findRange? n).map fun (first, fate) =>
      match fate with
      | .valid => [c]
      | .ignored => []
      | .up step => [Char.ofNat (n + step)]
      | .down step => [Char.ofNat (n - step)]
      | .pairs => [if (n - first) % 2 = 0 then Char.ofNat (n + 1) else c]
      | .replaced chars => chars.map Char.ofNat

/-- The characters that take the place of others; none if one of them is disallowed. -/
def mapChars? (cs : List Char) : Option (List Char) := (cs.mapM mapChar?).map List.flatten

/-- Whether a character stays as it is. -/
def isValid (c : Char) : Bool := mapChar? c == some [c]

end Reachability.Unicode

set_option autoImplicit false

/-! # Decimal numerals

Reading and writing whole numbers in decimal digits. Only the ten ASCII digits count as digits. -/

namespace Reachability.Text

/-- Two to the power of 64; what is counted in 64 bits is below it. -/
def wordBound : Nat := 18446744073709551616

/-- Two to the power of 32; what is counted in 32 bits is below it. -/
def halfWordBound : Nat := 4294967296

/-- The value of a decimal digit. -/
def digit? (c : Char) : Option Nat :=
  if '0' ≤ c ∧ c ≤ '9' then some (c.toNat - '0'.toNat) else none

/-- The value of a hexadecimal digit, in either case. -/
def hexDigit? (c : Char) : Option Nat :=
  if c.isDigit then some (c.toNat - 48)
  else if 'a' ≤ c ∧ c ≤ 'f' then some (c.toNat - 87)
  else if 'A' ≤ c ∧ c ≤ 'F' then some (c.toNat - 55)
  else none

/-- The number that a list of digits stands for, the most significant digit first. -/
def ofDigits (ds : List Nat) : Nat := ds.foldl (fun n d => 10 * n + d) 0

/-- Reads one or more digits and nothing else. -/
def natural? (cs : List Char) : Option Nat :=
  if cs.isEmpty then none else (cs.mapM digit?).map ofDigits

/-- Reads a number below `bound`: one or more digits after an optional plus sign. -/
def unsigned? (bound : Nat) (cs : List Char) : Option Nat :=
  (natural? (match cs with
    | '+' :: rest => rest
    | _ => cs)).filter (· < bound)

/-- Reads a number from `-bound` up to but not including `bound`: digits after an optional sign. -/
def signed? (bound : Nat) (cs : List Char) : Option Int :=
  match cs with
  | '-' :: rest => ((natural? rest).filter (· ≤ bound)).map fun n => -(n : Int)
  | _ => (unsigned? bound cs).map Int.ofNat

/-- Writes a number in decimal. -/
def decimal (n : Nat) : List Char := Nat.toDigits 10 n

/-- Writes a number in decimal with zeros in front, so that it has at least `width` digits. -/
def padded (width n : Nat) : List Char :=
  let ds := decimal n
  List.replicate (width - ds.length) '0' ++ ds

end Reachability.Text

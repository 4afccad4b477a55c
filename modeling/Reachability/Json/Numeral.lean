import Reachability.Text.Numeral

set_option autoImplicit false

/-! # Numerals of JSON

A numeral keeps the digits it was written with. What it is worth matters in two places only: whether
it is a whole number without sign, and whether it is too large for a double. -/

namespace Reachability.Json

/-- A number as written. -/
structure Numeral where
  /-- Whether a minus sign stands in front. -/
  negative : Bool
  /-- The digits before the point. -/
  whole : List Nat
  /-- The digits after the point, if there is a point. -/
  fraction : Option (List Nat)
  /-- Whether the exponent is negative, and its digits, if there is an exponent. -/
  exponent : Option (Bool × List Nat)
  deriving DecidableEq

namespace Numeral

/-- The digits that the characters start with, and the characters after them. -/
def takeDigits : List Char → List Nat × List Char
  | [] => ([], [])
  | c :: cs =>
    match Text.digit? c with
    | some d => let (ds, rest) := takeDigits cs; (d :: ds, rest)
    | none => ([], c :: cs)

/-- Reads the part after the point, if there is one. -/
def takeFraction? : List Char → Option (Option (List Nat) × List Char)
  | '.' :: cs =>
    match takeDigits cs with
    | ([], _) => none
    | (ds, rest) => some (some ds, rest)
  | cs => some (none, cs)

/-- Reads the sign of an exponent. -/
def takeSign : List Char → Bool × List Char
  | '-' :: cs => (true, cs)
  | '+' :: cs => (false, cs)
  | cs => (false, cs)

/-- Reads the exponent, if there is one. -/
def takeExponent? : List Char → Option (Option (Bool × List Nat) × List Char)
  | [] => some (none, [])
  | c :: cs =>
    if c = 'e' ∨ c = 'E' then
      let (negative, rest) := takeSign cs
      match takeDigits rest with
      | ([], _) => none
      | (ds, rest) => some (some (negative, ds), rest)
    else some (none, c :: cs)

/-- Whether the digits before the point are in order: there is one, and a zero stands alone. -/
def wholeInOrder : List Nat → Bool
  | [] => false
  | [_] => true
  | d :: _ => d != 0

/-- Reads the characters of one number. -/
def parse? (cs : List Char) : Option Numeral := do
  let (negative, cs) := match cs with
    | '-' :: rest => (true, rest)
    | _ => (false, cs)
  let (whole, cs) := takeDigits cs
  if wholeInOrder whole then
    let (fraction, cs) ← takeFraction? cs
    let (exponent, cs) ← takeExponent? cs
    if cs.isEmpty then some ⟨negative, whole, fraction, exponent⟩ else none
  else none

/-- The number, if it is whole and written without sign, point and exponent. -/
def natural? (n : Numeral) : Option Nat :=
  if n.negative || n.fraction.isSome || n.exponent.isSome then none
  else some (Text.ofDigits n.whole)

/-! ## Size -/

/-- Takes digits up as long as the number stays below `2 ^ 64`; the second part counts the digits
    left over. -/
def absorb (s : Nat) : List Nat → Nat × Nat
  | [] => (s, 0)
  | d :: ds => if 10 * s + d < Text.wordBound then absorb (10 * s + d) ds else (s, ds.length + 1)

/-- The nearest number with at most 53 significant bits, the even one of two that are equally
    near. -/
def nearestDouble (n : Nat) : Nat :=
  let shift := n.log2 + 1 - 53
  let unit := Nat.pow 2 shift
  let low := n % unit
  let high := n / unit
  if 2 * low > unit ∨ (2 * low = unit ∧ shift ≠ 0 ∧ high % 2 = 1) then (high + 1) * unit
  else high * unit

/-- The least magnitude that is rounded up beyond all doubles. -/
def doubleBound : Nat := Nat.pow 2 1024 - Nat.pow 2 970

/-- Whether the number fits into a double. Its leading digits below `2 ^ 64` are multiplied with a
    power of ten, both rounded to doubles. -/
def isFinite (n : Numeral) : Bool :=
  let (s, skipped) := absorb 0 n.whole
  let fraction := n.fraction.getD []
  let (s, ignored) := absorb s fraction
  let scale : Int := (skipped : Int) - (fraction.length - ignored)
  let scale : Int := match n.exponent with
    | none => scale
    | some (true, ds) => scale - Text.ofDigits ds
    | some (false, ds) => scale + Text.ofDigits ds
  s == 0 || decide (scale < 0) || (decide (scale ≤ 308) &&
    decide (nearestDouble s * nearestDouble (Nat.pow 10 scale.toNat) < doubleBound))

end Numeral

end Reachability.Json

import Reachability.Unicode.NormalData
import Reachability.Unicode.RangeTable

set_option autoImplicit false

/-! # The composed canonical form

Equivalent ways to write a text are made one: characters are taken apart, their marks are put in
order, and what belongs together is put together again. -/

namespace Reachability.Unicode

/-- The canonical combining classes. -/
def combiningClasses : RangeTable Nat :=
  .ofText (fun cs => Text.ofDigits (cs.filterMap Text.digit?)) combiningData

/-- The canonical combining class of a character; 0 for those that start afresh. -/
def combiningClass (c : Char) : Nat :=
  if c.toNat < 0x300 then 0 else (combiningClasses.find? c.toNat).getD 0

/-- What characters stand for, and whether they are never put together again. -/
def decompositions : RangeTable (List Nat × Bool) :=
  .ofText (fun cs => (hexList (cs.drop 1), cs.contains '!')) decompositionData

/-! ## Hangul

A syllable is a leading consonant, a vowel and perhaps a trailing consonant. -/

/-- The parts of a Hangul syllable. -/
def syllableParts? (n : Nat) : Option (List Nat) :=
  if 0xAC00 ≤ n ∧ n ≤ 0xD7A3 then
    let i := n - 0xAC00
    let front := [0x1100 + i / 588, 0x1161 + i % 588 / 28]
    some (if i % 28 = 0 then front else front ++ [0x11A7 + i % 28])
  else none

/-- The Hangul syllable that two parts make. -/
def syllable? (a b : Nat) : Option Nat :=
  if 0x1100 ≤ a ∧ a < 0x1113 ∧ 0x1161 ≤ b ∧ b < 0x1176 then
    some (0xAC00 + ((a - 0x1100) * 21 + (b - 0x1161)) * 28)
  else if 0xAC00 ≤ a ∧ a ≤ 0xD7A3 ∧ (a - 0xAC00) % 28 = 0 ∧ 0x11A7 < b ∧ b < 0x11C3 then
    some (a + (b - 0x11A7))
  else none

/-! ## Taking apart -/

/-- What a character stands for, taken apart `depth` times. -/
def takeApart : Nat → Nat → List Nat
  | 0, n => [n]
  | depth + 1, n =>
    match syllableParts? n with
    | some parts => parts
    | none =>
      match decompositions.find? n with
      | some (parts, _) => parts.flatMap (takeApart depth)
      | none => [n]

/-- The greatest depth of the decompositions. -/
def decompositionDepth : Nat := 4

/-- What a character stands for. -/
def decompose (c : Char) : List Char :=
  if c.toNat < 0xC0 then [c] else (takeApart decompositionDepth c.toNat).map Char.ofNat

/-- Puts a character in front of others; a mark moves behind the marks of a lower class. -/
def placeMark (c : Char) : List Char → List Char
  | [] => [c]
  | d :: rest =>
    if combiningClass c = 0 ∨ combiningClass d = 0 ∨ combiningClass c ≤ combiningClass d then
      c :: d :: rest
    else d :: placeMark c rest

/-- The characters with the marks after each one in the order of their classes. -/
def orderMarks (cs : List Char) : List Char := cs.foldr placeMark []

/-! ## Putting together -/

/-- The number under which a pair is looked up. -/
def pairKey (a b : Nat) : Nat := a * 0x200000 + b

/-- The characters that pairs are put together to. -/
def compositions : RangeTable Nat where
  rows :=
    let pairs := decompositions.rows.toList.filterMap fun (n, _, parts, never) =>
      match parts with
      | [a, b] => if never then none else some (pairKey a b, pairKey a b, n)
      | _ => none
    (pairs.mergeSort fun p q => p.1 ≤ q.1).toArray

/-- The character that two are put together to. -/
def compose? (a b : Char) : Option Char :=
  if b.toNat < 0x300 then none
  else
    match syllable? a.toNat b.toNat with
    | some n => some (Char.ofNat n)
    | none => (compositions.find? (pairKey a.toNat b.toNat)).map Char.ofNat

/-- A text on its way to the composed form: what is finished, the last character that others may be
    put together with, and the marks after it. Lists are kept last first. -/
structure Composing where
  /-- The finished characters. -/
  done : List Char
  /-- The character that may still change. -/
  start : Option Char
  /-- The marks that were not put together with it. -/
  marks : List Char

/-- All characters, the last one first. -/
def Composing.all (s : Composing) : List Char := s.marks ++ s.start.toList ++ s.done

/-- Takes one more character. -/
def Composing.push (s : Composing) (c : Char) : Composing :=
  let near := match s.marks with
    | [] => true
    | m :: _ => combiningClass m < combiningClass c
  match if near then s.start.bind (compose? · c) else none with
  | some composed => { s with start := some composed }
  | none =>
    if combiningClass c = 0 then ⟨s.all, some c, []⟩
    else { s with marks := c :: s.marks }

/-- The composed canonical form. -/
def compose (cs : List Char) : List Char :=
  ((orderMarks (cs.flatMap decompose)).foldl Composing.push ⟨[], none, []⟩).all.reverse

end Reachability.Unicode

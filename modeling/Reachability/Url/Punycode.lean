set_option autoImplicit false

/-! # Punycode

How a label with characters beyond ASCII is written in ASCII: its ASCII characters first, then the
others as insertions, by ascending code point. The distance from one insertion to the next is a
number of variable length, whose digits are weighed by a bias that adapts to the numbers before. -/

namespace Reachability.Punycode

/-- The number of digits. -/
def base : Nat := 36

/-- The digit with a value: letters first, then decimal digits. -/
def digitChar (d : Nat) : Char := if d < 26 then Char.ofNat (97 + d) else Char.ofNat (22 + d)

/-- The value of a digit. -/
def digitValue? (c : Char) : Option Nat :=
  if 'a' ≤ c ∧ c ≤ 'z' then some (c.toNat - 97)
  else if 'A' ≤ c ∧ c ≤ 'Z' then some (c.toNat - 65)
  else if c.isDigit then some (c.toNat - 22)
  else none

/-- The least value that a digit at position `k` has if another one follows. -/
def threshold (k bias : Nat) : Nat := max 1 (min 26 (k - bias))

theorem threshold_pos (k bias : Nat) : 1 ≤ threshold k bias := Nat.le_max_left _ _

/-- Divides a number until it is small; the second part counts the divisions. -/
def shrink (delta count : Nat) : Nat × Nat :=
  if 455 < delta then shrink (delta / 35) (count + 1) else (delta, count)
termination_by delta

/-- The bias after a number: `points` characters are written by then. -/
def adapt (delta points : Nat) (isFirst : Bool) : Nat :=
  let delta := if isFirst then delta / 700 else delta / 2
  let (delta, count) := shrink (delta + delta / points) 0
  base * count + base * delta / (delta + 38)

/-! ## Writing -/

/-- Writes a number, the digit at position `k` first. -/
def writeNumber (bias k q : Nat) : List Char :=
  let t := threshold k bias
  if q < t then [digitChar q]
  else digitChar (t + (q - t) % (base - t)) :: writeNumber bias (k + base) ((q - t) / (base - t))
termination_by q
decreasing_by
  have := threshold_pos k bias
  calc (q - threshold k bias) / (base - threshold k bias)
      ≤ q - threshold k bias := Nat.div_le_self _ _
    _ < q := by omega

/-- How far the writing has come. -/
structure Writing where
  /-- The digits so far. -/
  digits : List Char
  /-- The distance from the last insertion. -/
  delta : Nat
  /-- The bias of the next number. -/
  bias : Nat
  /-- The number of characters written. -/
  written : Nat

/-- Passes a character while those with code point `n` are inserted; `basic` characters were written
    to begin with. -/
def Writing.pass (basic n : Nat) (w : Writing) (c : Char) : Writing :=
  if c.toNat < n then { w with delta := w.delta + 1 }
  else if c.toNat = n then {
    digits := w.digits ++ writeNumber w.bias base w.delta
    delta := 0
    bias := adapt w.delta (w.written + 1) (w.written == basic)
    written := w.written + 1 }
  else w

/-- Inserts the characters with the given code points, which ascend from `from` on. -/
def insertAll (basic : Nat) (cs : List Char) : List Nat → Nat → Writing → Writing
  | [], _, w => w
  | n :: rest, start, w =>
    let w := { w with delta := w.delta + (n - start) * (w.written + 1) }
    let w := cs.foldl (Writing.pass basic n) w
    insertAll basic cs rest (n + 1) { w with delta := w.delta + 1 }

/-- The code points beyond ASCII, ascending and each once. -/
def codePoints (cs : List Char) : List Nat :=
  (((cs.map Char.toNat).filter (128 ≤ ·)).mergeSort (· ≤ ·)).eraseReps

/-- Writes a label in ASCII. -/
def encode (cs : List Char) : List Char :=
  let basic := cs.filter (·.toNat < 128)
  let w := insertAll basic.length cs (codePoints cs) 128 ⟨[], 0, 72, basic.length⟩
  (if basic.isEmpty then [] else basic ++ ['-']) ++ w.digits

/-! ## Reading -/

/-- How far the reading has come. -/
structure Reading where
  /-- The characters so far. -/
  chars : List Char
  /-- The code point of the last insertion. -/
  code : Nat
  /-- The place of the last insertion, and what the present number adds to it. -/
  place : Nat
  /-- The bias of the next number. -/
  bias : Nat
  /-- The place when the present number began. -/
  oldPlace : Nat
  /-- What the next digit is worth. -/
  weight : Nat
  /-- The position of the next digit. -/
  position : Nat

/-- Puts a character at a place. -/
def insertAt (c : Char) (place : Nat) (cs : List Char) : List Char :=
  cs.take place ++ c :: cs.drop place

/-- Inserts the character that the number which has just ended stands for. -/
def Reading.insert? (r : Reading) : Option Reading :=
  let count := r.chars.length + 1
  let code := r.code + r.place / count
  let place := r.place % count
  if code.isValidChar then
    some {
      chars := insertAt (Char.ofNat code) place r.chars
      code
      place := place + 1
      bias := adapt (r.place - r.oldPlace) count (r.oldPlace == 0)
      oldPlace := place + 1
      weight := 1
      position := base }
  else none

/-- Takes one more digit. -/
def Reading.push? (r : Reading) (c : Char) : Option Reading := do
  let d ← digitValue? c
  let t := threshold r.position r.bias
  let r := { r with place := r.place + d * r.weight }
  -- A digit below the threshold is the last one of its number.
  if d < t then r.insert?
  else some { r with weight := r.weight * (base - t), position := r.position + base }

/-- The characters before and after the last hyphen; all come after it if there is none, or none
    before it. -/
def cutLastHyphen (cs : List Char) : List Char × List Char :=
  let digits := (cs.reverse.takeWhile (· ≠ '-')).reverse
  let front := cs.take (cs.length - digits.length - 1)
  if front.isEmpty then ([], cs) else (front, digits)

/-- Reads a label from ASCII. -/
def decode? (cs : List Char) : Option (List Char) := do
  let (front, digits) := cutLastHyphen cs
  let r ← digits.foldlM Reading.push? ⟨front, 128, 0, 72, 0, 1, base⟩
  if r.position = base then some r.chars else none

end Reachability.Punycode

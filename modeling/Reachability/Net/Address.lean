import Reachability.Text.Numeral

set_option autoImplicit false

/-! # Internet addresses

Addresses of both versions, their text, and the addresses that no request may ever be sent to. -/

namespace Reachability

/-- An Internet address. -/
inductive Address where
  | v4 (bits : BitVec 32)
  | v6 (bits : BitVec 128)
  deriving DecidableEq

namespace Address

/-- The version 4 address with the given four bytes. -/
def ofOctets (a b c d : Nat) : BitVec 32 :=
  BitVec.ofNat 32 (((a * 256 + b) * 256 + c) * 256 + d)

/-- The version 6 address with the given groups of 16 bits. -/
def ofGroups (gs : List Nat) : BitVec 128 :=
  BitVec.ofNat 128 (gs.foldl (fun n g => n * 65536 + g) 0)

/-! ## Forbidden addresses -/

/-- Whether an address starts with the same `length` bits as `base`. -/
def sharesLead {w : Nat} (base : BitVec w) (length : Nat) (a : BitVec w) : Bool :=
  a >>> (w - length) == base >>> (w - length)

/-- The blocks of version 4 addresses that are not public: a base and the number of leading bits
    that count. -/
def forbiddenBlocks4 : List (BitVec 32 × Nat) := [
  (ofOctets 10 0 0 0, 8),
  (ofOctets 172 16 0 0, 12),
  (ofOctets 192 168 0 0, 16),
  (ofOctets 127 0 0 0, 8),
  (ofOctets 169 254 0 0, 16),
  (ofOctets 0 0 0 0, 8)]

/-- The blocks of version 6 addresses that are not public. -/
def forbiddenBlocks6 : List (BitVec 128 × Nat) := [
  (ofGroups [0, 0, 0, 0, 0, 0, 0, 1], 128),
  (ofGroups [0, 0, 0, 0, 0, 0, 0, 0], 128),
  (ofGroups [0xFE80, 0, 0, 0, 0, 0, 0, 0], 10),
  (ofGroups [0xFC00, 0, 0, 0, 0, 0, 0, 0], 7)]

/-- The block of version 6 addresses that stand for version 4 addresses. -/
def mappedBase : BitVec 128 := ofGroups [0, 0, 0, 0, 0, 0xFFFF, 0, 0]

/-- The version 4 address that a version 6 address stands for. -/
def mapped? (a : BitVec 128) : Option (BitVec 32) :=
  if sharesLead mappedBase 96 a then some (a.truncate 32) else none

/-- Whether a version 4 address is not public. -/
def isForbidden4 (a : BitVec 32) : Bool :=
  forbiddenBlocks4.any fun (base, length) => sharesLead base length a

/-- Whether a version 6 address is a multicast address of link-local scope. -/
def isLinkMulticast (a : BitVec 128) : Bool := (a >>> 112) &&& 0xFF0F == 0xFF02

/-- Whether an address is not public. A version 6 address that stands for a version 4 address is as
    public as that. -/
def isForbidden : Address → Bool
  | v4 a => isForbidden4 a
  | v6 a =>
    match mapped? a with
    | some m => isForbidden4 m
    | none => forbiddenBlocks6.any (fun (base, length) => sharesLead base length a) ||
        isLinkMulticast a

/-! ## Text -/

/-- The parts of a text between separators. -/
def splitAt (sep : Char) : List Char → List (List Char)
  | [] => [[]]
  | c :: cs =>
    if c = sep then [] :: splitAt sep cs
    else
      match splitAt sep cs with
      | [] => [[c]]
      | part :: rest => (c :: part) :: rest

/-- A byte in decimal: at most three digits, none of them a leading zero. -/
def octet? (cs : List Char) : Option Nat :=
  if cs.length ≤ 3 ∧ (cs.length ≤ 1 ∨ cs.head? ≠ some '0') then
    (Text.natural? cs).filter (· < 256)
  else none

/-- Four bytes with points between them. -/
def parse4? (cs : List Char) : Option (BitVec 32) :=
  match (splitAt '.' cs).mapM octet? with
  | some [a, b, c, d] => some (ofOctets a b c d)
  | _ => none

/-- Sixteen bits in one to four hexadecimal digits. -/
def group? (cs : List Char) : Option Nat :=
  if cs.isEmpty ∨ 4 < cs.length then none
  else (cs.mapM Text.hexDigit?).map fun ds => ds.foldl (fun n d => n * 16 + d) 0

/-- Groups with colons between them; a version 4 address may take the place of the last two. -/
def groups? : List (List Char) → Option (List Nat)
  | [] => some []
  | [part] =>
    match group? part with
    | some g => some [g]
    | none => (parse4? part).map fun a => [a.toNat / 65536, a.toNat % 65536]
  | part :: rest => do
    let g ← group? part
    let gs ← groups? rest
    some (g :: gs)

/-- The groups of a text, none for the empty text. -/
def groupsOf? (cs : List Char) : Option (List Nat) :=
  if cs.isEmpty then some [] else groups? (splitAt ':' cs)

/-- The characters before and after the first double colon. -/
def cutDoubleColon? : List Char → Option (List Char × List Char)
  | ':' :: ':' :: rest => some ([], rest)
  | c :: cs => (cutDoubleColon? cs).map fun (before, rest) => (c :: before, rest)
  | [] => none

/-- A version 6 address. A double colon stands for one or more zero groups. -/
def parse6? (cs : List Char) : Option (BitVec 128) := do
  match cutDoubleColon? cs with
  | none =>
    let gs ← groups? (splitAt ':' cs)
    if gs.length = 8 then some (ofGroups gs) else none
  | some (front, back) =>
    let front ← if front.contains '.' then none else groupsOf? front
    let back ← groupsOf? back
    if front.length + back.length ≤ 7 then
      some (ofGroups (front ++ List.replicate (8 - front.length - back.length) 0 ++ back))
    else none

/-- Reads an address of either version. -/
def parse? (cs : List Char) : Option Address :=
  match parse4? cs with
  | some a => some (v4 a)
  | none => (parse6? cs).map v6

/-- Writes four bytes with points between them. -/
def text4 (a : BitVec 32) : List Char :=
  let n := a.toNat
  Text.decimal (n / 16777216) ++ '.' :: Text.decimal (n / 65536 % 256) ++
    '.' :: Text.decimal (n / 256 % 256) ++ '.' :: Text.decimal (n % 256)

/-- The groups of a version 6 address. -/
def toGroups (a : BitVec 128) : List Nat :=
  (List.range 8).map fun i => (a >>> (112 - 16 * i)).toNat % 65536

/-- The number of zeros that a list starts with. -/
def leadingZeros (gs : List Nat) : Nat := (gs.takeWhile (· = 0)).length

/-- Where the longest run of zero groups starts and how long it is; the first of several. -/
def longestZeros (gs : List Nat) : Nat × Nat :=
  (List.range gs.length).foldl (fun best i =>
    let n := leadingZeros (gs.drop i)
    if best.2 < n then (i, n) else best) (0, 0)

/-- Writes groups with colons between them. -/
def colons : List Nat → List Char
  | [] => []
  | [g] => Nat.toDigits 16 g
  | g :: rest => Nat.toDigits 16 g ++ ':' :: colons rest

/-- Writes a version 6 address. The longest run of two or more zero groups becomes a double
    colon. -/
def text6 (a : BitVec 128) : List Char :=
  let gs := toGroups a
  let (start, count) := longestZeros gs
  if 2 ≤ count then
    colons (gs.take start) ++ ':' :: ':' :: colons (gs.drop (start + count))
  else colons gs

end Address

end Reachability

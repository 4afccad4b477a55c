import Reachability.Text.Utf8
import Reachability.Url.Domain

set_option autoImplicit false

/-! # Hosts of URLs

A host is a domain name or an address. Where the scheme says so, a name whose last label is a
number is a version 4 address: one to four numbers, each in decimal, octal or hexadecimal, of
which the last one fills the bytes that are left. -/

namespace Reachability.Url

/-- A host. -/
inductive Host where
  | domain (name : List Char)
  | address (value : Address)
  deriving DecidableEq

/-- The text of a host. -/
def Host.text : Host → List Char
  | .domain name => name
  | .address (.v4 a) => Address.text4 a
  | .address (.v6 a) => '[' :: Address.text6 a ++ [']']

/-! ## Percent encoding -/

/-- The byte that a percent sign and two hexadecimal digits stand for. -/
def escapedByte? (b x y : UInt8) : Option UInt8 := do
  let h ← Text.hexDigit? (Char.ofUInt8 x)
  let l ← Text.hexDigit? (Char.ofUInt8 y)
  if Char.ofUInt8 b = '%' then some (UInt8.ofNat (h * 16 + l)) else none

/-- The bytes with each escape made the byte that it stands for. -/
def percentDecode : List UInt8 → List UInt8
  | b :: x :: y :: rest =>
    match escapedByte? b x y with
    | some v => v :: percentDecode rest
    | none => b :: percentDecode (x :: y :: rest)
  | bs => bs

/-- A hexadecimal digit, upper case. -/
def hexUpper (n : Nat) : Char := (Nat.digitChar n).toUpper

/-- A byte as an escape. -/
def escapeByte (b : UInt8) : List Char := ['%', hexUpper (b.toNat / 16), hexUpper (b.toNat % 16)]

/-- Escapes the bytes of the characters that are not printable ASCII or in the given set. -/
def percentEncode (escaped : Char → Bool) (cs : List Char) : List Char :=
  cs.flatMap fun c =>
    if c.toNat < 0x20 || 0x7E < c.toNat || escaped c then
      (String.utf8EncodeChar c).flatMap escapeByte
    else [c]

/-! ## Version 4 addresses as numbers -/

/-- The value of digits in a base up to 16. -/
def digitsIn? (base : Nat) (cs : List Char) : Option Nat :=
  (cs.mapM fun c => (Text.hexDigit? c).filter (· < base)).map fun ds =>
    ds.foldl (fun n d => n * base + d) 0

/-- A number in decimal, in octal after a zero, or in hexadecimal after `0x`. -/
def part? : List Char → Option Nat
  | [] => none
  | '0' :: 'x' :: rest => digitsIn? 16 rest
  | '0' :: 'X' :: rest => digitsIn? 16 rest
  | '0' :: c :: rest => digitsIn? 8 (c :: rest)
  | cs => digitsIn? 10 cs

/-- The labels of a name without the empty one after a final point. -/
def countedLabels (name : List Char) : List (List Char) :=
  let labels := Address.splitAt '.' name
  if labels.length ≠ 1 ∧ labels.getLast? = some [] then labels.dropLast else labels

/-- Whether the last label of a name is a number. -/
def endsInNumber (name : List Char) : Bool :=
  match (countedLabels name).getLast? with
  | none => false
  | some label => (!label.isEmpty && label.all Char.isDigit) || (part? label).isSome

/-- The address that parts stand for: all but the last are bytes, the last fills what is left. -/
def ofParts? : Nat → Nat → List Nat → Option (BitVec 32)
  | _, _, [] => none
  | room, value, [last] =>
    let size := Nat.pow 256 room
    if last < size then some (BitVec.ofNat 32 (value * size + last)) else none
  | room, value, n :: rest =>
    if n < 256 ∧ 1 < room then ofParts? (room - 1) (value * 256 + n) rest else none

/-- The address that a name of numbers stands for. -/
def address4? (name : List Char) : Option (BitVec 32) := do
  let parts ← (countedLabels name).mapM part?
  ofParts? 4 0 parts

/-! ## Reading hosts -/

/-- The version 6 address in brackets, for text that starts with one. -/
def bracketed? (cs : List Char) : Option Host :=
  if cs.getLast? = some ']' then
    (Address.parse6? (cs.drop 1).dropLast).map fun a => .address (.v6 a)
  else none

/-- Reads the host of a URL whose scheme gives hosts their meaning. -/
def Host.parse? (cs : List Char) : Option Host :=
  if cs.head? = some '[' then bracketed? cs
  else do
    let decoded ← Text.ofBytes? (percentDecode (Text.utf8 cs))
    let name ← Domain.toAscii? decoded.toList
    if name.isEmpty then none
    else if endsInNumber name then (address4? name).map fun a => .address (.v4 a)
    else some (.domain name)

/-- Reads the host of a URL of any other scheme: it stays as it is, but for escapes. -/
def Host.parseOpaque? (cs : List Char) : Option Host :=
  if cs.head? = some '[' then bracketed? cs
  else if cs.any Domain.isForbiddenInHost then none
  else some (.domain (percentEncode (fun _ => false) cs))

end Reachability.Url

import Reachability.Text.Affix
import Reachability.Unicode.Direction
import Reachability.Unicode.Joining
import Reachability.Unicode.Mapping
import Reachability.Url.Punycode
import Reachability.Net.Address

set_option autoImplicit false

/-! # Domain names

The ASCII form of a domain name: its characters are mapped and composed, its labels are checked, and
labels with characters beyond ASCII are written in Punycode. -/

namespace Reachability.Domain

/-- Whether a character is in ASCII. -/
def isAscii (c : Char) : Bool := c.toNat < 128

/-- What a label written in Punycode starts with. -/
def punycodeMark : List Char := ['x', 'n', '-', '-']

/-- The longest label that is written in Punycode. -/
def longestEncoded : Nat := 1000

/-- The longest label that is read from Punycode. -/
def longestDecoded : Nat := 2000

/-- The label without the Punycode mark, if it has one. -/
def unmarked? (label : List Char) : Option (List Char) := Text.cutLead? punycodeMark label

/-- Whether a label is free of marks and joiners where they may not stand. -/
def isWellFormed (label : List Char) : Bool :=
  !(label.head?.any Unicode.isMark) && Unicode.joinersFit [] label

/-- Whether what was read from Punycode is a label that would be written so. -/
def isDecodedLabel (label : List Char) : Bool :=
  label.any (fun c => !isAscii c) && label.length ≤ longestEncoded &&
    label.all Unicode.isValid && !label.contains '.' && Unicode.compose label == label &&
    isWellFormed label

/-- The label as it is meant, if it is in order. -/
def meaning? (label : List Char) : Option (List Char) :=
  match unmarked? label with
  | some rest =>
    if rest.all isAscii && rest.length ≤ longestDecoded then
      (Punycode.decode? rest).filter isDecodedLabel
    else none
  | none => if label.all isAscii || isWellFormed label then some label else none

/-- The ASCII form of a label. -/
def asciiLabel? (label : List Char) : Option (List Char) :=
  if label.all isAscii then some label
  else if label.length ≤ longestEncoded then some (punycodeMark ++ Punycode.encode label)
  else none

/-- The characters that no host may have. -/
def isForbiddenInHost (c : Char) : Bool :=
  c == '\x00' || c == '\t' || c == '\n' || c == '\r' || c == ' ' || c == '#' || c == '/' ||
    c == ':' || c == '<' || c == '>' || c == '?' || c == '@' || c == '[' || c == '\\' ||
    c == ']' || c == '^' || c == '|'

/-- The characters that no domain name may have. -/
def isForbidden (c : Char) : Bool :=
  isForbiddenInHost c || c.toNat < 0x20 || c == '%' || c.toNat == 0x7F

/-- Puts labels together, with points between them. -/
def join (labels : List (List Char)) : List Char := ['.'].intercalate labels

/-- The characters of a domain name, mapped and composed. -/
def normal? (cs : List Char) : Option (List Char) :=
  (Unicode.mapChars? cs).map fun mapped =>
    if mapped.all isAscii then mapped else Unicode.compose mapped

/-- The ASCII form of a domain name. -/
def toAscii? (cs : List Char) : Option (List Char) := do
  let labels := Address.splitAt '.' (← normal? cs)
  let meanings ← labels.mapM meaning?
  if meanings.any Unicode.hasRightToLeft && !meanings.all Unicode.keepsDirection then none
  else
    let domain := join (← labels.mapM asciiLabel?)
    if domain.any isForbidden then none else some domain

end Reachability.Domain

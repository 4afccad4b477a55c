import Reachability.Text.Numeral

set_option autoImplicit false

/-! # Writing JSON

The compact form: no blanks, and of the characters of a string only those escaped that have to be.
-/

namespace Reachability.Json

/-- A hexadecimal digit, lower case. -/
def hexChar (n : Nat) : Char := Nat.digitChar n

/-- Writes one character of a string. Quotes, backslashes and control characters are escaped. -/
def escape (c : Char) : List Char :=
  if c = '"' then ['\\', '"']
  else if c = '\\' then ['\\', '\\']
  else if c = '\x08' then ['\\', 'b']
  else if c = '\x0c' then ['\\', 'f']
  else if c = '\n' then ['\\', 'n']
  else if c = '\r' then ['\\', 'r']
  else if c = '\t' then ['\\', 't']
  else if c.toNat < 0x20 then
    ['\\', 'u', '0', '0', hexChar (c.toNat / 16), hexChar (c.toNat % 16)]
  else [c]

/-- Writes a string with its quotes. -/
def quoted (s : String) : List Char := '"' :: s.toList.flatMap escape ++ ['"']

/-- Writes parts with commas between them. -/
def commas : List (List Char) → List Char
  | [] => []
  | [p] => p
  | p :: rest => p ++ ',' :: commas rest

/-- Writes an array of parts. -/
def bracketed (parts : List (List Char)) : List Char := '[' :: commas parts ++ [']']

/-- Writes a field of an object. -/
def field (name : String) (value : List Char) : List Char := quoted name ++ ':' :: value

/-- Writes an object of fields. -/
def braced (parts : List (List Char)) : List Char := '\x7b' :: commas parts ++ ['\x7d']

end Reachability.Json

import Reachability.Url.Host

set_option autoImplicit false

/-! # URLs

The parts of a URL and its text. -/

namespace Reachability

/-- The path of a URL: segments after slashes, or text that has no structure. -/
inductive Url.Path where
  | segments (parts : List (List Char))
  | plain (text : List Char)
  deriving DecidableEq

/-- A URL. Its parts hold their escapes. -/
structure Url where
  /-- The scheme, in lower case. -/
  scheme : List Char
  /-- The user name, empty if there is none. -/
  username : List Char
  /-- The password, empty if there is none. -/
  password : List Char
  /-- The host; the empty domain name if only its place is there. -/
  host : Option Url.Host
  /-- The port, if it is not the one that the scheme implies. -/
  port : Option Nat
  /-- The path. -/
  path : Url.Path
  /-- What follows the question mark, if there is one. -/
  query : Option (List Char)
  /-- What follows the number sign, if there is one. -/
  fragment : Option (List Char)
  deriving DecidableEq

namespace Url

/-- The schemes whose URLs have a host that names a machine, with the port that each implies. -/
def specialPorts : List (List Char × Nat) := [
  (['h', 't', 't', 'p'], 80),
  (['h', 't', 't', 'p', 's'], 443),
  (['w', 's'], 80),
  (['w', 's', 's'], 443),
  (['f', 't', 'p'], 21)]

/-- The scheme of files. -/
def fileScheme : List Char := ['f', 'i', 'l', 'e']

/-- The host that a URL names: the empty one does not count. -/
def namedHost? (u : Url) : Option Host :=
  match u.host with
  | some (.domain []) => none
  | h => h

/-- Writes user name and password, up to the sign before the host. -/
def credentialsText (u : Url) : List Char :=
  if u.username.isEmpty && u.password.isEmpty then []
  else u.username ++ (if u.password.isEmpty then [] else ':' :: u.password) ++ ['@']

/-- Writes what stands between the scheme and the path. -/
def authorityText (u : Url) : List Char :=
  match u.host with
  | some h =>
    '/' :: '/' :: u.credentialsText ++ h.text ++
      (match u.port with
        | some p => ':' :: Text.decimal p
        | none => [])
  | none =>
    match u.path with
    | .segments ([] :: _ :: _) => ['/', '.']
    | _ => []

/-- Writes a path. -/
def Path.text : Path → List Char
  | .segments parts => parts.flatMap ('/' :: ·)
  | .plain text => text

/-- Writes a sign and what follows it, if anything does. -/
def optionText (sign : Char) : Option (List Char) → List Char
  | some t => sign :: t
  | none => []

/-- Writes a URL. -/
def text (u : Url) : List Char :=
  u.scheme ++ ':' :: u.authorityText ++ u.path.text ++ optionText '?' u.query ++
    optionText '#' u.fragment

end Url

end Reachability

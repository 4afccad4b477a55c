import Reachability.Url.Basic

set_option autoImplicit false

/-! # Reading URLs

A URL is read from its text alone, without another one that it might be relative to. Blanks around
it and line breaks within do not count. -/

namespace Reachability.Url

/-! ## Sets of escaped characters -/

/-- The printable characters that are escaped in a fragment. -/
def escapedInFragment (c : Char) : Bool :=
  c == ' ' || c == '"' || c == '<' || c == '>' || c == '\x60'

/-- The printable characters that are escaped in a query. -/
def escapedInQuery (isSpecial : Bool) (c : Char) : Bool :=
  c == ' ' || c == '"' || c == '<' || c == '>' || c == '#' || (isSpecial && c == '\x27')

/-- The printable characters that are escaped in a path. -/
def escapedInPath (c : Char) : Bool :=
  escapedInFragment c || c == '#' || c == '?' || c == '\x7b' || c == '\x7d'

/-- The printable characters that are escaped in a user name or password. -/
def escapedInUser (c : Char) : Bool :=
  escapedInPath c || c == '/' || c == ':' || c == ';' || c == '=' || c == '@' || c == '[' ||
    c == '\\' || c == ']' || c == '^' || c == '|'

/-! ## Cutting the text into parts -/

/-- Whether a character is a control character or a space. -/
def isControlOrSpace (c : Char) : Bool := c.toNat ≤ 0x20

/-- Whether a character is a tabulator or breaks a line. -/
def isBreak (c : Char) : Bool := c == '\t' || c == '\n' || c == '\r'

/-- The characters without those around them that are blank. -/
def trimmed (cs : List Char) : List Char :=
  ((cs.dropWhile isControlOrSpace).reverse.dropWhile isControlOrSpace).reverse

/-- The characters without line breaks and tabulators. -/
def unbroken (cs : List Char) : List Char := cs.filter fun c => !isBreak c

/-- Whether a character may stand in a scheme. -/
def inScheme (c : Char) : Bool := c.isAlphanum || c == '+' || c == '-' || c == '.'

/-- The scheme, in lower case, and what follows its colon. -/
def takeScheme? (cs : List Char) : Option (List Char × List Char) :=
  match unbroken (cs.takeWhile (· ≠ ':')), cs.dropWhile (· ≠ ':') with
  | c :: scheme, ':' :: rest =>
    if c.isAlpha && scheme.all inScheme then some ((c :: scheme).map Char.toLower, rest) else none
  | _, _ => none

/-- Whether a character stands between segments: a slash, or a backslash in special URLs. -/
def isSlash (isSpecial : Bool) (c : Char) : Bool := c == '/' || (isSpecial && c == '\\')

/-- Whether a character ends the part with the host. -/
def endsAuthority (isSpecial : Bool) (c : Char) : Bool :=
  isSlash isSpecial c || c == '?' || c == '#'

/-- Whether a character ends the path. -/
def endsPath (c : Char) : Bool := c == '?' || c == '#'

/-- The characters before and after the last at sign. -/
def cutLastAt? (cs : List Char) : Option (List Char × List Char) :=
  if cs.contains '@' then
    let after := (cs.reverse.takeWhile (· ≠ '@')).reverse
    some (cs.take (cs.length - after.length - 1), after)
  else none

/-- The characters of the host, up to a colon outside of brackets, and those after it. -/
def cutHost (inBrackets : Bool) : List Char → List Char × List Char
  | [] => ([], [])
  | c :: cs =>
    if c = ':' ∧ !inBrackets then ([], c :: cs)
    else
      let isInside := if c = '[' then true else if c = ']' then false else inBrackets
      let (host, rest) := cutHost isInside cs
      (c :: host, rest)

/-- Reads a port, which may be left out after its colon: the port and what comes after it, which
    starts with a backslash if there is anything. -/
def port? : List Char → Option (Option Nat × List Char)
  | [] => some (none, [])
  | ':' :: cs =>
    let rest := cs.dropWhile Char.isDigit
    if rest.head?.all (· == '\\') then
      match cs.takeWhile Char.isDigit with
      | [] => some (none, rest)
      | digits => ((Text.natural? digits).filter (· < 65536)).map fun n => (some n, rest)
    else none
  | _ => none

/-! ## Paths -/

/-- The parts of a path between slashes. -/
def splitPath (isSpecial : Bool) : List Char → List (List Char)
  | [] => [[]]
  | c :: cs =>
    if isSlash isSpecial c then [] :: splitPath isSpecial cs
    else
      match splitPath isSpecial cs with
      | [] => [[c]]
      | part :: rest => (c :: part) :: rest

/-- A segment with its escaped points made plain. -/
def plainPoints : List Char → List Char
  | '%' :: '2' :: 'e' :: rest => '.' :: plainPoints rest
  | '%' :: '2' :: 'E' :: rest => '.' :: plainPoints rest
  | c :: rest => c :: plainPoints rest
  | [] => []

/-- Whether a segment stands for the present one. -/
def isHere (segment : List Char) : Bool := plainPoints segment == ['.']

/-- Whether a segment stands for the one above. -/
def isAbove (segment : List Char) : Bool := plainPoints segment == ['.', '.']

/-- Whether a character may stand after the letter of a drive. -/
def marksDrive (c : Char) : Bool := c == ':' || c == '|'

/-- Whether a segment is a drive letter. -/
def isDrive : List Char → Bool
  | [c, s] => c.isAlpha && marksDrive s
  | _ => false

/-- Whether a segment stays although the one after it stands for the one above: it is a drive letter,
    or goes on with a backslash after one. -/
def isLasting : List Char → Bool
  | [c, s] => isDrive [c, s]
  | c :: s :: d :: _ => isDrive [c, s] && d == '\\'
  | _ => false

/-- A path on the way: the segments that are complete, last first, and whether the first of them is
    a drive letter. -/
structure PathSoFar where
  /-- The segments. -/
  done : List (List Char)
  /-- Whether the path starts with a drive letter. -/
  hasDrive : Bool

namespace PathSoFar

/-- A path before its first segment. -/
def start : PathSoFar := ⟨[], false⟩

/-- The path with one more segment. -/
def push (p : PathSoFar) (segment : List Char) : PathSoFar := { p with done := segment :: p.done }

/-- The path without its last segment, unless that stays. -/
def drop (p : PathSoFar) : PathSoFar :=
  match p.done with
  | segment :: rest => if isLasting segment then p else { p with done := rest }
  | [] => p

/-- The path with a segment as it is kept: a drive letter at the start of a file's path gets its
    colon. -/
def keep (isFile : Bool) (p : PathSoFar) (segment : List Char) : PathSoFar :=
  match p.done, segment with
  | [], [c, _] =>
    if isFile && isDrive segment then ⟨[[c, ':']], true⟩
    else p.push (percentEncode escapedInPath segment)
  | _, _ => p.push (percentEncode escapedInPath segment)

/-- The path after a segment that may stand for another one. The last segment is there even if it is
    empty. -/
def take (isFile isLast : Bool) (p : PathSoFar) (segment : List Char) : PathSoFar :=
  if isAbove segment then if isLast then p.drop.push [] else p.drop
  else if isHere segment then if isLast then p.push [] else p
  else p.keep isFile segment

/-- The drive letter that a segment starts with, if a line break follows it, and the rest of the
    segment. -/
def brokenDrive? (segment : List Char) : Option (List Char × List Char) :=
  let isMark (c : Char) : Bool := c ≠ ':'
  let front := unbroken (segment.takeWhile isMark) ++ [':']
  let rest := (segment.dropWhile isMark).drop 1
  if isDrive front && segment.contains ':' && rest.head?.any isBreak && !(unbroken rest).isEmpty then
    some (front, unbroken rest)
  else none

/-- The path after a segment with its line breaks. A drive letter at the start of a file's path is a
    segment by itself if a line break follows it, and what comes then stands for nothing else. -/
def takeBroken (isFile isLast : Bool) (p : PathSoFar) (segment : List Char) : PathSoFar :=
  match if isFile && p.done.isEmpty then brokenDrive? segment else none with
  | some (drive, rest) => (p.push drive).push (percentEncode escapedInPath rest)
  | none => p.take isFile isLast (unbroken segment)

/-- The path after segments with their line breaks. -/
def takeAll (isFile : Bool) (p : PathSoFar) : List (List Char) → PathSoFar
  | [] => p
  | segment :: rest => (p.takeBroken isFile rest.isEmpty segment).takeAll isFile rest

/-- The segments in order. -/
def segments (p : PathSoFar) : List (List Char) := p.done.reverse

end PathSoFar

/-- Reads a path without its first slash. -/
def readPath (isSpecial isFile : Bool) (cs : List Char) : PathSoFar :=
  PathSoFar.start.takeAll isFile (splitPath isSpecial cs)

/-- The characters after a first slash, if there is one. -/
def afterSlash? (isSpecial : Bool) (cs : List Char) : Option (List Char) :=
  match cs.dropWhile isBreak with
  | c :: rest => if isSlash isSpecial c then some rest else none
  | [] => none

/-- The characters without a first slash. -/
def dropSlash (isSpecial : Bool) (cs : List Char) : List Char := (afterSlash? isSpecial cs).getD cs

/-- Query and fragment. -/
def tail (isSpecial : Bool) (cs : List Char) : Option (List Char) × Option (List Char) :=
  let fragment (cs : List Char) : Option (List Char) :=
    match cs with
    | '#' :: rest => some (percentEncode escapedInFragment rest)
    | _ => none
  match cs with
  | '?' :: rest =>
    (some (percentEncode (escapedInQuery isSpecial) (rest.takeWhile (· ≠ '#'))),
      fragment (rest.dropWhile (· ≠ '#')))
  | _ => (none, fragment cs)

/-! ## The three kinds of URLs -/

/-- The URL with the path, query and fragment that the characters after its host give. -/
def withPath (isSpecial : Bool) (u : Url) (cs : List Char) : Url :=
  let path := cs.takeWhile fun c => !endsPath c
  let (query, fragment) := tail isSpecial (cs.dropWhile fun c => !endsPath c)
  let parts :=
    if path.isEmpty && !isSpecial then []
    else (readPath isSpecial false (dropSlash isSpecial path)).segments
  { u with path := .segments parts, query, fragment }

/-- Reads what follows the slashes before the host. -/
def withAuthority? (impliedPort : Option Nat) (scheme cs : List Char) : Option Url := do
  let isSpecial := impliedPort.isSome
  let authority := cs.takeWhile fun c => !endsAuthority isSpecial c
  let rest := cs.dropWhile fun c => !endsAuthority isSpecial c
  let (credentials, place) := (cutLastAt? authority).getD ([], authority)
  if authority = ['@'] ∧ rest ≠ [] then none
  else
    let (hostText, portText) := cutHost false place
    let username := percentEncode escapedInUser (credentials.takeWhile (· ≠ ':'))
    let password := percentEncode escapedInUser ((credentials.dropWhile (· ≠ ':')).drop 1)
    if hostText.isEmpty ∧ (isSpecial ∨ portText ≠ [] ∨ username ≠ [] ∨ password ≠ []) then none
    else
      let host ← if isSpecial then Host.parse? hostText else Host.parseOpaque? hostText
      let (port, afterPort) ← port? portText
      some (withPath isSpecial {
        scheme, username, password
        host := some host
        port := if port = impliedPort then none else port
        path := .segments []
        query := none
        fragment := none } (afterPort ++ rest))

/-- The name of the machine that is at hand. -/
def localName : List Char := ['l', 'o', 'c', 'a', 'l', 'h', 'o', 's', 't']

/-- The host of a file's URL, and what comes after it, from what follows the two slashes before it. A
    drive letter is no host, and the name of the machine that is at hand counts as none. -/
def fileHost? (cs : List Char) : Option (Option Host × List Char) :=
  let text := cs.takeWhile fun c => !endsAuthority true c
  let name := unbroken text
  if name.isEmpty || isDrive name then some (none, cs)
  else (Host.parse? name).map fun host =>
    (if host = .domain localName then none else some host, cs.drop text.length)

/-- Reads the URL of a file, from what follows its scheme, with its line breaks. -/
def file? (cs : List Char) : Option Url := do
  let (host, cs) ← match (afterSlash? true cs).bind (afterSlash? true) with
    | some rest => fileHost? rest
    | none => some (none, dropSlash true cs)
  let path := cs.takeWhile fun c => !endsPath c
  let (query, fragment) := tail true (unbroken (cs.dropWhile fun c => !endsPath c))
  let path := readPath true true (if host.isSome then dropSlash true path else path)
  let parts := path.segments.dropWhile List.isEmpty
  some {
    scheme := fileScheme
    username := []
    password := []
    host := some (if path.hasDrive then .domain [] else host.getD (.domain []))
    port := none
    path := .segments (if parts.isEmpty then [[]] else parts)
    query, fragment }

/-- Reads a URL without a host, from what follows its scheme. -/
def withoutHost (scheme cs : List Char) : Url :=
  let path := cs.takeWhile fun c => !endsPath c
  let (query, fragment) := tail false (cs.dropWhile fun c => !endsPath c)
  { scheme
    username := []
    password := []
    host := none
    port := none
    path :=
      match path with
      | '/' :: rest => .segments (readPath false false rest).segments
      | _ => .plain (percentEncode (fun _ => false) path)
    query, fragment }

/-- Reads a URL. -/
def parse? (cs : List Char) : Option Url := do
  let (scheme, rest) ← takeScheme? (trimmed cs)
  if scheme = fileScheme then file? rest
  else
    let rest := unbroken rest
    match specialPorts.lookup scheme with
    | some port => withAuthority? (some port) scheme (rest.dropWhile (isSlash true))
    | none =>
      match rest with
      | '/' :: '/' :: rest => withAuthority? none scheme rest
      | _ => some (withoutHost scheme rest)

end Reachability.Url

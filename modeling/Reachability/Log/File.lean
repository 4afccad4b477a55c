import Reachability.Disk.Program
import Reachability.Log.Segment
import Reachability.Log.SegmentName
import Reachability.Span
import Reachability.Store.Error

set_option autoImplicit false

/-! # The log

The log is an active file and the segments that were set aside before it. An entry is appended to
the active file; once that has grown to the size limit it is set aside first, and segments that
have been kept long enough are removed. Reading goes through the segments in order and then
through the active file, and mends the end of that. -/

namespace Reachability

/-- The present, as far as the log depends on it. -/
structure Moment where
  /-- Seconds, for the times at which files change. -/
  seconds : Int
  /-- The time that entries are stamped with. -/
  stamp : Timestamp
  /-- The local date, for the names of segments. -/
  today : CivilDate
  deriving DecidableEq

/-- A log: where it is and how long its files are kept. -/
structure Log where
  /-- The path of the active file. -/
  path : List Char
  /-- The size from which on the active file is set aside. -/
  maxBytes : Nat
  /-- How long segments are kept; the empty span stands for ever. -/
  retention : Span
  deriving DecidableEq

namespace Log

/-- The size limit of a log for which none is set: a hundred times `1024 * 1024` bytes. -/
def standardMaxBytes : Nat := 104857600

/-- How long segments are kept for a log for which nothing is set. -/
def standardRetention : Span := .ofSeconds (7 * 24 * 60 * 60)

/-- The log at a path, without settings. -/
def atPath (path : String) : Log := ⟨path.toList, standardMaxBytes, standardRetention⟩

/-- The log with settings. The size limit 0 leaves it as it is. -/
def withRotation (log : Log) (maxBytes : Nat) (retention : Span) : Log :=
  { log with maxBytes := if maxBytes = 0 then log.maxBytes else maxBytes, retention }

/-- What the names of the log's segments share. -/
def family (log : Log) : SegmentFamily := .ofPath log.path

/-- The directory of the log. -/
def directory (log : Log) : List Char :=
  match Disk.Path.parent log.path with
  | [] => ['.']
  | parent => parent

/-- The path of a segment. -/
def segmentPath (log : Log) (date : List Char) (number : Nat) : List Char :=
  Disk.Path.join log.directory (log.family.name date number)

/-- A disk program that may fail. -/
abbrev Action := ExceptT StoreError Disk.Program

namespace Action

/-- The access, failing if it is refused. -/
def access (r : Disk.Request) : Action r.Result :=
  (Disk.Program.ask r).bind fun
    | .ok a => .done (.ok a)
    | .error f => .done (.error (.log (.disk f)))

/-- The access; `none` if there is nothing to be accessed. -/
def accessIfThere (r : Disk.Request) : Action (Option r.Result) :=
  (Disk.Program.ask r).bind fun
    | .ok a => .done (.ok (some a))
    | .error .notFound => .done (.ok none)
    | .error f => .done (.error (.log (.disk f)))

/-- Whether a path leads to something. -/
def isThere (path : List Char) : Action Bool :=
  (Disk.Program.ask (.stat path)).bind fun answer => .done (.ok answer.isOk)

end Action

/-! ## Reading -/

/-- The paths of the segments, in the order in which they are read. -/
def segments (log : Log) : Action (List (List Char)) := do
  match ← Action.accessIfThere (.list log.directory) with
  | none => pure []
  | some names =>
    pure ((SegmentFile.ofNames log.family names).map fun s =>
      Disk.Path.join log.directory s.name.toList)

/-- The entries of the log and what it took to read them. -/
structure Replay where
  /-- The entries, in the order in which they were written. -/
  entries : List Entry
  /-- The number of files read. -/
  files : Nat
  /-- Whether a damaged line was cut off from the active file. -/
  repaired : Bool
  deriving DecidableEq

/-- What is said of a damaged line; why it is no entry is not told. -/
def damage : String := "malformed entry"

/-- Reads what a file holds. -/
def parseFile (path : List Char) (bs : List UInt8) : Action Segment.Content :=
  match Segment.parse bs with
  | .ok c => pure c
  | .error line => throw (.corrupt (String.ofList path) line damage)

/-- Reads segments one after the other. -/
def readSegments : List (List Char) → Action (List Entry)
  | [] => pure []
  | path :: rest => do
    let content ← parseFile path (← Action.access (.read path))
    let entries ← readSegments rest
    pure (content.entries ++ entries)

/-- Cuts the active file after its last entry and ends that line. -/
def mend (path : List Char) (content : Segment.Content) : Action Unit := do
  Action.access (.truncate path content.cleanLength)
  if 0 < content.cleanLength ∧ !content.endsWithNewline then
    Action.access (.append path [Segment.newline])
    Action.access (.flush path)
  Action.access (.sync path)

/-- Whether something has to be done to the end of a file of the given length. -/
def needsMending (content : Segment.Content) (length : Nat) : Bool :=
  content.torn || content.cleanLength < length || !content.endsWithNewline

/-- Reads the whole log and mends the end of the active file. -/
def replay (log : Log) : Action Replay := do
  let paths ← log.segments
  let old ← readSegments paths
  match ← Action.accessIfThere (.read log.path) with
  | none => pure ⟨old, paths.length, false⟩
  | some bs =>
    let content ← parseFile log.path bs
    if needsMending content bs.length then mend log.path content
    pure ⟨old ++ content.entries, paths.length + 1, content.torn⟩

/-! ## Setting aside -/

/-- What is said when all numbers of a day are taken. -/
def noNumber : String := "no segment number left"

/-- The first number from `number` on, of at most `tries`, that is free for a segment. -/
def freeNumber (log : Log) (date : List Char) (number : Nat) : Nat → Action Nat
  | 0 => throw (.log (.other noNumber))
  | tries + 1 => do
    if ← Action.isThere (log.segmentPath date number) then
      log.freeNumber date (number + 1) tries
    else pure number

/-- Whether a file that last changed at `modified` has been kept long enough. -/
def isExpired (log : Log) (now modified : Int) : Bool :=
  modified * 1000000000 + log.retention.nanos ≤ now * 1000000000

/-- Removes those of the given segments that have been kept long enough. -/
def removeExpired (log : Log) (now : Int) : List (List Char) → Action Unit
  | [] => pure ()
  | path :: rest => do
    let stat ← Action.access (.stat path)
    if log.isExpired now stat.modified then
      discard (Action.accessIfThere (.remove path))
    log.removeExpired now rest

/-- Removes the segments that have been kept long enough. -/
def prune (log : Log) (now : Int) : Action Unit := do
  if log.retention ≠ .zero then log.removeExpired now (← log.segments)

/-- The numbers that are tried for a segment: as many as can be read back from a name. -/
def numberLimit : Nat := Text.halfWordBound

/-- Sets the active file aside and removes old segments: the path of the new segment, or none if
    there is no active file. -/
def rotate (log : Log) (moment : Moment) : Action (Option (List Char)) := do
  if ← Action.isThere log.path then
    let date := moment.today.text
    let number ← log.freeNumber date 0 numberLimit
    let target := log.segmentPath date number
    Action.access (.rename log.path target)
    log.prune moment.seconds
    pure (some target)
  else pure none

/-- Sets the active file aside if it has grown to the size limit. -/
def rotateIfFull (log : Log) (moment : Moment) : Action Unit := do
  match ← Action.accessIfThere (.stat log.path) with
  | none => pure ()
  | some stat => if log.maxBytes ≤ stat.size then discard (log.rotate moment)

/-! ## Appending -/

/-- Writes a line at the end of a file and sees that it is kept. -/
def writeLine (path : List Char) (line : List UInt8) : Action Unit := do
  Action.access (.append path line)
  Action.access (.flush path)
  Action.access (.sync path)

/-- Appends an entry. If its line cannot be written the file is cut back. -/
def append (log : Log) (moment : Moment) (e : Entry) : Action Unit := do
  log.rotateIfFull moment
  let length ← Action.access (.openAppend log.path)
  tryCatch (writeLine log.path (Segment.line e)) fun error => do
    -- The error of the write is told, also if cutting the file back fails.
    discard ((Disk.Program.ask (.truncate log.path length)).bind fun a => .done (.ok a))
    throw error

end Log

end Reachability

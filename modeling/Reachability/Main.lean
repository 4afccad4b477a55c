import Reachability.CommandLine.Session
import Std.Time

set_option autoImplicit false

/-! # The program

The outer layer: it reads the files of the log, lets the session make of them what it does, writes
back what has changed, and prints. It reaches no network, so that only hosts that need none of it
get the answer that they would get with one. -/

namespace Reachability.Program

open CommandLine

/-! ## The present -/

/-- A date of the calendar. -/
def civilDate (d : Std.Time.PlainDate) : CivilDate := ⟨d.year.toInt, d.month.toNat, d.day.toNat⟩

/-- The present. -/
def moment : IO Moment := do
  let now ← Std.Time.Timestamp.now
  let universal := (Std.Time.DateTime.ofTimestampWithZone now Std.Time.TimeZone.UTC).toPlainDateTime
  let time := universal.time
  let stamp : Timestamp :=
    ⟨civilDate universal.date, time.hour.toNat, time.minute.toNat, time.second.toNat,
      time.nanosecond.toNat⟩
  return ⟨now.toSecondsSinceUnixEpoch.toInt, stamp, civilDate (← Std.Time.PlainDate.now)⟩

/-- The environment, as far as it concerns settings. -/
def environment : IO Environment := do
  let vars ← Setting.all.mapM fun s => return (s.variableName, ← IO.getEnv s.variableName)
  return fun name => (vars.lookup name).join

/-! ## Files -/

/-- What there is under a path, if anything. -/
def look (path : String) : IO (Option Disk.Node) := do
  try
    let metadata ← ((← IO.currentDir) / path).metadata
    let time := metadata.modified.sec
    match metadata.type with
    | .dir => return some (.directory time)
    | _ => return some (.file (← IO.FS.readBinFile path).toList time)
  catch _ => return none

/-- Takes what there is under a path over to the disk. -/
def adopt (d : Disk) (path : String) : IO Disk :=
  match d.resolve path.toList with
  | .error _ => return d
  | .ok place =>
    if (Disk.device? place).isSome then return d
    else return match ← look path with
      | some node => d.put place node
      | none => d

/-- A path and the paths of the directories on the way to it. -/
def stations (path : List Char) : List String :=
  ((List.range (path.length + 1)).filter fun n => (path.drop n).head?.all (· == '/')).map
    fun n => String.ofList (path.take n)

/-- The names in a directory. -/
def namesIn (path : String) : IO (List String) := do
  try
    let entries ← ((← IO.currentDir) / path).readDir
    return entries.toList.map (·.fileName)
  catch _ => return []

/-- The paths of a log that lead to its files. -/
def logPaths (log : Log) (names : List String) : List String :=
  String.ofList log.path :: (Log.SegmentFile.ofNames log.family names).map fun s =>
    String.ofList (Disk.Path.join log.directory s.name.toList)

/-- The path for a report, if a command writes one. -/
def outputPath : Command → Option String
  | .report _ output => output
  | _ => none

/-- The disk as far as a session looks at it. -/
def readDisk (i : Invocation) : IO Disk := do
  let log := i.config.log
  let directory := log.directory
  let d ← (stations directory).foldlM adopt ⟨.empty⟩
  let d ← (logPaths log (← namesIn (String.ofList directory))).foldlM adopt d
  match outputPath i.command with
  | some path => (stations path.toList).foldlM adopt d
  | none => return d

/-- The path that leads to a place that a session may change. -/
def pathOf (i : Invocation) (d : Disk) (place : Disk.Place) : Option String :=
  let log := i.config.log
  let name := match d.resolve log.directory with
    | .ok directory => Disk.nameIn? directory place
    | .error _ => none
  match name with
  | some name => some (String.ofList (Disk.Path.join log.directory name.toList))
  | none => outputPath i.command

/-- Writes what has changed. -/
def writeDisk (i : Invocation) (before after : Disk) : IO Unit := do
  for (place, node) in after.nodes.entries do
    match node, pathOf i after place with
    | .file bytes _, some path =>
      if before.node? place ≠ some node then IO.FS.writeBinFile path ⟨bytes.toArray⟩
    | _, _ => pure ()
  for (place, _) in before.nodes.entries do
    if (after.node? place).isNone then
      if let some path := pathOf i before place then IO.FS.removeFile path

/-! ## The session -/

/-- Ends a session. -/
def conclude (ending : Ending) : IO UInt32 := do
  IO.print ending.output
  if let some complaint := ending.complaint then IO.eprintln complaint
  return UInt32.ofNat ending.exitCode

/-- Runs the program. -/
def run (words : List String) : IO UInt32 := do
  match parse (← environment) words with
  | .error refusal =>
    if refusal ≠ .version then IO.eprintln ("error: " ++ refusal.message)
    conclude (.refused refusal)
  | .ok i =>
    let present ← moment
    let uptime := (← IO.monoMsNow) / 1000
    let before ← readDisk i
    let (ending, after) := Surroundings.execute ⟨.none, fun _ => present, uptime⟩ i before
    writeDisk i before after
    conclude ending

end Reachability.Program

/-- The program. -/
def main (words : List String) : IO UInt32 := Reachability.Program.run words

import Reachability.CommandLine.Failure
import Reachability.CommandLine.Parse
import Reachability.CommandLine.Table
import Reachability.Engine.Process

set_option autoImplicit false

/-! # Sessions

What the program does for a command line: it opens the log, carries out the command and ends. All of
that is a function of the disk. -/

namespace Reachability.CommandLine

/-! ## How a session ends -/

/-- What a session prints, what it says of a failure, and its exit code. -/
structure Ending where
  /-- What is printed. -/
  output : String
  /-- What failed, if anything. -/
  complaint : Option String
  /-- The exit code. -/
  exitCode : Nat
  deriving DecidableEq

namespace Ending

/-- The end of a session that did its work. -/
def success (output : String) : Ending := ⟨output, none, 0⟩

/-- The end of a session that failed. -/
def failure (f : Failure) : Ending := ⟨"", some ("Error: " ++ f.message), 2⟩

/-- The name and the version of the program. -/
def versionLine : String := "link-keeper 0.1.0"

/-- The end of a session without a command. -/
def refused (r : Refusal) : Ending :=
  ⟨if r = .version then lines [versionLine] else "", none, r.exitCode⟩

/-- The end of a session whose settings are beyond all bounds. -/
def broken : Ending := ⟨"", none, 101⟩

end Ending

/-- What a session makes of the disk, and how it ends. -/
abbrev Outcome := Ending × Disk

/-! ## Bounds -/

/-- There are no more permits or places than this. -/
def mostPermits : Nat := Text.wordBound / 8 - 1

/-- Whether the workers can be had. -/
def Config.isFeasible (c : Config) : Bool :=
  c .maxWorkers ≤ mostPermits && c .reportWorkers ≤ mostPermits

/-! ## Commands -/

/-- Where and when a session takes place. -/
structure Surroundings where
  /-- The network. -/
  network : Network
  /-- The present at a time of the session. -/
  moment : Nat → Moment
  /-- The number of seconds since the start of the machine. -/
  uptime : Nat

namespace Surroundings

/-- The milliseconds of a session after which there is no time any more. -/
def horizon (e : Surroundings) : Nat := 1000 * (Clock.endOfTime - e.uptime)

/-- What the engine has to do with. -/
def engine (e : Surroundings) (c : Config) : Engine.Settings where
  probe := ⟨e.network, c.circuitPolicy⟩
  front := .absent
  moment := e.moment
  timeout := (c .httpTimeout).ceilMillis
  retry := .standard
  render tasks := .text (Report.text tasks)
  horizon := e.horizon

/-- The engine at the start of a session. -/
def start (c : Config) (store : Store) (d : Disk) : Engine.Run :=
  .initial (.initial .real (.ofStore store d) (c .maxWorkers) (c .reportWorkers))

/-- Checks links, and waits until the result is stored or given up. A batch that crashes breaks the
    session. -/
def check (e : Surroundings) (c : Config) (links : List String) (json : Bool) (store : Store)
    (d : Disk) : Outcome :=
  if c .maxLinks < links.length then (.failure (.tooManyLinks links.length (c .maxLinks)), d)
  else
    let (answer, r) := (start c store d).check (e.engine c) links none
    match answer with
    | some (.ok o) =>
      let text := if json then lines [String.ofList (outcomeJson o)] else table links o
      (⟨text, none, if 0 < o.unavailable then 1 else 0⟩, (r.drain (e.engine c)).shared.service.disk)
    | some (.error cause) => (.failure (.create cause), r.shared.service.disk)
    | none => (.broken, r.shared.service.disk)

/-- What a text that is written to a file shows. -/
def echo (d : Disk) (path text : String) : String :=
  match d.find path.toList with
  | .ok (_, .device .console) => text
  | _ => ""

/-- Puts a report where it is wanted. -/
def deliver (e : Surroundings) (text : String) (d : Disk) : Option String → Outcome
  | none => (.success text, d)
  | some path =>
    match Disk.perform (e.moment 0).seconds d (.write path.toList text.toUTF8.toList) with
    | (.ok _, d) => (.success (echo d path text ++ lines ["Report written to " ++ path]), d)
    | (.error fault, d) => (.failure (.write path fault), d)

/-- Reports on tasks. -/
def report (e : Surroundings) (c : Config) (ids : List TaskId) (output : Option String)
    (store : Store) (d : Disk) : Outcome :=
  if e.horizon ≤ (c .reportTimeout).ceilMillis then (.broken, d)
  else
    let (answer, r) := (start c store d).report (e.engine c) ids (c .reportTimeout).ceilMillis
    match answer with
    | some (.ok text) => e.deliver text r.shared.service.disk output
    | some (.error cause) => (.failure (.report cause), r.shared.service.disk)
    | none => (.broken, r.shared.service.disk)

/-- Carries out a command. -/
def execute (e : Surroundings) (i : Invocation) (d : Disk) : Outcome :=
  match (Store.opened i.config.log).run.run (e.moment 0).seconds d with
  | (.error cause, d) => (.failure (.load (i.config .tasksFile) cause), d)
  | (.ok store, d) =>
    if !i.config.isFeasible then (.broken, d)
    else
      match i.command with
      | .check links json => e.check i.config links json store d
      | .report ids output => e.report i.config ids output store d
      | .stats => (.success (statistics store.index), d)

/-- A whole session. -/
def session (e : Surroundings) (env : Environment) (words : List String) (d : Disk) : Outcome :=
  match parse env words with
  | .ok i => e.execute i d
  | .error r => (.refused r, d)

end Surroundings

end Reachability.CommandLine

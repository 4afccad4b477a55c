import Reachability.Engine.World
import Reachability.Log.File

set_option autoImplicit false

/-! # Settings

The settings of the program by name: what kind of value each one has, how that is read, and the
value that it has if nobody gives one. -/

namespace Reachability.CommandLine

/-! ## Refusals -/

/-- Why words make no command. To ask for help is one of the reasons. -/
inductive Refusal where
  | help
  | version
  | helpForWant
  | missingCommand
  | unknownCommand
  | unknownOption
  | missingArgument
  | missingValue
  | unwantedValue
  | badValue
  | repeated
  deriving DecidableEq

/-- The exit code of the program: to have asked for a text is no mistake. -/
def Refusal.exitCode : Refusal → Nat
  | help => 0
  | version => 0
  | _ => 2

/-- The refusal in words. -/
def Refusal.message : Refusal → String
  | help => "help was asked for"
  | version => "the version was asked for"
  | helpForWant => "a command is required"
  | missingCommand => "a command is required but none was given"
  | unknownCommand => "unrecognized command"
  | unknownOption => "unexpected argument"
  | missingArgument => "a required argument was not given"
  | missingValue => "a value is required but none was given"
  | unwantedValue => "unexpected value for an option"
  | badValue => "invalid value"
  | repeated => "an option cannot be used multiple times"

/-! ## Values -/

/-- Reads a path, which is any text but the empty one. -/
def readPath (text : String) : Except Refusal String :=
  if text.isEmpty then .error .missingValue else .ok text

/-- Reads a span. -/
def readSpan (text : String) : Except Refusal Span :=
  match Span.parse text with
  | .ok span => .ok span
  | .error _ => .error .badValue

/-- Reads a number below `2 ^ 64`. -/
def readWord (text : String) : Except Refusal Nat :=
  match Text.unsigned? Text.wordBound text.toList with
  | some n => .ok n
  | none => .error .badValue

/-- Reads a number below `2 ^ 32`; zero may have any sign. -/
def readHalfWord (text : String) : Except Refusal Nat :=
  match Text.signed? (Text.wordBound / 2) text.toList with
  | some n => if 0 ≤ n ∧ n < Text.halfWordBound then .ok n.toNat else .error .badValue
  | none => .error .badValue

/-- Reads the number of a task, which is never 0. -/
def readTaskId (text : String) : Except Refusal TaskId := do
  let n ← readWord text
  if n = 0 then .error .badValue else .ok (UInt64.ofNat n)

/-! ## Settings -/

/-- The settings. -/
inductive Setting where
  | tasksFile
  | httpTimeout
  | maxWorkers
  | maxLinks
  | reportWorkers
  | reportTimeout
  | breakerThreshold
  | breakerCooldown
  | logMaxBytes
  | logRetentionDays
  deriving DecidableEq

namespace Setting

/-- All settings, in the order in which the environment is asked for them. -/
def all : List Setting :=
  [tasksFile, httpTimeout, maxWorkers, maxLinks, reportWorkers, reportTimeout, breakerThreshold,
    breakerCooldown, logMaxBytes, logRetentionDays]

/-- The name of a setting on the command line. -/
def name : Setting → String
  | tasksFile => "tasks-file"
  | httpTimeout => "http-timeout"
  | maxWorkers => "max-workers"
  | maxLinks => "max-links"
  | reportWorkers => "report-workers"
  | reportTimeout => "report-timeout"
  | breakerThreshold => "breaker-threshold"
  | breakerCooldown => "breaker-cooldown"
  | logMaxBytes => "log-max-bytes"
  | logRetentionDays => "log-retention-days"

/-- The name of a setting in the environment: capital letters, and low lines for hyphens. -/
def variableName (s : Setting) : String :=
  s.name.map fun c => if c = '-' then '_' else c.toUpper

/-- The kind of value of a setting. -/
abbrev Value : Setting → Type
  | tasksFile => String
  | httpTimeout => Span
  | maxWorkers => Nat
  | maxLinks => Nat
  | reportWorkers => Nat
  | reportTimeout => Span
  | breakerThreshold => Nat
  | breakerCooldown => Span
  | logMaxBytes => Nat
  | logRetentionDays => Nat

/-- Reads a value. -/
def read : (s : Setting) → String → Except Refusal s.Value
  | tasksFile, text => readPath text
  | httpTimeout, text => readSpan text
  | maxWorkers, text => readWord text
  | maxLinks, text => readWord text
  | reportWorkers, text => readWord text
  | reportTimeout, text => readSpan text
  | breakerThreshold, text => readHalfWord text
  | breakerCooldown, text => readSpan text
  | logMaxBytes, text => readWord text
  | logRetentionDays, text => readWord text

/-- The value if none is given. -/
def standard : (s : Setting) → s.Value
  | tasksFile => "tasks.json"
  | httpTimeout => Engine.standardTimeout
  | maxWorkers => Engine.standardWorkers
  | maxLinks => (50 : Nat)
  | reportWorkers => Engine.standardReportWorkers
  | reportTimeout => .ofSeconds 30
  | breakerThreshold => CircuitPolicy.standard.threshold
  | breakerCooldown => CircuitPolicy.standard.cooldown
  | logMaxBytes => Log.standardMaxBytes
  | logRetentionDays => (7 : Nat)

end Setting

/-! ## All settings together -/

/-- Values for some of the settings. -/
abbrev Given := (s : Setting) → Option s.Value

namespace Given

/-- No values. -/
def none : Given := fun _ => Option.none

/-- One more value. -/
def set (g : Given) (s : Setting) (v : s.Value) : Given := fun t =>
  if h : s = t then some (h ▸ v) else g t

@[simp] theorem set_self (g : Given) (s : Setting) (v : s.Value) : g.set s v s = some v := by
  simp [set]

theorem set_of_ne (g : Given) {s t : Setting} (v : s.Value) (h : s ≠ t) : g.set s v t = g t := by
  simp [set, h]

/-- The values of `g`, and those of `other` for what `g` does not have. -/
def orElse (g other : Given) : Given := fun s => g s <|> other s

/-- Whether there is any value. -/
def isAny (g : Given) : Bool := Setting.all.any fun s => (g s).isSome

end Given

/-- A value for each setting. -/
abbrev Config := (s : Setting) → s.Value

namespace Config

/-- The given values, and the standard for the others. -/
def ofGiven (g : Given) : Config := fun s => (g s).getD s.standard

/-- The log that the settings describe. -/
def log (c : Config) : Log :=
  (Log.atPath (c .tasksFile)).withRotation (c .logMaxBytes)
    (.ofSeconds (min (c .logRetentionDays * (24 * 60 * 60)) (Text.wordBound - 1)))

/-- When circuits open. -/
def circuitPolicy (c : Config) : CircuitPolicy :=
  .ofSettings (c .breakerThreshold) (c .breakerCooldown)

end Config

end Reachability.CommandLine

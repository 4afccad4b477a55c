import Reachability.CommandLine.Setting

set_option autoImplicit false

/-! # Commands and options

What a command line can name: commands with their arguments, and the options that may stand before
or after a command. -/

namespace Reachability.CommandLine

/-! ## Commands -/

/-- A command with its arguments. -/
inductive Command where
  | check (links : List String) (json : Bool)
  | report (ids : List TaskId) (output : Option String)
  | stats
  deriving DecidableEq

namespace Command

/-- The command of a name, without arguments. -/
def named? (word : String) : Option Command :=
  if word = "check" then some (.check [] false)
  else if word = "report" then some (.report [] none)
  else if word = "stats" then some .stats
  else none

/-- Whether a word is the name of the command that explains the others. -/
def isHelp (word : String) : Bool := word == "help"

/-- Whether a word is the name of a command. -/
def isName (word : String) : Bool := isHelp word || (named? word).isSome

/-- Whether a command takes arguments that are not options. -/
def takesWords : Command → Bool
  | stats => false
  | _ => true

/-- Whether a command has the arguments that it cannot do without. -/
def isComplete : Command → Bool
  | check links _ => !links.isEmpty
  | report ids _ => !ids.isEmpty
  | stats => true

/-- The command with more arguments. -/
def addWords (words : List String) : Command → Except Refusal Command
  | check links json => .ok (.check (links ++ words) json)
  | report ids output => do .ok (.report (ids ++ (← words.mapM readTaskId)) output)
  | stats => .error .unknownOption

end Command

/-! ## Options -/

/-- What a word with a hyphen can name. -/
inductive Opt where
  | setting (s : Setting)
  | output
  | json
  | logJson
  | help
  | version
  deriving DecidableEq

namespace Opt

/-- Whether an option has a value. -/
def takesValue : Opt → Bool
  | setting _ => true
  | output => true
  | _ => false

/-- The options, with their long names, that stand for nothing but themselves. -/
def named? (name : String) : Option Opt :=
  if name = "log-json" then some .logJson
  else if name = "help" then some .help
  else (Setting.all.find? (·.name == name)).map .setting

/-- The option of a long name, after a command or in front of one. -/
def ofName? (command : Option Command) (name : String) : Option Opt :=
  match command, name with
  | none, "version" => some .version
  | some (.check ..), "json" => some .json
  | some (.report ..), "output" => some .output
  | _, _ => named? name

/-- The option of a single letter, after a command or in front of one. -/
def ofLetter? (command : Option Command) (letter : Char) : Option Opt :=
  match command, letter with
  | _, 'h' => some .help
  | none, 'V' => some .version
  | some (.report ..), 'o' => some .output
  | _, _ => none

end Opt

end Reachability.CommandLine

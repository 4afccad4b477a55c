import Reachability.CommandLine.Command

set_option autoImplicit false

/-! # Reading the command line

The words of a command line name a command with its arguments, and give values to settings, before
the command or after it. A value after the command counts before one in front of it, that before the
environment, and the environment before the standard.

An option takes its value from its own word or from the next one. Whether the value is right is
looked at when the next option or argument begins, or at the end. After `--` no word names an
option. -/

namespace Reachability.CommandLine

/-! ## Words -/

/-- What a word looks like. -/
inductive Word where
  | divider
  | long (name : String) (value : Option String)
  | letters (cs : List Char)
  | plain

/-- Splits what follows two hyphens into a name and the value after the first equals sign. -/
def Word.ofName (cs : List Char) : Word :=
  let name := cs.takeWhile (· ≠ '=')
  match cs.drop name.length with
  | [] => .long (String.ofList name) none
  | _ :: value => .long (String.ofList name) (some (String.ofList value))

/-- Looks at a word. A lone hyphen is like any other word. -/
def Word.ofString (s : String) : Word :=
  match s.toList with
  | ['-', '-'] => .divider
  | '-' :: '-' :: cs => .ofName cs
  | '-' :: c :: cs => .letters (c :: cs)
  | _ => .plain

/-! ## What has been read -/

/-- What waits to be looked at: an option, perhaps without its value so far, or arguments. -/
inductive Waiting where
  | value (opt : Opt) (text : Option String)
  | words (ws : List String)

/-- What has been read before a command, or after it. -/
structure Reading where
  /-- The command; none in front of it. -/
  command : Option Command
  /-- The values of settings. -/
  given : Given
  /-- Whether logs are wanted as JSON. -/
  logJson : Bool
  /-- What waits to be looked at. -/
  waiting : Option Waiting
  /-- Whether no more options are read. -/
  isDivided : Bool

namespace Reading

/-- Nothing has been read. -/
def start (command : Option Command) : Reading := ⟨command, .none, false, none, false⟩

/-- Whether the next word is the value of an option. -/
def wantsValue (r : Reading) : Bool :=
  match r.waiting with
  | some (.value _ none) => true
  | _ => false

/-- Gives an option its value. No option is given twice. -/
def accept (r : Reading) (text : String) : Opt → Except Refusal Reading
  | .setting s => do
    if (r.given s).isSome then throw .repeated
    .ok { r with given := r.given.set s (← s.read text) }
  | .output => do
    match r.command with
    | some (.report ids none) => .ok { r with command := some (.report ids (← readPath text)) }
    | _ => .error .repeated
  | _ => .error .unwantedValue

/-- Looks at what waits. -/
def settle (r : Reading) : Except Refusal Reading :=
  let rest := { r with waiting := none }
  match r.waiting with
  | none => .ok r
  | some (.value _ none) => .error .missingValue
  | some (.value opt (some text)) => rest.accept text opt
  | some (.words ws) => do
    match r.command with
    | some command => .ok { rest with command := some (← command.addWords ws) }
    | none => .error .unknownCommand

/-- Takes note of an option without a value. -/
def mark (r : Reading) (opt : Opt) : Except Refusal Reading := do
  let r ← r.settle
  match opt, r.command with
  | .help, _ => .error .help
  | .version, _ => .error .version
  | .json, some (.check links false) => .ok { r with command := some (.check links true) }
  | .logJson, _ => if r.logJson then .error .repeated else .ok { r with logJson := true }
  | _, _ => .error .repeated

/-- Takes note of an option with a value, or lets it wait for one. -/
def hold (r : Reading) (opt : Opt) (value : Option String) : Except Refusal Reading := do
  let r ← r.settle
  match value with
  | some text => r.accept text opt
  | none => .ok { r with waiting := some (.value opt none) }

/-- Reads an option by its long name. -/
def long (r : Reading) (name : String) (value : Option String) : Except Refusal Reading :=
  match Opt.ofName? r.command name with
  | none => .error .unknownOption
  | some opt =>
    if opt.takesValue then r.hold opt value
    else if value.isSome then .error .unwantedValue
    else r.mark opt

/-- Reads options by their letters. The value of the last one may follow its letter, or an equals
    sign after it. -/
def letters (r : Reading) : List Char → Except Refusal Reading
  | [] => .ok r
  | c :: cs =>
    match Opt.ofLetter? r.command c with
    | none => .error .unknownOption
    | some opt =>
      if opt.takesValue then
        match cs with
        | [] => r.hold opt none
        | '=' :: value => r.hold opt (some (String.ofList value))
        | value => r.hold opt (some (String.ofList value))
      else do (← r.mark opt).letters cs

/-- Takes a word as an argument of the command. -/
def word (r : Reading) (w : String) : Except Refusal Reading := do
  match r.command with
  | none => .error (if r.isDivided && Command.isName w then .unknownOption else .unknownCommand)
  | some command =>
    if command.takesWords then
      match r.waiting with
      | some (.words ws) => .ok { r with waiting := some (.words (ws ++ [w])) }
      | _ => .ok { (← r.settle) with waiting := some (.words [w]) }
    else .error .unknownOption

/-- Takes the next word. -/
def take (r : Reading) (w : String) : Except Refusal Reading :=
  if r.isDivided then r.word w
  else
    match Word.ofString w, r.waiting with
    | .divider, _ => .ok { r with isDivided := true }
    | .long name value, _ => r.long name value
    | .letters cs, _ => r.letters cs
    | .plain, some (.value opt none) => .ok { r with waiting := some (.value opt (some w)) }
    | .plain, _ => r.word w

end Reading

/-! ## The environment -/

/-- The values of the variables that there are. -/
abbrev Environment := String → Option String

/-- Reads the variables of those of the settings that have not been given. All of them have to be
    right. -/
def Environment.read (env : Environment) (given : Given) : List Setting → Except Refusal Given
  | [] => .ok .none
  | s :: rest => do
    let value ← match given s, env s.variableName with
      | none, some text => (s.read text).map some
      | _, _ => .ok none
    let others ← env.read given rest
    .ok (match value with
      | some v => others.set s v
      | none => others)

/-! ## The whole line -/

/-- What the command line asks for. -/
structure Invocation where
  /-- The command. -/
  command : Command
  /-- The settings. -/
  config : Config
  /-- Whether logs are wanted as JSON. -/
  logJson : Bool

/-- Reads the words after a command, and the variables of the settings that are not among them. -/
def readCommand (env : Environment) (command : Command) (words : List String) :
    Except Refusal (Command × Reading × Given) := do
  let r ← words.foldlM Reading.take (.start (some command))
  let r ← r.settle
  let vars ← env.read r.given Setting.all
  match r.command with
  | some command =>
    if command.isComplete then .ok (command, r, vars) else .error .missingArgument
  | none => .error .missingCommand

/-- What is said when help on the given words is wanted. -/
def explain : List String → Refusal
  | [] => .help
  | [w] => if Command.isName w then .help else .unknownCommand
  | _ => .unknownCommand

/-- Puts together what stands in front of a command and after it. -/
def combine (env : Environment) (front : Reading) (command : Command) (words : List String) :
    Except Refusal Invocation := do
  let (command, r, vars) ← readCommand env command words
  let front ← front.settle
  let others ← env.read front.given Setting.all
  .ok ⟨command, .ofGiven (((r.given.orElse front.given).orElse vars).orElse others),
    r.logJson || front.logJson⟩

/-- The end of a command line without a command. -/
def finish (env : Environment) (front : Reading) : Except Refusal Invocation := do
  let front ← front.settle
  let vars ← env.read front.given Setting.all
  .error (if front.given.isAny || vars.isAny || front.logJson then .missingCommand
    else .helpForWant)

/-- Reads words up to a command, and all after it. -/
def readWords (env : Environment) (front : Reading) : List String → Except Refusal Invocation
  | [] => finish env front
  | w :: words =>
    if !front.isDivided && !front.wantsValue && Command.isHelp w then .error (explain words)
    else
      match if front.isDivided || front.wantsValue then none else Command.named? w with
      | some command => combine env front command words
      | none => do readWords env (← front.take w) words

/-- Reads a command line. -/
def parse (env : Environment) (words : List String) : Except Refusal Invocation :=
  readWords env (.start none) words

end Reachability.CommandLine

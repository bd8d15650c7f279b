/-
**What the arguments of the program ask for.**

* `Level` — the program itself and its commands; each has options of its own.
* `Switch` — the options. Some take a value: the next argument, or the rest of the same one, with or
  without an equals sign. A value does not start with a dash, unless it is nothing else.
* `Given` — what was given at a level so far; `Given.take` — one more argument.
* `Invocation.ofArguments` — the command to run, or why there is none. An option for all commands may
  stand before or after the command's name; after it counts.
-/

import ScriptLint.Ban.Selection

namespace ScriptLint.Command

/-- The form of a report. -/
inductive Format where
  | text
  | json
  | compact
  | pretty
deriving Repr, DecidableEq, Inhabited

/-- The form of a name. -/
def Format.ofName? : String → Option Format
  | "text" => some text
  | "json" => some json
  | "compact" => some compact
  | "pretty" => some pretty
  | _ => none

/-- Which rules and scripts a run is about. -/
structure Selection where
  /-- Names or codes of rules, with commas between them. -/
  rules : Option String
  preset : Option Preset
  /-- Patterns of paths to leave out. -/
  exclude : List String
deriving Repr, DecidableEq, Inhabited

/-- A command with what it was given. -/
inductive Action where
  | check (path : String) (format : Format) (selection : Selection)
  | fix (path : String) (isDryRun : Bool) (selection : Selection)
  | listRules
  | init (isForced : Bool)
deriving Repr, DecidableEq, Inhabited

/-- A command, and the settings file given for it. -/
structure Invocation where
  config : Option String
  action : Action
deriving Repr, DecidableEq, Inhabited

/-- Why there is no command to run. -/
inductive Stop where
  /-- The arguments are wrong. -/
  | misuse
  /-- Help was asked for. -/
  | help
  /-- The version was asked for. -/
  | version
deriving Repr, DecidableEq, Inhabited

/-! ### Levels and options -/

/-- The program and its commands. -/
inductive Level where
  | program
  | check
  | fix
  | listRules
  | init
deriving Repr, DecidableEq, Inhabited

/-- The command of a name. -/
def Level.ofName? : String → Option Level
  | "check" => some check
  | "fix" => some fix
  | "list-rules" => some listRules
  | "init" => some init
  | _ => none

/-- The options. -/
inductive Switch where
  | verbose
  | config
  | help
  | version
  | format
  | rules
  | preset
  | exclude
  | dryRun
  | force
deriving Repr, DecidableEq, Inhabited

namespace Switch

/-- The long name of an option. -/
def long : Switch → String
  | verbose => "verbose"
  | config => "config"
  | help => "help"
  | version => "version"
  | format => "format"
  | rules => "rules"
  | preset => "preset"
  | exclude => "exclude"
  | dryRun => "dry-run"
  | force => "force"

/-- The letter of an option. -/
def letter? : Switch → Option Char
  | verbose => some 'v'
  | config => some 'c'
  | help => some 'h'
  | version => some 'V'
  | format => some 'f'
  | exclude => some 'e'
  | rules | preset | dryRun | force => none

/-- The option takes a value. -/
def takesValue : Switch → Bool
  | config | format | rules | preset | exclude => true
  | verbose | help | version | dryRun | force => false

/-- The option may take the value. -/
def admits (option : Switch) (value : String) : Bool :=
  match option with
  | config => !value.isEmpty
  | format => (Format.ofName? value).isSome
  | preset => (Preset.ofName? value).isSome
  | _ => true

end Switch

/-- The options of a level. -/
def Level.switches : Level → List Switch
  | program => [.verbose, .config, .help, .version]
  | check => [.verbose, .config, .help, .format, .rules, .preset, .exclude]
  | fix => [.verbose, .config, .help, .dryRun, .rules, .preset, .exclude]
  | listRules => [.verbose, .config, .help]
  | init => [.verbose, .config, .help, .force]

/-- The level takes a path. -/
def Level.takesPath : Level → Bool
  | check | fix => true
  | program | listRules | init => false

/-! ### Reading -/

/-- What was given at a level. -/
structure Given where
  /-- Options with their values, in order; the value of an option without one is empty. -/
  options : List (Switch × String) := []
  path : Option String := none
  /-- The option that the next argument is the value of. -/
  pending : Option Switch := none
  /-- Two dashes were given: what follows is no option. -/
  isTrailing : Bool := false
deriving Repr, DecidableEq, Inhabited

namespace Given

/-- The values of an option. -/
def values (given : Given) (option : Switch) : List String :=
  (given.options.filter (·.1 == option)).map (·.2)

/-- The option was given. -/
def has (given : Given) (option : Switch) : Bool :=
  given.options.any (·.1 == option)

/-- The option is given a value. Only patterns may be given more than once. -/
def set (given : Given) (option : Switch) (value : String) : Except Stop Given :=
  if option.admits value && (option == .exclude || !given.has option) then
    .ok { given with options := given.options ++ [(option, value)], pending := none }
  else
    .error .misuse

/-- An option without a value is given. -/
def flag (given : Given) (option : Switch) : Except Stop Given :=
  match option with
  | .help => .error .help
  | .version => .error .version
  | _ => given.set option ""

/-- A path is given. -/
def setPath (level : Level) (given : Given) (path : String) : Except Stop Given :=
  if level.takesPath && given.path.isNone && given.pending.isNone && !path.isEmpty then
    .ok { given with path := some path }
  else
    .error .misuse

/-- An argument with two dashes before it. -/
def takeLong (level : Level) (given : Given) (body : List Char) : Except Stop Given :=
  let name := String.ofList (body.takeWhile (· != '='))
  match level.switches.find? (·.long == name), body.dropWhile (· != '=') with
  | none, _ => .error .misuse
  | some option, [] =>
    if option.takesValue then .ok { given with pending := some option } else given.flag option
  | some option, _ :: value =>
    if option.takesValue then given.set option (String.ofList value) else .error .misuse

/-- Letters with one dash before them. -/
def takeLetters (level : Level) (given : Given) : List Char → Except Stop Given
  | [] => .ok given
  | letter :: rest =>
    match level.switches.find? (·.letter? == some letter) with
    | none => .error .misuse
    | some option =>
      if option.takesValue then
        match rest with
        | [] => .ok { given with pending := some option }
        | '=' :: value => given.set option (String.ofList value)
        | value => given.set option (String.ofList value)
      else
        match given.flag option with
        | .ok next => takeLetters level next rest
        | .error stop => .error stop

/-- One more argument at a level. -/
def take (level : Level) (given : Given) (argument : String) : Except Stop Given :=
  if given.isTrailing then
    given.setPath level argument
  else
    match argument.toList, given.pending with
    | ['-', '-'], none => .ok { given with isTrailing := true }
    | '-' :: '-' :: body, none => given.takeLong level body
    | '-' :: letter :: more, none => given.takeLetters level (letter :: more)
    | '-' :: _ :: _, some _ => .error .misuse
    | _, some option => given.set option argument
    | _, none => given.setPath level argument

/-- All arguments of a command. -/
def takeAll (level : Level) (given : Given) (arguments : List String) : Except Stop Given := do
  let last ← arguments.foldlM (take level) given
  if last.pending.isSome then .error .misuse else .ok last

/-- The arguments before the name of a command; the name and what follows it. Help may be asked for in
place of a command. -/
def takeUntilCommand (given : Given) : List String → Except Stop (Given × Level × List String)
  | [] => .error .misuse
  | argument :: rest =>
    if given.isTrailing || given.pending.isSome then
      match take .program given argument with
      | .ok next => takeUntilCommand next rest
      | .error stop => .error stop
    else if argument == "help" then
      match rest with
      | [] => .error .help
      | [topic] =>
        .error (if topic == "help" || (Level.ofName? topic).isSome then .help else .misuse)
      | _ => .error .misuse
    else
      match Level.ofName? argument with
      | some level => .ok (given, level, rest)
      | none =>
        match take .program given argument with
        | .ok next => takeUntilCommand next rest
        | .error stop => .error stop

/-- The selection that was given. -/
def selection (given : Given) : Selection where
  rules := (given.values .rules).head?
  preset := (given.values .preset).head?.bind Preset.ofName?
  exclude := given.values .exclude

/-- The command of a level with what was given; none for the program itself. -/
def action? (given : Given) (level : Level) : Option Action :=
  let path := given.path.getD "."
  let format := ((given.values .format).head?.bind Format.ofName?).getD .text
  match level with
  | .program => none
  | .check => some (.check path format given.selection)
  | .fix => some (.fix path (given.has .dryRun) given.selection)
  | .listRules => some .listRules
  | .init => some (.init (given.has .force))

end Given

/-- The command that the arguments ask for. -/
def Invocation.ofArguments (arguments : List String) : Except Stop Invocation := do
  let (before, level, rest) ← Given.takeUntilCommand {} arguments
  let after ← Given.takeAll level {} rest
  match after.action? level with
  | none => .error .misuse
  | some action => .ok ⟨(after.values .config ++ before.values .config).head?, action⟩

end ScriptLint.Command

/-!
# The command line

What can be said on the command line, and how it is read.  The line is read level by
level: options and words of the program, then of a command, then of a command inside it.
Options that every level takes may stand at any of them; the innermost one counts.
-/

namespace Backlog.Command

/-- The shells that completions can be had for. -/
inductive Shell where
  | bash
  | elvish
  | fish
  | powershell
  | zsh
  deriving DecidableEq, Repr, Inhabited

namespace Shell

/-- The name of a shell. -/
def name : Shell → String
  | .bash => "bash"
  | .elvish => "elvish"
  | .fish => "fish"
  | .powershell => "powershell"
  | .zsh => "zsh"

/-- The shell of a name. -/
def ofName? (s : String) : Option Shell :=
  [bash, elvish, fish, powershell, zsh].find? fun shell => shell.name == s

end Shell

/-- What the program is to do. -/
inductive Action where
  | daemon
  | status
  | activate
  | deactivate
  | replay (file : String) (active : Bool)
  | configPath
  | configShow
  | configValidate
  | completions (shell : Shell)
  deriving DecidableEq, Repr

/-- A command line that was understood. -/
structure Invocation where
  config : Option String
  json : Bool
  noColor : Bool
  action : Action
  deriving DecidableEq, Repr

/-- Why a command line leads to no action. -/
inductive Usage where
  | help
  | helpInsteadOfAction
  | version
  | missingCommand
  | unknownCommand
  | unknownArgument
  | missingArgument
  | invalidValue
  | tooManyValues
  | repeatedOption
  deriving DecidableEq, Repr

/-- Asking for help or the version is no mistake. -/
def Usage.exitCode : Usage → UInt32
  | .help | .version => 0
  | _ => 2

/-- A level of the command line. -/
inductive Level where
  | program
  | config
  /-- A command that takes no words. -/
  | plain (action : Action)
  | replay
  | completions
  deriving DecidableEq, Repr

namespace Level

/-- The commands of a level. -/
def commands : Level → List (String × Level)
  | .program =>
    [("daemon", .plain .daemon), ("status", .plain .status), ("activate", .plain .activate),
      ("deactivate", .plain .deactivate), ("replay", .replay), ("config", .config),
      ("completions", .completions)]
  | .config =>
    [("path", .plain .configPath), ("show", .plain .configShow),
      ("validate", .plain .configValidate)]
  | _ => []

/-- The level that a word leads to. -/
def command? (level : Level) (word : String) : Option Level := level.commands.lookup word

/-- Whether a level has commands, and so the word for help. -/
def hasCommands (level : Level) : Bool := !level.commands.isEmpty

/-- Whether a level takes a word of its own. -/
def takesWord : Level → Bool
  | .replay | .completions => true
  | _ => false

end Level

/-- A value that was read and is not checked yet. -/
inductive Pending where
  | nothing
  /-- The option for the configuration file, with its value if that was read. -/
  | config (value : Option String)
  /-- The word that the level takes. -/
  | word (value : String)
  deriving DecidableEq, Repr

/-- What was said at a level. -/
structure Said where
  config : Option String
  json : Bool
  noColor : Bool
  active : Bool
  word : Option String
  pending : Pending
  /-- Whether the end of the options was marked. -/
  isTrailing : Bool
  deriving DecidableEq, Repr

namespace Said

/-- Nothing was said yet. -/
def nothing : Said := ⟨none, false, false, false, none, .nothing, false⟩

/-- Check the value of the option for the configuration file. -/
def putConfig (s : Said) (value : String) : Except Usage Said :=
  if s.config.isSome then .error .repeatedOption
  else if value.isEmpty then .error .invalidValue
  else .ok { s with config := some value, pending := .nothing }

/-- Check the word of a level. -/
def putWord (level : Level) (s : Said) (value : String) : Except Usage Said :=
  let isValid :=
    match level with
    | .completions => (Shell.ofName? value).isSome
    | _ => !value.isEmpty
  if isValid then .ok { s with word := some value, pending := .nothing }
  else .error .invalidValue

/-- Check the value that is pending. -/
def resolve (level : Level) (s : Said) : Except Usage Said :=
  match s.pending with
  | .nothing => .ok s
  | .config none => .error .invalidValue
  | .config (some value) => s.putConfig value
  | .word value => s.putWord level value

/-- Whether the option for the configuration file waits for its value. -/
def isWaiting (s : Said) : Bool := s.pending == .config none

/-- Whether anything was said. -/
def isAnything (s : Said) : Bool := s.config.isSome || s.json || s.noColor

end Said

/-- Read an option without a value. -/
def readFlag (level : Level) (s : Said) (name : String) : Except Usage Said := do
  let s ← s.resolve level
  if name = "help" then throw .help
  else if name = "version" then throw .version
  else if name = "json" then
    if s.json then throw .repeatedOption else return { s with json := true }
  else if name = "no-color" then
    if s.noColor then throw .repeatedOption else return { s with noColor := true }
  else if s.active then throw .repeatedOption
  else return { s with active := true }

/-- Whether a level has an option without a value. -/
def hasFlag (level : Level) (name : String) : Bool :=
  name == "help" || name == "json" || name == "no-color"
    || (name == "version" && level == .program) || (name == "active" && level == .replay)

/-- Read an option after its two dashes. -/
def readOption (level : Level) (s : Said) (text : String) : Except Usage Said :=
  let name := String.ofList (text.toList.takeWhile (· ≠ '='))
  let value? :=
    match text.toList.dropWhile (· ≠ '=') with
    | [] => none
    | _ :: value => some (String.ofList value)
  if name = "config" then do
    let s ← s.resolve level
    match value? with
    | some value => s.putConfig value
    | none => return { s with pending := .config none }
  else if hasFlag level name then
    match value? with
    | some _ => .error .tooManyValues
    | none => readFlag level s name
  else .error .unknownArgument

/-- Read an option of one letter; what follows the letter does not matter any more. -/
def readLetter (level : Level) (s : Said) (letter : Char) : Except Usage Said :=
  if letter = 'h' then readFlag level s "help"
  else if letter = 'V' ∧ level = .program then readFlag level s "version"
  else .error .unknownArgument

/-- Read a word that is neither a command nor the value of an option. -/
def readWord (level : Level) (s : Said) (word : String) : Except Usage Said :=
  if level.takesWord && s.word.isNone && !(s.pending matches .word _) then do
    let s ← s.resolve level
    return { s with pending := .word word }
  else if s.isTrailing && (word == "help" || (level.command? word).isSome)
      && level.hasCommands then
    .error .unknownArgument
  else if level.hasCommands then .error .unknownCommand
  else .error .unknownArgument

/-- The help for a row of words. -/
def helpFor (level : Level) : List String → Usage
  | [] => .help
  | "help" :: rest =>
    if !level.hasCommands then .unknownCommand
    else if rest.isEmpty then .help
    else .unknownCommand
  | word :: rest =>
    match level.command? word with
    | some inner => helpFor inner rest
    | none => .unknownCommand

/-- What was said at each level, innermost first. -/
abbrev Levels := List (Level × Said)

/-- Check what was said at a level where the line ends. -/
def finish (level : Level) (s : Said) : Except Usage Said := do
  let s ← s.resolve level
  match level with
  | .program => throw (if s.isAnything then .missingCommand else .helpInsteadOfAction)
  | .replay | .completions => if s.word.isNone then throw .missingArgument else return s
  | _ => return s

/-- Read the words from a level on. -/
def readLevel (level : Level) (s : Said) : List String → Except Usage Levels
  | [] => do
    let s ← finish level s
    return [(level, s)]
  | word :: rest =>
    if s.isTrailing then
      match readWord level s word with
      | .error fault => .error fault
      | .ok s => readLevel level s rest
    else if !s.isWaiting && level.hasCommands && word == "help" then
      .error (helpFor level rest)
    else
      match (if s.isWaiting then none else level.command? word) with
      | some inner => do
        let levels ← readLevel inner .nothing rest
        let s ← s.resolve level
        return levels ++ [(level, s)]
      | none =>
        let step : Except Usage Said :=
          match word.toList with
          | ['-', '-'] => .ok { s with isTrailing := true }
          | '-' :: '-' :: text => readOption level s (String.ofList text)
          | '-' :: letter :: _ => readLetter level s letter
          | _ =>
            if s.isWaiting then .ok { s with pending := .config (some word) }
            else readWord level s word
        match step with
        | .error fault => .error fault
        | .ok s => readLevel level s rest

/-- What the innermost level asks for. -/
def actionOf (level : Level) (s : Said) : Option Action :=
  match level with
  | .program => none
  | .config => some .configPath
  | .plain action => some action
  | .replay => s.word.map fun file => .replay file s.active
  | .completions => (s.word.bind Shell.ofName?).map .completions

/-- Read a command line. -/
def read (words : List String) : Except Usage Invocation := do
  let levels ← readLevel .program .nothing words
  match levels with
  | [] => throw .missingCommand
  | (level, s) :: _ =>
    match actionOf level s with
    | none => throw .missingCommand
    | some action =>
      return {
        config := levels.findSome? fun (_, s) => s.config
        json := levels.any fun (_, s) => s.json
        noColor := levels.any fun (_, s) => s.noColor
        action }

end Backlog.Command

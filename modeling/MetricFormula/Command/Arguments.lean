import MetricFormula.Command.Basic

/-!
# Command line arguments

The arguments are read level by level: first those of the program, up to the name of a command, then
those of the command, and so on for commands that have commands of their own. Every level knows the
global options and its own. An option takes its value after an equals sign or from the next
argument, which then does not begin with a dash unless it is a dash alone; after two dashes
everything is positional.
-/

namespace MetricFormula

/-- Why the arguments are refused. -/
inductive UsageError
  /-- An option or a positional argument that the level does not have. -/
  | unexpectedArgument (argument : String)
  /-- An option without its value. -/
  | missingValue (name : String)
  /-- An option whose value is empty but must not be. -/
  | emptyValue (name : String)
  /-- A value for a flag, which takes none. -/
  | unexpectedValue (name : String)
  /-- An option or a flag that is given twice. -/
  | repeated (name : String)
  /-- A required argument that is not given. -/
  | missingArgument (name : String)
  /-- No command is named. -/
  | missingCommand
  /-- There is no such command. -/
  | unknownCommand (name : String)
deriving DecidableEq, Repr

namespace UsageError

/-- The message of the error. -/
def message : UsageError → String
  | unexpectedArgument argument => s!"unexpected argument '{argument}'"
  | missingValue name => s!"a value is required for '{name}'"
  | emptyValue name => s!"the value for '{name}' must not be empty"
  | unexpectedValue name => s!"'{name}' takes no value"
  | repeated name => s!"'{name}' cannot be used multiple times"
  | missingArgument name => s!"the argument '{name}' is required"
  | missingCommand => "a command is required"
  | unknownCommand name => s!"there is no command '{name}'"

end UsageError

/-- Why reading the arguments ends early. -/
inductive Interruption
  /-- The version is asked for. -/
  | version
  /-- Help is asked for. -/
  | help
  /-- The arguments are refused. -/
  | usage (error : UsageError)
deriving DecidableEq, Repr

/-- The arguments that a level has besides the global ones. -/
structure ArgumentLevel where
  /-- The options without value. -/
  flags : List String := []
  /-- The options with a value. -/
  options : List String := []
  /-- The options whose value must not be empty. -/
  nonEmpty : List String := []
  /-- The name of the positional argument, if there is one. -/
  positional : Option String := none
  /-- The names of the commands; none if the level is that of a command without commands. -/
  commands : List String := []
  /-- The version can be asked for. -/
  hasVersion : Bool := false
deriving Repr

/-- The arguments that are read at a level. -/
structure LevelArguments where
  /-- The flags that are given. -/
  flags : List String := []
  /-- The options that are given, with their values. -/
  values : List (String × String) := []
  /-- The positional argument. -/
  positional : Option String := none
deriving DecidableEq, Repr

namespace ArgumentLevel

/-- The level with the global options added. -/
def withGlobals (level : ArgumentLevel) : ArgumentLevel :=
  { level with
    flags := "--pretty" :: level.flags
    options := "--config" :: level.options
    nonEmpty := "--config" :: level.nonEmpty }

/-- Take an option with its value. -/
def addValue (level : ArgumentLevel) (found : LevelArguments) (name value : String) :
    Except Interruption LevelArguments :=
  if found.values.any (·.1 == name) then .error (.usage (.repeated name))
  else if level.nonEmpty.contains name && value.isEmpty then .error (.usage (.emptyValue name))
  else .ok { found with values := found.values ++ [(name, value)] }

/-- Take a flag. Only verbosity may be raised repeatedly, and nothing depends on it. -/
def addFlag (found : LevelArguments) (name : String) : Except Interruption LevelArguments :=
  if name = "--verbose" then .ok found
  else if found.flags.contains name then .error (.usage (.repeated name))
  else .ok { found with flags := found.flags ++ [name] }

/-- Take a positional argument. -/
def addPositional (level : ArgumentLevel) (found : LevelArguments) (argument : String) :
    Except Interruption LevelArguments :=
  if level.positional.isSome && found.positional.isNone then
    .ok { found with positional := some argument }
  else .error (.usage (.unexpectedArgument argument))

/-- Take positional arguments only. -/
def addPositionals (level : ArgumentLevel) (found : LevelArguments) (arguments : List String) :
    Except Interruption LevelArguments :=
  arguments.foldlM (level.addPositional ·) found

/-- Take the letters of an argument that begins with one dash. -/
def checkLetters (level : ArgumentLevel) (argument : String) :
    List Char → Except Interruption Unit
  | [] => .ok ()
  | 'v' :: letters => level.checkLetters argument letters
  | 'h' :: _ => .error .help
  | 'V' :: _ =>
    if level.hasVersion then .error .version
    else .error (.usage (.unexpectedArgument argument))
  | _ :: _ => .error (.usage (.unexpectedArgument argument))

/-- Name and value of an argument that begins with two dashes. -/
def splitValue (argument : List Char) : String × Option String :=
  let name := String.ofList (argument.takeWhile (· != '='))
  match argument.dropWhile (· != '=') with
  | [] => (name, none)
  | _ :: value => (name, some (String.ofList value))

/-- An argument begins with a dash and is more than that. -/
def isDashed (argument : String) : Bool :=
  match argument.toList with
  | '-' :: _ :: _ => true
  | _ => false

/-- Whether an option is given with its value, or as a flag. -/
inductive LongArgument
  /-- A flag. -/
  | flag (name : String)
  /-- An option with its value. -/
  | valued (name value : String)
  /-- An option whose value is the next argument. -/
  | pending (name : String)

/-- What an argument with two dashes says. -/
def readLong (level : ArgumentLevel) (argument : String) : Except Interruption LongArgument :=
  let (name, value) := splitValue argument.toList
  if name = "--help" then .error .help
  else if name = "--version" && level.hasVersion then .error .version
  else if name = "--verbose" || level.flags.contains name then
    match value with
    | none => .ok (.flag name)
    | some _ => .error (.usage (.unexpectedValue name))
  else if level.options.contains name then
    match value with
    | some value => .ok (.valued name value)
    | none => .ok (.pending name)
  else .error (.usage (.unexpectedArgument argument))

/-- Read the arguments of a level: what is found, and the command with the arguments after it, if
the level has commands and one is named. -/
def read (level : ArgumentLevel) (found : LevelArguments) :
    List String → Except Interruption (LevelArguments × Option (String × List String))
  | [] => .ok (found, none)
  | argument :: rest =>
    match argument.toList with
    | ['-', '-'] => do return (← level.addPositionals found rest, none)
    | '-' :: '-' :: _ => do
      match ← level.readLong argument, rest with
      | .flag name, rest => level.read (← addFlag found name) rest
      | .valued name value, rest => level.read (← level.addValue found name value) rest
      | .pending name, [] => throw (.usage (.missingValue name))
      | .pending name, value :: rest =>
        if isDashed value then throw (.usage (.missingValue name))
        else level.read (← level.addValue found name value) rest
    | '-' :: letter :: letters => do
      level.checkLetters argument (letter :: letters)
      level.read found rest
    | _ => do
      if level.commands.isEmpty then level.read (← level.addPositional found argument) rest
      else if level.commands.contains argument then return (found, some (argument, rest))
      else if argument = "help" then throw .help
      else throw (.usage (.unknownCommand argument))

end ArgumentLevel

namespace LevelArguments

/-- The flag is given. -/
def has (found : LevelArguments) (name : String) : Bool :=
  found.flags.contains name

/-- The value of an option, if it is given. -/
def value? (found : LevelArguments) (name : String) : Option String :=
  found.values.lookup name

/-- The value of an option that has to be given. -/
def require (found : LevelArguments) (name : String) : Except Interruption String :=
  match found.value? name with
  | some value => .ok value
  | none => .error (.usage (.missingArgument name))

/-- The positional argument, which has to be given. -/
def requirePositional (found : LevelArguments) (name : String) : Except Interruption String :=
  match found.positional with
  | some value => .ok value
  | none => .error (.usage (.missingArgument name))

/-- The settings file for a level: as given there, otherwise as the environment names it, where it
must not be empty. -/
def checkConfig (found : LevelArguments) (environment : Environment) : Except Interruption Unit :=
  if (found.value? "--config").isNone && environment.config = some "" then
    .error (.usage (.emptyValue "KPIFORM_CONFIG"))
  else .ok ()

end LevelArguments

namespace Command

/-- The arguments of the program itself. -/
def topLevel : ArgumentLevel where
  commands :=
    ["validate", "build", "tokens", "format", "edit", "indicator", "metrics", "config"]
  hasVersion := true

/-- The arguments of a command. -/
def level : String → ArgumentLevel
  | "validate" => { flags := ["--json"], positional := some "FORMULA" }
  | "build" =>
    { options := ["--catalog"], nonEmpty := ["--catalog"], positional := some "FORMULA" }
  | "tokens" => { positional := some "FORMULA" }
  | "format" => { positional := some "TREE" }
  | "edit" => { options := ["--formula"] }
  | "indicator" =>
    { flags := ["--flip"]
      options := ["--name", "--formula", "--client", "--department", "--catalog"]
      nonEmpty := ["--catalog"] }
  | "metrics" => { options := ["--catalog"], nonEmpty := ["--catalog"] }
  | "config" => { commands := ["path", "init", "show"] }
  | _ => {}

/-- The arguments of a command for the settings file. -/
def configLevel : String → ArgumentLevel
  | "init" => { flags := ["--force"] }
  | _ => {}

/-- The command of the given name with its arguments, unless it has commands of its own. -/
def ofArguments (name : String) (found : LevelArguments) : Except Interruption Command :=
  match name with
  | "validate" => do return .validate (← found.requirePositional "FORMULA") (found.has "--json")
  | "build" => do return .build (← found.requirePositional "FORMULA") (found.value? "--catalog")
  | "tokens" => do return .tokens (← found.requirePositional "FORMULA")
  | "format" => do return .format (← found.requirePositional "TREE")
  | "edit" => .ok (.edit ((found.value? "--formula").getD ""))
  | "indicator" => do
    let name ← found.require "--name"
    let formula ← found.require "--formula"
    let client ← found.require "--client"
    let department ← found.require "--department"
    return .indicator ⟨name, formula, client, department, found.has "--flip"⟩
      (found.value? "--catalog")
  | "metrics" => .ok (.metrics (found.value? "--catalog"))
  | name => .error (.usage (.unknownCommand name))

/-- The command for the settings file of the given name. -/
def ofConfigArguments (name : String) (found : LevelArguments) :
    Except Interruption ConfigCommand :=
  match name with
  | "path" => .ok .path
  | "init" => .ok (.init (found.has "--force"))
  | "show" => .ok .show
  | name => .error (.usage (.unknownCommand name))

end Command

namespace Invocation

/-- The invocation of a command whose levels, innermost first, have the given arguments. -/
def ofLevels (environment : Environment) (levels : List LevelArguments) (command : Command) :
    Except Interruption Invocation := do
  for found in levels do
    found.checkConfig environment
  let named := levels.findSome? (·.value? "--config")
  return ⟨named <|> environment.config, levels.any (·.has "--pretty"), command⟩

/-- Read the arguments of the program. -/
def ofArguments (environment : Environment) (arguments : List String) :
    Except Interruption Invocation := do
  let (top, next) ← Command.topLevel.withGlobals.read {} arguments
  let some (name, rest) := next | throw (.usage .missingCommand)
  let (found, next) ← (Command.level name).withGlobals.read {} rest
  if name = "config" then
    let some (name, rest) := next | throw (.usage .missingCommand)
    let (inner, _) ← (Command.configLevel name).withGlobals.read {} rest
    ofLevels environment [inner, found, top] (.config (← Command.ofConfigArguments name inner))
  else
    ofLevels environment [found, top] (← Command.ofArguments name found)

end Invocation

end MetricFormula

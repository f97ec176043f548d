/-!
# Commands

The commands that the program offers, and what it asks of its surroundings.
-/

namespace MetricFormula

/-- What to do with the settings file. -/
inductive ConfigCommand
  /-- Print its path. -/
  | path
  /-- Make one that documents the defaults; `force` replaces one that is there. -/
  | init (force : Bool)
  /-- Print the settings in effect. -/
  | show
deriving DecidableEq, Repr

/-- What an author enters for an indicator on the command line. -/
structure IndicatorArguments where
  /-- The name. -/
  name : String
  /-- The formula, or a dash for standard input. -/
  formula : String
  /-- The id of the client. -/
  client : String
  /-- The id of the department. -/
  department : String
  /-- Lower values are better. -/
  flip : Bool
deriving DecidableEq, Repr

/-- A command. Where a formula or a tree is a dash, standard input has it. -/
inductive Command
  /-- Check a formula. -/
  | validate (formula : String) (json : Bool)
  /-- Print the calculation of a formula. -/
  | build (formula : String) (catalog : Option String)
  /-- List the metric tokens of a formula. -/
  | tokens (formula : String)
  /-- Print the formula of a calculation. -/
  | format (tree : String)
  /-- Apply the edits on standard input to a formula. -/
  | edit (formula : String)
  /-- Print the entity of an indicator. -/
  | indicator (arguments : IndicatorArguments) (catalog : Option String)
  /-- List the metrics of a catalog that can be selected. -/
  | metrics (catalog : Option String)
  /-- Manage the settings file. -/
  | config (command : ConfigCommand)
deriving DecidableEq, Repr

/-- A command with the options that every command has. -/
structure Invocation where
  /-- The settings file, if one is named. -/
  config : Option String
  /-- Print JSON indented. -/
  pretty : Bool
  /-- The command. -/
  command : Command
deriving DecidableEq, Repr

/-- The variables of the environment that matter. -/
structure Environment where
  /-- The settings file. -/
  config : Option String
  /-- The directory for configuration files. -/
  configHome : Option String
  /-- The directory of the user. -/
  home : Option String
deriving DecidableEq, Repr

/-- What the program tells its caller by its exit code. -/
inductive ExitStatus
  /-- All went well. -/
  | success
  /-- Something else went wrong. -/
  | failure
  /-- The arguments or an input record are malformed. -/
  | usage
  /-- A formula or a draft breaks a rule. -/
  | invalidFormula
  /-- A formula refers to a metric that the catalog does not offer. -/
  | unknownMetric
  /-- Input, catalog or settings cannot be read or written. -/
  | inputOutput
deriving DecidableEq, Repr

namespace ExitStatus

/-- The exit code. -/
def code : ExitStatus → Nat
  | success => 0
  | failure => 1
  | usage => 2
  | invalidFormula => 3
  | unknownMetric => 4
  | inputOutput => 5

end ExitStatus

end MetricFormula

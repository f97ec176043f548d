import MetricFormula.Command.Arguments
import MetricFormula.Command.Report

/-!
# Version, help and refused arguments

What the program prints when its arguments name no command to run.
-/

namespace MetricFormula

/-- The name of the program and its version. -/
def versionText : String :=
  "kpiform 0.1.0"

/-- How the program is used. -/
def usageText : String :=
  "Usage: kpiform [OPTIONS] <COMMAND>

Commands:
  validate FORMULA [--json]         Check a formula against the submission rules
  build FORMULA [--catalog PATH]    Print the calculation tree of a formula
  tokens FORMULA                    List the metric tokens in a formula
  format TREE                       Print formula text for a calculation tree
  edit [--formula FORMULA]          Apply edit operations from standard input
  indicator --name NAME --formula FORMULA --client ID --department ID
            [--flip] [--catalog PATH]
                                    Build the entity of an indicator
  metrics [--catalog PATH]          List the selectable metrics of a catalog
  config path | init [--force] | show
                                    Manage the settings file

Options:
  --config PATH    Settings file (also KPIFORM_CONFIG)
  --pretty         Indent JSON output
  -v, --verbose    More log output
  -h, --help       Print help
  -V, --version    Print version"

/-- What the program prints instead of running a command. -/
def Interruption.report : Interruption → Report
  | .version => ⟨outputLine versionText.toList, none⟩
  | .help => ⟨outputLine usageText.toList, none⟩
  | .usage error => ⟨[], some (Failure.because .usage error.message)⟩

end MetricFormula

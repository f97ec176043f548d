import MetricFormula.Catalog
import MetricFormula.Command.Report
import MetricFormula.Editing.OperationJson
import MetricFormula.Editing.Session
import MetricFormula.Indicator
import MetricFormula.Storage.SettingsFile

/-!
# Running commands

What each command does, given the settings, the bytes on standard input, and files. A command that
is refused prints nothing, apart from edits, whose states are printed up to the line that is
refused, and from the JSON form of a validation, which reports the broken rule itself.
-/

namespace MetricFormula

open Json (Document)
open MonadExcept (ofExcept)

namespace Command

/-! ## Input -/

/-- Standard input cannot be read as text. -/
def unreadableInput : Failure :=
  .because .inputOutput ("reading stdin: " ++ FileError.invalidText.message)

/-- A text without the line end at its end. -/
def dropLineEnd (text : List Char) : List Char :=
  match text.reverse with
  | '\n' :: '\r' :: reversed => reversed.reverse
  | '\n' :: reversed => reversed.reverse
  | _ => text

/-- The text of an argument: the argument itself, or standard input for a dash. -/
def readArgument (input : ByteArray) (argument : String) : Except Failure (List Char) :=
  if argument = "-" then
    match String.fromUTF8? input with
    | some text => .ok (dropLineEnd text.toList)
    | none => .error unreadableInput
  else .ok argument.toList

/-- The command reads standard input. -/
def readsInput : Command → Bool
  | validate formula _ | build formula _ | tokens formula => formula == "-"
  | format tree => tree == "-"
  | edit _ => true
  | indicator arguments _ => arguments.formula == "-"
  | metrics _ | config _ => false

/-! ## Failures -/

/-- The failure that a broken rule causes. -/
def violationFailure (violation : Violation) : Failure :=
  .because .invalidFormula violation.message

/-- The failure that a catalog causes. -/
def catalogFailure (error : CatalogError) : Failure :=
  match error with
  | .unreadable _ _ => .because .inputOutput error.message
  | .malformed =>
    (Failure.because .inputOutput error.message).withHint
      "a catalog is a JSON array of \x7b\"id\", \"displayLabel\"\x7d objects"
  | .unknownMetrics _ =>
    (Failure.because .unknownMetric error.message).withHint
      "run `kpiform metrics` to list the available metrics"

/-- The failure that a refused draft causes. -/
def draftFailure (error : DraftError) : Failure :=
  match error with
  | .nameRequired => (Failure.because .invalidFormula error.message).withHint "pass --name"
  | .formula violation => violationFailure violation

/-- The failure that a calculation causes which cannot be written. -/
def outputFailure (error : WireError) : Failure :=
  .because .failure ("cannot serialize output: " ++ error.message)

/-! ## Commands without files -/

/-- The document that reports on a check. -/
def validationDocument : Except Violation Unit → Document
  | .ok () => .record [("valid", .boolean true)]
  | .error violation =>
    .record [("valid", .boolean false), ("code", .text violation.code),
      ("message", .text violation.message)]

/-- Check a formula and report in JSON. -/
def validateInJson (settings : Settings) (pretty : Bool) (formula : List Char) : Report :=
  let result := Formula.validate settings.unknownFunctions formula
  let output := printDocument pretty (validationDocument result)
  match result with
  | .ok () => ⟨output, none⟩
  | .error _ => ⟨output, some ⟨.invalidFormula, none, none⟩⟩

/-- Check a formula and report in words. -/
def validateInWords (settings : Settings) (formula : List Char) : Report :=
  match Formula.validate settings.unknownFunctions formula with
  | .ok () => ⟨outputLine "valid".toList, none⟩
  | .error violation => ⟨[], some (violationFailure violation)⟩

/-- Check a formula. -/
def runValidate (settings : Settings) (pretty : Bool) (input : ByteArray) (formula : String)
    (json : Bool) : Report :=
  match readArgument input formula with
  | .error failure => ⟨[], some failure⟩
  | .ok formula =>
    if json then validateInJson settings pretty formula else validateInWords settings formula

/-- The document of a token with what it says. -/
def tokenDocument (formula : List Char) (token : MetricToken) : Document :=
  .record
    [("start", .nat token.opening), ("end", .nat token.closing),
      ("text", .text (String.ofList (token.text formula))),
      ("body", .text (String.ofList (token.body formula)))]

/-- List the metric tokens of a formula. -/
def runTokens (pretty : Bool) (input : ByteArray) (formula : String) :
    Except Failure (List Char) := do
  let formula ← readArgument input formula
  return printDocument pretty <| .record
    [("formula", .text (String.ofList formula)),
      ("tokens", .array ((MetricToken.scan formula).map (tokenDocument formula)))]

/-- Print the formula of a calculation. -/
def runFormat (input : ByteArray) (tree : String) : Except Failure (List Char) := do
  match Calculation.ofJson? (← readArgument input tree) with
  | none => throw (.because .usage "invalid tree: not a calculation")
  | some calculation =>
    if calculation.hasPlaceholder then
      throw (.because .failure "tree contains an empty node and has no formula text")
    return outputLine calculation.formula

/-! ## Editing -/

/-- What a line of edits leads to: the session after it and the line that is printed. A blank line
leads to nothing. -/
def editLine (session : Session) (number : Nat) (line : List UInt8) :
    Except Failure (Session × List Char) :=
  match String.fromUTF8? ⟨line.toArray⟩ with
  | none => .error unreadableInput
  | some text =>
    if Text.isBlankText text.toList then .ok (session, [])
    else match Edit.ofJson? text.toList with
      | none => .error (.because .usage s!"line {number}: invalid edit op: not an edit")
      | some change =>
        let (outcome, session) := session.apply change
        match (session.state outcome).toDocument with
        | .ok document => .ok (session, printDocument false document)
        | .error error => .error (.because .failure ("cannot serialize state: " ++ error.message))

/-- What lines of edits lead to, where the first of them has the given number. -/
def editLines (session : Session) (number : Nat) : List (List UInt8) → Report
  | [] => ⟨[], none⟩
  | line :: rest =>
    match editLine session number line with
    | .error failure => ⟨[], some failure⟩
    | .ok (session, output) =>
      let report := editLines session (number + 1) rest
      { report with output := output ++ report.output }

/-- Apply the edits on standard input to a formula. -/
def runEdit (settings : Settings) (input : ByteArray) (formula : String) : Report :=
  let session := Session.ofFormula formula.toList settings.editor settings.unknownFunctions
  editLines session 1 (Text.byteLines input.toList)

/-! ## Commands with files -/

variable {m : Type → Type} [Monad m] [MonadFiles m]

/-- The catalog in a file. -/
def loadCatalog (path : String) : m (Except CatalogError Catalog) := do
  match ← MonadFiles.readText path with
  | .error error => return .error (.unreadable path error.message)
  | .ok text =>
    match Catalog.ofJson? text.toList with
    | some catalog => return .ok catalog
    | none => return .error .malformed

/-- The catalog that is named, or else that of the settings, if there is one. -/
def chosenCatalog (settings : Settings) (path : Option String) :
    ExceptT Failure m (Option Catalog) := do
  match path <|> settings.catalogPath with
  | none => return none
  | some path =>
    match ← (loadCatalog path : m _) with
    | .ok catalog => return some catalog
    | .error error => throw (catalogFailure error)

/-- Check a calculation against the chosen catalog. -/
def checkCatalog (settings : Settings) (path : Option String) (calculation : Calculation) :
    ExceptT Failure m Unit := do
  if let some catalog ← chosenCatalog settings path then
    ofExcept ((catalog.check calculation).mapError catalogFailure)

/-- Print the calculation of a formula. -/
def runBuild (settings : Settings) (pretty : Bool) (input : ByteArray) (formula : String)
    (catalog : Option String) : ExceptT Failure m (List Char) := do
  let formula ← ofExcept (readArgument input formula)
  let calculation ← ofExcept <|
    (Formula.compile settings.unknownFunctions formula).mapError violationFailure
  checkCatalog settings catalog calculation
  let document ← ofExcept (calculation.toDocument.mapError outputFailure)
  return printDocument pretty document

/-- Print the entity of an indicator. -/
def runIndicator (settings : Settings) (pretty : Bool) (input : ByteArray)
    (arguments : IndicatorArguments) (catalog : Option String) :
    ExceptT Failure m (List Char) := do
  let formula ← ofExcept (readArgument input arguments.formula)
  let draft : IndicatorDraft := ⟨arguments.name, String.ofList formula, arguments.flip⟩
  let scope : IndicatorScope := ⟨arguments.client, arguments.department⟩
  let indicator ← ofExcept <|
    (draft.toIndicator settings.unknownFunctions scope).mapError draftFailure
  checkCatalog settings catalog indicator.calculation
  let document ← ofExcept (indicator.toDocument.mapError outputFailure)
  return printDocument pretty document

/-- List the metrics of a catalog that can be selected. -/
def runMetrics (settings : Settings) (pretty : Bool) (catalog : Option String) :
    ExceptT Failure m (List Char) := do
  match ← chosenCatalog settings catalog with
  | some catalog => return printDocument pretty (Catalog.mk catalog.selectable).toDocument
  | none =>
    throw <| (Failure.because .usage "no metric catalog").withHint
      "pass --catalog or set \"catalog.path\" in settings"

/-- Manage the settings file. -/
def runConfig (settings : Settings) (path : String) :
    ConfigCommand → ExceptT Failure m (List Char)
  | .path => return outputLine path.toList
  | .init force => do
    let existed ← (MonadFiles.isPresent path : m Bool)
    match ← (Settings.createDefault path force : m _) with
    | .ok () => return outputLine path.toList
    | .error error =>
      let failure := Failure.because .inputOutput error.message
      throw (if existed && !force then failure.withHint "use --force to overwrite" else failure)
  | .show => return printDocument true settings.toDocument

/-- Run a command. -/
def run (settings : Settings) (pretty : Bool) (configPath : String) (input : ByteArray) :
    Command → m Report
  | validate formula json => return runValidate settings pretty input formula json
  | build formula catalog =>
    return .ofResult (← (runBuild settings pretty input formula catalog).run)
  | tokens formula => return .ofResult (runTokens pretty input formula)
  | format tree => return .ofResult (runFormat input tree)
  | edit formula => return runEdit settings input formula
  | indicator arguments catalog =>
    return .ofResult (← (runIndicator settings pretty input arguments catalog).run)
  | metrics catalog => return .ofResult (← (runMetrics settings pretty catalog).run)
  | config command => return .ofResult (← (runConfig settings configPath command).run)

end Command

namespace Environment

/-- The directory for configuration files: the one that is named, if its path is absolute, else the
usual one of the user. -/
def configDirectory (environment : Environment) : String :=
  match environment.configHome.filter Path.isAbsolute, environment.home.filter (!·.isEmpty) with
  | some directory, _ => directory
  | none, some home => Path.append home ".config"
  | none, none => "."

/-- The usual path of the settings file. -/
def settingsPath (environment : Environment) : String :=
  Path.append (Path.append environment.configDirectory "kpiform") "settings.json"

end Environment

namespace Invocation

variable {m : Type → Type} [Monad m] [MonadFiles m]

/-- The path of the settings file. -/
def settingsPath (invocation : Invocation) (environment : Environment) : String :=
  invocation.config.getD environment.settingsPath

/-- Load the settings and run the command. -/
def run (invocation : Invocation) (environment : Environment) (input : ByteArray) : m Report := do
  let path := invocation.settingsPath environment
  let settings ← Settings.load path
  invocation.command.run settings (invocation.pretty || settings.prettyOutput) path input

end Invocation

end MetricFormula

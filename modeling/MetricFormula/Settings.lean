import MetricFormula.Calculation.Build
import MetricFormula.Editing.Editor
import MetricFormula.Json.Reader
import MetricFormula.Json.Record
import MetricFormula.Text.Lines

/-!
# Settings

What a user chooses once for all commands. Settings are kept as a JSON object in which lines that
begin with two slashes are comments; choices that are missing have their defaults.
-/

namespace MetricFormula

open Json (Document)

namespace UnknownFunctions

/-- The policy that a document names: as a text, or as the only member of an object whose value is
`null`. -/
def ofDocument? : Document → Option UnknownFunctions
  | .string (some name) => ofName? name
  | .object [(some name, .null)] => ofName? name
  | _ => none

end UnknownFunctions

/-- The choices of a user. -/
structure Settings where
  /-- Choices for the editor. -/
  editor : EditorOptions := {}
  /-- What becomes of calls without meaning. -/
  unknownFunctions : UnknownFunctions := .reject
  /-- Print JSON indented. -/
  prettyOutput : Bool := false
  /-- The file of the metric catalog. -/
  catalogPath : Option String := none
deriving DecidableEq, Repr

namespace Settings

/-- The names of the settings, in order. -/
def names : List String :=
  ["editor.padTokens", "editor.rejectAdjacentOperators", "editor.allowDecimalPoint",
    "formula.unknownFunctions", "output.pretty", "catalog.path"]

/-- Read a setting; a missing one keeps its default. -/
def setting? {α : Type} (read : Document → Option α) (default : α) : Option Document → Option α
  | none => some default
  | some document => read document

/-- The settings of a record. -/
def ofDocument? (document : Document) : Option Settings := do
  match ← document.fields? names with
  | [pad, adjacent, decimal, unknown, pretty, catalog] =>
    let padTokens ← setting? Document.toBool? true pad
    let rejectAdjacentOperators ← setting? Document.toBool? true adjacent
    let allowDecimalPoint ← setting? Document.toBool? true decimal
    let unknownFunctions ← setting? UnknownFunctions.ofDocument? .reject unknown
    let prettyOutput ← setting? Document.toBool? false pretty
    let catalogPath ← Document.toOptional? Document.toText? catalog
    return ⟨⟨padTokens, rejectAdjacentOperators, allowDecimalPoint⟩, unknownFunctions,
      prettyOutput, catalogPath⟩
  | _ => none

/-- The document of settings. -/
def toDocument (settings : Settings) : Document :=
  .record <| names.zip
    [.boolean settings.editor.padTokens, .boolean settings.editor.rejectAdjacentOperators,
      .boolean settings.editor.allowDecimalPoint, .text settings.unknownFunctions.name,
      .boolean settings.prettyOutput, (settings.catalogPath.map Document.text).getD .null]

/-- A line is a comment. -/
def isComment (line : List Char) : Bool :=
  ['/', '/'].isPrefixOf (Text.trim line)

/-- The text without its comment lines. -/
def stripComments (text : List Char) : List Char :=
  Text.joinLines ((Text.lines text).filter (!isComment ·))

/-- The settings of a text. -/
def parse? (text : List Char) : Option Settings := do
  ofDocument? (← Document.parse? (stripComments text))

/-- The text of a settings file that leaves every choice at its default. -/
def defaultText : String :=
  "\x7b
    // Editor
    // Pad inserted metric tokens with a space on either side
    \"editor.padTokens\": true,
    // Refuse \"+\", \"-\", \"*\", \"/\" or \".\" typed next to another one
    \"editor.rejectAdjacentOperators\": true,
    \"editor.allowDecimalPoint\": true,

    // Formula
    // Functions with no calculation mapping: \"reject\" or \"placeholder\"
    \"formula.unknownFunctions\": \"reject\",

    // Output
    \"output.pretty\": false,

    // Metric catalog (JSON array of \x7b\"id\", \"displayLabel\"\x7d), null = none
    \"catalog.path\": null
\x7d
"

end Settings

end MetricFormula

import MetricFormula.Calculation.Basic
import MetricFormula.Json.Reader
import MetricFormula.Json.Record

/-!
# Metric catalogs

The metrics that a host offers. A catalog may list a placeholder entry for pickers, which cannot be
selected. A calculation is checked against the selectable ids of a catalog.
-/

namespace MetricFormula

open Json (Document)

/-- A metric on offer. -/
structure Metric where
  /-- The id by which formulas refer to the metric. -/
  id : String
  /-- The name that is shown for it. -/
  label : String
deriving DecidableEq, Repr

namespace Metric

/-- The id of the entry of a picker that selects nothing. -/
def placeholderId : String :=
  "-1"

/-- The metric can be selected. -/
def isSelectable (metric : Metric) : Bool :=
  metric.id != placeholderId

/-- The metric of a record. -/
def ofDocument? (document : Document) : Option Metric := do
  match ← document.fields? ["id", "displayLabel"] with
  | [id, label] => return ⟨← (← id).toText?, ← (← label).toText?⟩
  | _ => none

/-- The document of a metric. -/
def toDocument (metric : Metric) : Document :=
  .record [("id", .text metric.id), ("displayLabel", .text metric.label)]

end Metric

/-- The metrics on offer, in order. -/
structure Catalog where
  /-- The entries. -/
  metrics : List Metric
deriving DecidableEq, Repr

namespace Catalog

/-- The first entry with the given id. -/
def get? (catalog : Catalog) (id : String) : Option Metric :=
  catalog.metrics.find? (·.id == id)

/-- The entries that can be selected. -/
def selectable (catalog : Catalog) : List Metric :=
  catalog.metrics.filter Metric.isSelectable

/-- The id is that of a metric that can be selected. -/
def contains (catalog : Catalog) (id : String) : Bool :=
  (catalog.get? id).any Metric.isSelectable

/-- Append an id to a list of unknown ids, unless the catalog has it or the list does. -/
def addUnknown (catalog : Catalog) (unknown : List String) (id : String) : List String :=
  if catalog.contains id || unknown.contains id then unknown else unknown ++ [id]

/-- The ids of a calculation that the catalog does not have, each once, in order. -/
def unknownIds (catalog : Catalog) (calculation : Calculation) : List String :=
  calculation.metricIds.foldl catalog.addUnknown []

/-- The catalog of a document. -/
def ofDocument? : Document → Option Catalog
  | .array items => (items.mapM Metric.ofDocument?).map Catalog.mk
  | _ => none

/-- The catalog of a JSON text. -/
def ofJson? (text : List Char) : Option Catalog := do
  ofDocument? (← Document.parse? text)

/-- The document of a catalog. -/
def toDocument (catalog : Catalog) : Document :=
  .array (catalog.metrics.map Metric.toDocument)

end Catalog

/-- Why a catalog does not let a calculation pass. -/
inductive CatalogError
  /-- The catalog cannot be read. -/
  | unreadable (path : String) (reason : String)
  /-- The text is not a catalog. -/
  | malformed
  /-- The calculation refers to metrics that the catalog does not offer. -/
  | unknownMetrics (ids : List String)
deriving DecidableEq, Repr

namespace CatalogError

/-- The message of the error. -/
def message : CatalogError → String
  | unreadable path reason => s!"failed to read catalog: {path}: {reason}"
  | malformed => "invalid catalog: not an array of metrics"
  | unknownMetrics ids => "unknown metric(s): " ++ String.intercalate ", " ids

end CatalogError

namespace Catalog

/-- Check that a catalog offers every metric of a calculation. -/
def check (catalog : Catalog) (calculation : Calculation) : Except CatalogError Unit :=
  match catalog.unknownIds calculation with
  | [] => .ok ()
  | ids => .error (.unknownMetrics ids)

end Catalog

end MetricFormula

import MetricFormula.Main
import MetricFormula.Number.Literal
import MetricFormula.Storage.FileTree
import MetricFormula.Proofs.Editing.Applied
import MetricFormula.Proofs.Editing.Reachable
import MetricFormula.Proofs.Formula.MetricToken
import MetricFormula.Proofs.Editing.Atomicity
import MetricFormula.Proofs.Editing.Cursor
import MetricFormula.Proofs.Expression.Grammar
import MetricFormula.Proofs.Expression.Parsing
import MetricFormula.Proofs.Number.ReadBack
import MetricFormula.Proofs.Expression.Words
import MetricFormula.Proofs.Expression.Nesting
import MetricFormula.Proofs.Calculation.NormalForm
import MetricFormula.Proofs.Calculation.Printing
import MetricFormula.Proofs.Calculation.Meaning
import MetricFormula.Proofs.Calculation.Wire
import MetricFormula.Proofs.Formula.Brackets
import MetricFormula.Proofs.Formula.Parentheses
import MetricFormula.Proofs.Json.Literals
import MetricFormula.Proofs.Json.RoundTrip
import MetricFormula.Proofs.Json.Numbers
import MetricFormula.Proofs.Formula.Compiling
import MetricFormula.Proofs.Formula.Reformatting
import MetricFormula.Proofs.Editing.Session
import MetricFormula.Proofs.Command.Format
import MetricFormula.Proofs.Expression.Spelling
import MetricFormula.Proofs.Expression.Splitting
import MetricFormula.Proofs.Formula.Delimiters
import MetricFormula.Proofs.Calculation.Leaves
import MetricFormula.Proofs.Formula.Separation
import MetricFormula.Proofs.Editing.Pieces
import MetricFormula.Proofs.Editing.Metrics
import MetricFormula.Proofs.Number.Overflow
import MetricFormula.Proofs.Formula.Overflow
import MetricFormula.Proofs.Command.Submission
import MetricFormula.Proofs.Expression.Errors
import MetricFormula.Proofs.Editing.Insertion
import MetricFormula.Proofs.Editing.WrittenText
import MetricFormula.Proofs.Editing.Shown
import MetricFormula.Proofs.Command.Received
import MetricFormula.Proofs.Calculation.Grouping
import MetricFormula.Proofs.Editing.Typing
import MetricFormula.Proofs.Command.Readable
import MetricFormula.Proofs.Json.Lines
import MetricFormula.Proofs.Command.Editing
import MetricFormula.Proofs.Storage.SettingsFile
import MetricFormula.Proofs.Command.Indicator
import MetricFormula.Proofs.Editing.Padding
import MetricFormula.Proofs.Editing.Undo
import MetricFormula.Proofs.Editing.Progress
import MetricFormula.Proofs.Editing.Stepping
import MetricFormula.Proofs.Editing.Operators
import MetricFormula.Proofs.Calculation.Policies
import MetricFormula.Proofs.Formula.References
import MetricFormula.Proofs.Formula.Balance
import MetricFormula.Proofs.Expression.Extent
import MetricFormula.Proofs.Editing.FirstMetric
import MetricFormula.Proofs.Catalog
import MetricFormula.Proofs.Formula.Exactness
import MetricFormula.Proofs.Calculation.Negations
import MetricFormula.Proofs.Json.Records
import MetricFormula.Proofs.Editing.OperationJson
import MetricFormula.Proofs.Settings.Comments
import MetricFormula.Proofs.Expression.Progress
import MetricFormula.Proofs.Expression.Separators
import MetricFormula.Proofs.Formula.TokenText

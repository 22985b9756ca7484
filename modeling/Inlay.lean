import Inlay.Code.Ident
import Inlay.Code.Node
import Inlay.Definition
import Inlay.Failure
import Inlay.Files
import Inlay.Inlining
import Inlay.Journal
import Inlay.Json.Fault
import Inlay.Json.Read
import Inlay.Json.Scan
import Inlay.Json.Skip
import Inlay.Json.Value
import Inlay.Literal
import Inlay.Matcher
import Inlay.Number.Double
import Inlay.Number.Numeral
import Inlay.Path
import Inlay.Pattern.CharSet
import Inlay.Pattern.Class
import Inlay.Pattern.Escape
import Inlay.Pattern.Parse
import Inlay.Pattern.Regex
import Inlay.Proofs.Bindings
import Inlay.Proofs.BoundNames
import Inlay.Proofs.Classification
import Inlay.Proofs.DataForms
import Inlay.Proofs.DefaultMatcher
import Inlay.Proofs.Documents
import Inlay.Proofs.Doubles
import Inlay.Proofs.Evaluation
import Inlay.Proofs.Faults
import Inlay.Proofs.FixedPoint
import Inlay.Proofs.Grammar
import Inlay.Proofs.Heap
import Inlay.Proofs.InlineFlags
import Inlay.Proofs.Interference
import Inlay.Proofs.KeyPicks
import Inlay.Proofs.Keys
import Inlay.Proofs.Literals
import Inlay.Proofs.LoaderTag
import Inlay.Proofs.Matching
import Inlay.Proofs.Numbers
import Inlay.Proofs.Outcome
import Inlay.Proofs.Positions
import Inlay.Proofs.ReadTrace
import Inlay.Proofs.Reading
import Inlay.Proofs.Replacement
import Inlay.Proofs.Reports
import Inlay.Proofs.Resolution
import Inlay.Proofs.Rewritten
import Inlay.Proofs.Rounding
import Inlay.Proofs.Scanning
import Inlay.Proofs.SettingsFields
import Inlay.Proofs.SharedData
import Inlay.Proofs.Sketch
import Inlay.Proofs.Skipping
import Inlay.Proofs.Stops
import Inlay.Proofs.Walk
import Inlay.Settings
import Inlay.Shape
import Inlay.Text.Bytes
import Inlay.Text.Category
import Inlay.Text.CategoryTable
import Inlay.Text.Class
import Inlay.Text.Digits
import Inlay.Text.Fold
import Inlay.Text.FoldTable
import Inlay.Text.Quoted
import Inlay.Text.Units

import Plotting.Computation
import Plotting.Config
import Plotting.Decimal.Basic
import Plotting.Decimal.Format
import Plotting.Decimal.Numeral
import Plotting.Decimal.Reader
import Plotting.Decimal.Shortest
import Plotting.Element.Basic
import Plotting.Element.Drawing
import Plotting.Element.Geometry
import Plotting.Element.Json
import Plotting.Element.Kind
import Plotting.Element.Style
import Plotting.Error
import Plotting.Expr.Basic
import Plotting.Expr.Cursor
import Plotting.Expr.Error
import Plotting.Expr.Lexeme
import Plotting.Expr.Parser
import Plotting.Expr.Sampling
import Plotting.Expr.Token
import Plotting.Graph
import Plotting.Json.Basic
import Plotting.Json.Document
import Plotting.Json.Printer
import Plotting.Json.Reader
import Plotting.Json.Record
import Plotting.Layout.Assembly
import Plotting.Layout.Basic
import Plotting.Layout.Json
import Plotting.Point.Basic
import Plotting.Point.Json
import Plotting.Scene.Basic
import Plotting.Scene.Json
import Plotting.Text
import Plotting.Trace.Basic
import Plotting.Trace.Json
import Plotting.View.Basic
import Plotting.View.Cache
import Plotting.View.Renderer
import Plotting.View.Request
import Plotting.View.Samples
import Plotting.Proofs.Double.Equality
import Plotting.Proofs.View.Samples
import Plotting.Proofs.View.Scenes
import Plotting.Proofs.Double.Order
import Plotting.Proofs.Trace.Drawable
import Plotting.Proofs.Element.Drawable
import Plotting.Proofs.Scene.Drawable
import Plotting.Proofs.View.Acceptance
import Plotting.Proofs.Expr.Grammar
import Plotting.Proofs.Expr.Unambiguous
import Plotting.Proofs.Expr.Passage
import Plotting.Proofs.Expr.Soundness
import Plotting.Proofs.Expr.Completeness
import Plotting.Proofs.Expr.Parsing
import Plotting.Proofs.Json.Members
import Plotting.Proofs.Trace.RoundTrip
import Plotting.Proofs.Layout.RoundTrip
import Plotting.Proofs.Scene.RoundTrip
import Plotting.Proofs.Decimal.Canonical
import Plotting.Proofs.Decimal.Numerals
import Plotting.Proofs.Decimal.Spelling
import Plotting.Proofs.Json.Strings
import Plotting.Proofs.Double.Canonical
import Plotting.Proofs.Double.Rounding
import Plotting.Proofs.Decimal.Exact
import Plotting.Proofs.Decimal.Shortest
import Plotting.Proofs.Json.Numbers
import Plotting.Proofs.Json.Printable
import Plotting.Proofs.Json.Tokens
import Plotting.Proofs.Json.Text
import Plotting.Proofs.Scene.Storage
import Plotting.Proofs.View.Atomicity
import Plotting.Proofs.Double.Congruence
import Plotting.Proofs.Double.Unsigned
import Plotting.Proofs.Expr.EqualRanges
import Plotting.Proofs.Element.Equality
import Plotting.Proofs.Element.EqualDrawings
import Plotting.Proofs.Scene.EqualInputs
import Plotting.Proofs.Double.Whole
import Plotting.Proofs.Json.FreeForm
import Plotting.Proofs.Json.Readable
import Plotting.Proofs.Element.RoundTrip
import Plotting.Proofs.Element.Storage
import Plotting.Proofs.Scene.Kinds
import Plotting.Proofs.Trace.Holes
import Plotting.Proofs.Scene.Holes
import Plotting.Proofs.Computation.Entries
import Plotting.Proofs.Computation.Storage
import Plotting.Proofs.Expr.Phrases
import Plotting.Proofs.Expr.Prediction
import Plotting.Proofs.Expr.ViablePrefix
import Plotting.Proofs.Expr.Scanning
import Plotting.Proofs.Expr.Refusals
import Plotting.Proofs.Decimal.Longest
import Plotting.Proofs.Expr.Lexemes
import Plotting.Proofs.Expr.Splitting
import Plotting.Proofs.Expr.LongestMatch
import Plotting.Proofs.Element.Hints
import Plotting.Proofs.Element.LenientFields
import Plotting.Proofs.View.Accounting
import Plotting.Proofs.Expr.TooDeep
import Plotting.Proofs.Expr.NestingLimit
import Plotting.Proofs.Expr.Height
import Plotting.Proofs.Element.Vertices
import Plotting.Proofs.Json.Spelling
import Plotting.Proofs.Element.Values
import Plotting.Proofs.Computation.Siblings
import Plotting.Proofs.Element.Bands
import Plotting.Proofs.Expr.PowerSpelling
import Plotting.Proofs.Scene.Curves
import Plotting.Proofs.Scene.Versions
import Plotting.Proofs.Graph.Storage
import Plotting.Proofs.Json.Deletion
import Plotting.Proofs.Config.Storage
import Plotting.Proofs.Expr.Loops
import Plotting.Proofs.Expr.Tracking
import Plotting.Proofs.Expr.Tracks
import Plotting.Proofs.Expr.Progress

import SpanScore.CommandLine.Flag
import SpanScore.CommandLine.Parse
import SpanScore.Config.Check
import SpanScore.Config.Decode
import SpanScore.Config.File
import SpanScore.Config.Load
import SpanScore.Config.Merge
import SpanScore.Config.Substitution
import SpanScore.Decimal.Fixed
import SpanScore.Decimal.Layout
import SpanScore.Decimal.Numeral
import SpanScore.Decimal.Shortest
import SpanScore.Engine
import SpanScore.Failure
import SpanScore.Feature.Distribution
import SpanScore.Feature.Number
import SpanScore.Feature.Path
import SpanScore.Host
import SpanScore.Json.Digits
import SpanScore.Json.Fault
import SpanScore.Json.Lexeme
import SpanScore.Json.Members
import SpanScore.Json.Print
import SpanScore.Json.Read
import SpanScore.Json.Record
import SpanScore.Json.Scan
import SpanScore.Json.Value
import SpanScore.Json.Variant
import SpanScore.Log.Filter
import SpanScore.Log.Record
import SpanScore.Main
import SpanScore.Message.Breakdown
import SpanScore.Message.Request
import SpanScore.Message.Response
import SpanScore.Model.Basic
import SpanScore.Model.Kind
import SpanScore.Outcome
import SpanScore.Program
import SpanScore.Score.Graphlet
import SpanScore.Score.Heuristic
import SpanScore.Score.Mapper
import SpanScore.Scorer.Command
import SpanScore.Scorer.External
import SpanScore.Scorer.Launch
import SpanScore.Settings
import SpanScore.Shell.Command
import SpanScore.Shell.Parse
import SpanScore.Shell.Pattern
import SpanScore.Shell.Run
import SpanScore.Shell.Tool
import SpanScore.Span
import SpanScore.Text.Blank
import SpanScore.Text.Quoted
import SpanScore.Text.Unprintable
import SpanScore.Text.Utf8
import SpanScore.Toml.Cursor
import SpanScore.Toml.Fault
import SpanScore.Toml.Node
import SpanScore.Toml.Read
import SpanScore.Toml.Scalar
import SpanScore.Toml.Text
import SpanScore.Proofs.CommandLine.Placement
import SpanScore.Proofs.Config.Delegation
import SpanScore.Proofs.Config.Filled
import SpanScore.Proofs.Config.Influence
import SpanScore.Proofs.Config.Layers
import SpanScore.Proofs.Config.Literal
import SpanScore.Proofs.Config.Load
import SpanScore.Proofs.Config.Substitution
import SpanScore.Proofs.Decimal.Layout
import SpanScore.Proofs.Decimal.Nearest
import SpanScore.Proofs.Decimal.Numeral
import SpanScore.Proofs.Decimal.Search
import SpanScore.Proofs.Decimal.Shortest
import SpanScore.Proofs.Decimal.Written
import SpanScore.Proofs.Double.Absorption
import SpanScore.Proofs.Double.Amounts
import SpanScore.Proofs.Double.Arithmetic
import SpanScore.Proofs.Double.Bits
import SpanScore.Proofs.Double.Distance
import SpanScore.Proofs.Double.Magnitude
import SpanScore.Proofs.Double.Near
import SpanScore.Proofs.Double.Order
import SpanScore.Proofs.Double.Place
import SpanScore.Proofs.Double.Powers
import SpanScore.Proofs.Double.Rounding
import SpanScore.Proofs.Double.Special
import SpanScore.Proofs.Double.Unit
import SpanScore.Proofs.Double.View
import SpanScore.Proofs.Engine
import SpanScore.Proofs.Engine.Similarity
import SpanScore.Proofs.Exit
import SpanScore.Proofs.Failure
import SpanScore.Proofs.Feature.Bins
import SpanScore.Proofs.Feature.Distribution
import SpanScore.Proofs.Feature.Mass
import SpanScore.Proofs.Feature.Overlap
import SpanScore.Proofs.Feature.Path
import SpanScore.Proofs.Feature.Quoting
import SpanScore.Proofs.Feature.Series
import SpanScore.Proofs.Feature.Steps
import SpanScore.Proofs.Json.Cut
import SpanScore.Proofs.Json.Doubles
import SpanScore.Proofs.Json.Drift
import SpanScore.Proofs.Json.Grammar
import SpanScore.Proofs.Json.Lookup
import SpanScore.Proofs.Json.Members
import SpanScore.Proofs.Json.Numbers
import SpanScore.Proofs.Json.Numerals
import SpanScore.Proofs.Json.Print
import SpanScore.Proofs.Json.Readable
import SpanScore.Proofs.Json.Respelling
import SpanScore.Proofs.Json.Roundings
import SpanScore.Proofs.Json.Scan
import SpanScore.Proofs.Json.Shape
import SpanScore.Proofs.Json.Significand
import SpanScore.Proofs.Json.Spelling
import SpanScore.Proofs.Json.Spread
import SpanScore.Proofs.Json.Tokens
import SpanScore.Proofs.Json.Values
import SpanScore.Proofs.Message.Breakdown
import SpanScore.Proofs.Message.ReadBack
import SpanScore.Proofs.Message.Request
import SpanScore.Proofs.Message.Response
import SpanScore.Proofs.Message.RoundTrip
import SpanScore.Proofs.Model.Composite
import SpanScore.Proofs.Model.Delegation
import SpanScore.Proofs.Model.Failure
import SpanScore.Proofs.Model.Quoting
import SpanScore.Proofs.Model.Respelling
import SpanScore.Proofs.Model.Score
import SpanScore.Proofs.Model.Symmetry
import SpanScore.Proofs.Outcome
import SpanScore.Proofs.Program
import SpanScore.Proofs.Score.Structural
import SpanScore.Proofs.Score.Symmetry
import SpanScore.Proofs.Scorer.Delegation
import SpanScore.Proofs.Scorer.Failure
import SpanScore.Proofs.Scorer.Outcome
import SpanScore.Proofs.Span
import SpanScore.Proofs.Span.Readable
import SpanScore.Proofs.Span.RoundTrip
import SpanScore.Proofs.Text.Utf8
import SpanScore.Proofs.Toml.Documents
import SpanScore.Proofs.Toml.Escapes
import SpanScore.Proofs.Toml.Filling
import SpanScore.Proofs.Toml.Multiline
import SpanScore.Proofs.Toml.Pieces
import SpanScore.Proofs.Toml.Reader
import SpanScore.Proofs.Toml.Refill
import SpanScore.Proofs.Toml.Strings
import SpanScore.Proofs.Toml.Trees
import SpanScore.Proofs.Toml.Values
import SpanScore.Proofs.Toml.Words
import SpanScore.Proofs.Score.Heuristic
import SpanScore.Proofs.Score.Flattening
import SpanScore.Proofs.Score.Mapper
import SpanScore.Proofs.Score.Graphlet
import SpanScore.Proofs.Model.SelfSimilarity

import Lookalike.Text.Blank
import Lookalike.Text.Utf8
import Lookalike.Text.Spans
import Lookalike.Text.Extending
import Lookalike.Text.Unprintable
import Lookalike.Text.Wide
import Lookalike.Text.Quoted
import Lookalike.Digest
import Lookalike.Decimal.Numeral
import Lookalike.Decimal.Binary
import Lookalike.Decimal.Shortest
import Lookalike.Decimal.Reading
import Lookalike.Path
import Lookalike.Files
import Lookalike.Failure
import Lookalike.Ordered
import Lookalike.Json.Value
import Lookalike.Json.Writer
import Lookalike.Json.Reader
import Lookalike.Json.Number
import Lookalike.Json.Fields
import Lookalike.Listing.Rules
import Lookalike.Listing.Token
import Lookalike.Listing.Stream
import Lookalike.Window
import Lookalike.Threshold.Table
import Lookalike.Threshold.Learning
import Lookalike.Threshold.Saved
import Lookalike.Fingerprint.Vector
import Lookalike.Fingerprint.Bits
import Lookalike.Fingerprint.Encoder
import Lookalike.Index.Basic
import Lookalike.Index.Saved
import Lookalike.Query
import Lookalike.World
import Lookalike.Corpus.Loading
import Lookalike.Glob.Pattern
import Lookalike.Glob.Reading
import Lookalike.Corpus.Ignore
import Lookalike.Corpus.Discovery
import Lookalike.Settings.Value
import Lookalike.Toml.Text
import Lookalike.Toml.Scalar
import Lookalike.Toml.Tree
import Lookalike.Toml.Reader
import Lookalike.Settings.Basic
import Lookalike.Settings.Reading
import Lookalike.Settings.Source
import Lookalike.Text.Columns
import Lookalike.Text.Grid
import Lookalike.Report
import Lookalike.Settings.Saved
import Lookalike.CommandLine.Grammar
import Lookalike.CommandLine.Reading
import Lookalike.CommandLine.Command
import Lookalike.Commands
import Lookalike.Main
import Lookalike.Proofs.OrderedKeys
import Lookalike.Proofs.Recount
import Lookalike.Proofs.Buckets
import Lookalike.Proofs.BuiltIndex
import Lookalike.Proofs.LinearScan
import Lookalike.Proofs.Encoding
import Lookalike.Proofs.OrderStatistic
import Lookalike.Proofs.Imprint
import Lookalike.Proofs.JsonText
import Lookalike.Proofs.Numerals
import Lookalike.Proofs.WrittenFiles
import Lookalike.Proofs.KeptFiles
import Lookalike.Proofs.WrittenIndex
import Lookalike.Proofs.Doubles
import Lookalike.Proofs.SavedTable
import Lookalike.Proofs.Quotients
import Lookalike.Proofs.ShortestDigits
import Lookalike.Proofs.SavedNumbers
import Lookalike.Proofs.JsonLines
import Lookalike.Proofs.CutJson
import Lookalike.Proofs.Orders
import Lookalike.Proofs.ProperIndex
import Lookalike.Proofs.Hexadecimal
import Lookalike.Proofs.ByteLines
import Lookalike.Proofs.Runs
import Lookalike.Proofs.SavedIndex
import Lookalike.Proofs.CutIndex
import Lookalike.Proofs.QueryOutcome
import Lookalike.Proofs.CommandRuns
import Lookalike.Proofs.SplitBuild
import Lookalike.Proofs.QueriedFiles
import Lookalike.Proofs.FailedBuild
import Lookalike.Proofs.IndexLife
import Lookalike.Proofs.ArrivalOrder
import Lookalike.Proofs.FunctionBlocks
import Lookalike.Proofs.Locations
import Lookalike.Proofs.PlaceValues
import Lookalike.Proofs.RulesIdentity
import Lookalike.Proofs.PassCalls
import Lookalike.Proofs.FunctionLines
import Lookalike.Proofs.Distance
import Lookalike.Proofs.CanonicalText
import Lookalike.Proofs.DoubleOrder
import Lookalike.Proofs.QueryAnswer
import Lookalike.Proofs.Ranking
import Lookalike.Proofs.MaximalRuns
import Lookalike.Proofs.OperandRuns
import Lookalike.Proofs.LineEndings
import Lookalike.Proofs.SetBits
import Lookalike.Proofs.BucketPrefix
import Lookalike.Proofs.CanonicalTokens
import Lookalike.Proofs.Walks
import Lookalike.Proofs.CollectedPaths
import Lookalike.Proofs.ParallelLoading

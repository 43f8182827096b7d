import ExprLang.Assoc
import ExprLang.CommandLine
import ExprLang.Config
import ExprLang.Config.Environment
import ExprLang.Config.File
import ExprLang.Context
import ExprLang.Document
import ExprLang.Eval.Call
import ExprLang.Eval.Evaluator
import ExprLang.Eval.State
import ExprLang.Expr
import ExprLang.Expr.Parser
import ExprLang.Expr.Printer
import ExprLang.Host.Function
import ExprLang.Host.Object
import ExprLang.Host.ParamType
import ExprLang.Json.Parser
import ExprLang.Json.Printer
import ExprLang.Main
import ExprLang.Number.Decimal
import ExprLang.Number.Exact
import ExprLang.Number.FloatText
import ExprLang.Number.Shortest
import ExprLang.Program
import ExprLang.Regex.Escape
import ExprLang.Regex.Fault
import ExprLang.Regex.Parser
import ExprLang.Regex.Pattern
import ExprLang.Regex.Reader
import ExprLang.Regex.Search
import ExprLang.Runner
import ExprLang.RuntimeError
import ExprLang.Serialization
import ExprLang.Stdlib.Containers
import ExprLang.Stdlib.Conversions
import ExprLang.Stdlib.Library
import ExprLang.SyntaxError
import ExprLang.Text.Alphanumeric
import ExprLang.Text.Base64
import ExprLang.Text.Blank
import ExprLang.Text.Digit
import ExprLang.Text.LetterCase
import ExprLang.Text.Pieces
import ExprLang.Text.Position
import ExprLang.Text.Printable
import ExprLang.Text.Quoted
import ExprLang.Text.Ranges
import ExprLang.Text.Utf8
import ExprLang.Time.Calendar
import ExprLang.Time.Duration
import ExprLang.Time.DurationText
import ExprLang.Time.Timestamp
import ExprLang.Time.TimestampText
import ExprLang.Token
import ExprLang.Token.Lexer
import ExprLang.Token.Literal
import ExprLang.Toml.Content
import ExprLang.Toml.Lines
import ExprLang.Toml.Moment
import ExprLang.Toml.Number
import ExprLang.Toml.Parser
import ExprLang.Toml.Printer
import ExprLang.Toml.Quoted
import ExprLang.Toml.Statement
import ExprLang.Value.Arithmetic
import ExprLang.Value.Basic
import ExprLang.Value.Container
import ExprLang.Value.Describe
import ExprLang.Value.Order
import ExprLang.Value.Printer
import ExprLang.Xml.Doctype
import ExprLang.Xml.Name
import ExprLang.Xml.Parser
import ExprLang.Xml.Printer
import ExprLang.Yaml.BlockScalar
import ExprLang.Yaml.Cursor
import ExprLang.Yaml.Lexer
import ExprLang.Yaml.Moment
import ExprLang.Yaml.Node
import ExprLang.Yaml.Parser
import ExprLang.Yaml.Plain
import ExprLang.Yaml.Printer
import ExprLang.Yaml.Property
import ExprLang.Yaml.Quoted
import ExprLang.Yaml.ReadError
import ExprLang.Yaml.Reading
import ExprLang.Yaml.Scalar
import ExprLang.Yaml.Tag
import ExprLang.Yaml.Token
import ExprLang.Proofs.Attribution
import ExprLang.Proofs.Sums
import ExprLang.Proofs.ScopeStack
import ExprLang.Proofs.Marks
import ExprLang.Proofs.Grammar
import ExprLang.Proofs.ParserRuns
import ExprLang.Proofs.ParserSoundness
import ExprLang.Proofs.Lookahead
import ExprLang.Proofs.ParserCompleteness
import ExprLang.Proofs.Recognition
import ExprLang.Proofs.Scoping
import ExprLang.Proofs.LexicalScope
import ExprLang.Proofs.Denotation
import ExprLang.Proofs.PrintedValues
import ExprLang.Proofs.PrintedMeaning
import ExprLang.Proofs.FailingNode
import ExprLang.Proofs.WellFormedResults
import ExprLang.Proofs.Coverage
import ExprLang.Proofs.NodeOrder
import ExprLang.Proofs.ErrorReport
import ExprLang.Proofs.ParserProgress
import ExprLang.Proofs.PartialInput
import ExprLang.Proofs.ParserLoops
import ExprLang.Proofs.PartialParses
import ExprLang.Proofs.NodeSegments
import ExprLang.Proofs.BuiltNodes
import ExprLang.Proofs.SourceSpans
import ExprLang.Proofs.Registration
import ExprLang.Proofs.ValueEquality
import ExprLang.Proofs.Dependencies
import ExprLang.Proofs.EvaluationPlaces
import ExprLang.Proofs.Renaming
import ExprLang.Proofs.Resolution
import ExprLang.Proofs.ValueOrder
import ExprLang.Proofs.SerializedText
import ExprLang.Proofs.CachedPrograms
import ExprLang.Proofs.CaretExcerpts
import ExprLang.Proofs.ScopeHistories
import ExprLang.Proofs.FlatContexts
import ExprLang.Proofs.IntegerArithmetic
import ExprLang.Proofs.TimeTexts
import ExprLang.Proofs.TimeArithmetic
import ExprLang.Proofs.EpochTimes
import ExprLang.Proofs.DurationNotation
import ExprLang.Proofs.EscapedLiterals
import ExprLang.Proofs.Rescanning
import ExprLang.Proofs.AlikeTokens
import ExprLang.Proofs.TokenLayout
import ExprLang.Proofs.Extremes
import ExprLang.Proofs.PresenceTests
import ExprLang.Proofs.CollectedMaps
import ExprLang.Proofs.DeeperEvaluations
import ExprLang.Proofs.ComprehensionRules
import ExprLang.Proofs.ComprehensionLaws
import ExprLang.Proofs.DistinctKeys
import ExprLang.Proofs.RelatedLists
import ExprLang.Proofs.HostReading
import ExprLang.Proofs.ValueTrees
import ExprLang.Proofs.HostRoundTrip
import ExprLang.Proofs.ProjectedShapes
import ExprLang.Proofs.DecodedEntries
import ExprLang.Proofs.AcceptedArguments
import ExprLang.Proofs.BindableNames
import ExprLang.Proofs.TextConversions
import ExprLang.Proofs.ComposedParsers
import ExprLang.Proofs.UnboundedParser
import ExprLang.Proofs.ParsingReturns
import ExprLang.Proofs.TokenNesting
import ExprLang.Proofs.NarrowerRuns
import ExprLang.Proofs.NestingLimits
import ExprLang.Proofs.OtherScopes
import ExprLang.Proofs.LineColumns

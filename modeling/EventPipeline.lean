import EventPipeline.Clock
import EventPipeline.CommandLine.Arguments
import EventPipeline.CommandLine.Program
import EventPipeline.CommandLine.Run
import EventPipeline.CommandLine.Usage
import EventPipeline.Configuration.Digest
import EventPipeline.Configuration.Fingerprint
import EventPipeline.Configuration.Load
import EventPipeline.Configuration.Merge
import EventPipeline.Configuration.Settings
import EventPipeline.Configuration.Yaml
import EventPipeline.Connector.Builtin
import EventPipeline.Connector.Client
import EventPipeline.Connector.Console
import EventPipeline.Connector.Descriptor
import EventPipeline.Connector.File
import EventPipeline.Connector.Http
import EventPipeline.Connector.Kafka
import EventPipeline.Connector.Memory
import EventPipeline.Connector.Registry
import EventPipeline.Connector.Sink
import EventPipeline.Connector.Source
import EventPipeline.Connector.Table
import EventPipeline.Connector.Watch
import EventPipeline.Document.Basic
import EventPipeline.Document.Directive
import EventPipeline.Engine.Basic
import EventPipeline.Engine.Lifecycle
import EventPipeline.Engine.Notice
import EventPipeline.Engine.Processing
import EventPipeline.Engine.RunLog
import EventPipeline.Expression.Basic
import EventPipeline.Expression.Evaluation
import EventPipeline.Expression.Lexer
import EventPipeline.Expression.Operators
import EventPipeline.Expression.Parser
import EventPipeline.Expression.Token
import EventPipeline.Expression.Tree
import EventPipeline.Failure.Basic
import EventPipeline.Failure.Reading
import EventPipeline.Failure.Report
import EventPipeline.Files.Path
import EventPipeline.Files.Tree
import EventPipeline.Json.Canonical
import EventPipeline.Json.Printer
import EventPipeline.Json.Reader
import EventPipeline.Main
import EventPipeline.Number.Basic
import EventPipeline.Number.Binary64
import EventPipeline.Number.Reading
import EventPipeline.Number.Shortest
import EventPipeline.Pipeline.Accumulation
import EventPipeline.Pipeline.Buffer
import EventPipeline.Pipeline.Chain
import EventPipeline.Pipeline.Definition
import EventPipeline.Pipeline.Lifecycle
import EventPipeline.Pipeline.Schedule
import EventPipeline.Pipeline.Spill
import EventPipeline.Pipeline.Stage
import EventPipeline.Pipeline.Window
import EventPipeline.Proofs.Configuration.Layering
import EventPipeline.Proofs.Configuration.Merging
import EventPipeline.Proofs.Configuration.Resolving
import EventPipeline.Proofs.Connector.FileLines
import EventPipeline.Proofs.Connector.KafkaCodec
import EventPipeline.Proofs.Connector.MemoryRuns
import EventPipeline.Proofs.Connector.Sinks
import EventPipeline.Proofs.Connector.SourceContract
import EventPipeline.Proofs.Connector.SourceInput
import EventPipeline.Proofs.Connector.SourceLife
import EventPipeline.Proofs.Document.Building
import EventPipeline.Proofs.Document.Capacity
import EventPipeline.Proofs.Document.ConnectorLines
import EventPipeline.Proofs.Document.DocumentFiles
import EventPipeline.Proofs.Document.Editing
import EventPipeline.Proofs.Document.FirstFault
import EventPipeline.Proofs.Document.Meaning
import EventPipeline.Proofs.Document.Refusals
import EventPipeline.Proofs.Engine.Accounting
import EventPipeline.Proofs.Engine.Books
import EventPipeline.Proofs.Engine.Confined
import EventPipeline.Proofs.Engine.CountWindow
import EventPipeline.Proofs.Engine.EndFlush
import EventPipeline.Proofs.Engine.EventSignals
import EventPipeline.Proofs.Engine.FailedStart
import EventPipeline.Proofs.Engine.Finality
import EventPipeline.Proofs.Engine.Frame
import EventPipeline.Proofs.Engine.Interleaving
import EventPipeline.Proofs.Engine.Items
import EventPipeline.Proofs.Engine.LaterStages
import EventPipeline.Proofs.Engine.Ledger
import EventPipeline.Proofs.Engine.Life
import EventPipeline.Proofs.Engine.Meanwhile
import EventPipeline.Proofs.Engine.Parts
import EventPipeline.Proofs.Engine.Resilience
import EventPipeline.Proofs.Engine.StartPieces
import EventPipeline.Proofs.Engine.Stopping
import EventPipeline.Proofs.Engine.Subscribers
import EventPipeline.Proofs.Engine.Telling
import EventPipeline.Proofs.Engine.Turns
import EventPipeline.Proofs.Engine.Unbuffered
import EventPipeline.Proofs.Engine.Watched
import EventPipeline.Proofs.Expression.Completeness
import EventPipeline.Proofs.Expression.Containment
import EventPipeline.Proofs.Expression.Cursor
import EventPipeline.Proofs.Expression.Fields
import EventPipeline.Proofs.Expression.Follow
import EventPipeline.Proofs.Expression.Grammar
import EventPipeline.Proofs.Expression.Height
import EventPipeline.Proofs.Expression.Integers
import EventPipeline.Proofs.Expression.Literals
import EventPipeline.Proofs.Expression.LooseEquality
import EventPipeline.Proofs.Expression.Munching
import EventPipeline.Proofs.Expression.Nesting
import EventPipeline.Proofs.Expression.Numerals
import EventPipeline.Proofs.Expression.Printer
import EventPipeline.Proofs.Expression.Printing
import EventPipeline.Proofs.Expression.Recognition
import EventPipeline.Proofs.Expression.Rereading
import EventPipeline.Proofs.Expression.Safety
import EventPipeline.Proofs.Expression.Soundness
import EventPipeline.Proofs.Expression.Spacing
import EventPipeline.Proofs.Expression.StrictEquality
import EventPipeline.Proofs.Fallible
import EventPipeline.Proofs.Files.Content
import EventPipeline.Proofs.Files.Frame
import EventPipeline.Proofs.Files.Outcomes
import EventPipeline.Proofs.Json.Ascii
import EventPipeline.Proofs.Json.Canonical
import EventPipeline.Proofs.Json.Escapes
import EventPipeline.Proofs.Json.Length
import EventPipeline.Proofs.Json.Numbers
import EventPipeline.Proofs.Json.RoundTrip
import EventPipeline.Proofs.Json.Strings
import EventPipeline.Proofs.Json.Symbols
import EventPipeline.Proofs.Json.Values
import EventPipeline.Proofs.Number.Integers
import EventPipeline.Proofs.Number.Layout
import EventPipeline.Proofs.Number.Nearest
import EventPipeline.Proofs.Number.Operations
import EventPipeline.Proofs.Number.Range
import EventPipeline.Proofs.Number.Reading
import EventPipeline.Proofs.Number.RoundedIntegers
import EventPipeline.Proofs.Number.Rounding
import EventPipeline.Proofs.Number.Shortest
import EventPipeline.Proofs.Number.Value
import EventPipeline.Proofs.Pipeline.BuilderCalls
import EventPipeline.Proofs.Pipeline.Closing
import EventPipeline.Proofs.Pipeline.Composition
import EventPipeline.Proofs.Pipeline.Counting
import EventPipeline.Proofs.Pipeline.Decisions
import EventPipeline.Proofs.Pipeline.DiscardEffect
import EventPipeline.Proofs.Pipeline.Discarding
import EventPipeline.Proofs.Pipeline.FailedSpills
import EventPipeline.Proofs.Pipeline.FailedStart
import EventPipeline.Proofs.Pipeline.Fates
import EventPipeline.Proofs.Pipeline.LaterStages
import EventPipeline.Proofs.Pipeline.Locking
import EventPipeline.Proofs.Pipeline.OneEngine
import EventPipeline.Proofs.Pipeline.Plain
import EventPipeline.Proofs.Pipeline.Reloads
import EventPipeline.Proofs.Pipeline.Segments
import EventPipeline.Proofs.Pipeline.SpillRuns
import EventPipeline.Proofs.Pipeline.Spilling
import EventPipeline.Proofs.Pipeline.Visits
import EventPipeline.Proofs.Signal.Delivery
import EventPipeline.Proofs.Text.Blanks
import EventPipeline.Proofs.Text.Digits
import EventPipeline.Proofs.Text.Lines
import EventPipeline.Proofs.Text.Utf8
import EventPipeline.Proofs.Text.Visible
import EventPipeline.Signal.Emitter
import EventPipeline.Table
import EventPipeline.Text.Basic
import EventPipeline.Text.Blank
import EventPipeline.Text.CaseTable
import EventPipeline.Text.Casing
import EventPipeline.Text.Digit
import EventPipeline.Text.Lines
import EventPipeline.Text.Printable
import EventPipeline.Text.Quoted
import EventPipeline.Text.Ranges
import EventPipeline.Text.Utf8
import EventPipeline.Text.Word
import EventPipeline.Value.Basic
import EventPipeline.Value.Equality
import EventPipeline.Value.Quoted

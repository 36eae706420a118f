import Flowchart.Client.Arguments
import Flowchart.Client.Call
import Flowchart.Client.Command
import Flowchart.Client.Program
import Flowchart.Client.Run
import Flowchart.Client.Tool
import Flowchart.Diagram.Check
import Flowchart.Diagram.Issue
import Flowchart.Diagram.Reader
import Flowchart.Diagram.Statement
import Flowchart.Diagram.Writer
import Flowchart.Grammar.Arrow
import Flowchart.Grammar.Declaration
import Flowchart.Grammar.Header
import Flowchart.Grammar.Identifier
import Flowchart.Grammar.Keyword
import Flowchart.Grammar.NodeRef
import Flowchart.Grammar.Shape
import Flowchart.Grammar.StyleLine
import Flowchart.Graph.Basic
import Flowchart.Graph.Json
import Flowchart.Graph.Keyed
import Flowchart.Http.Address
import Flowchart.Http.Basic
import Flowchart.Http.Path
import Flowchart.Http.Query
import Flowchart.Json.Basic
import Flowchart.Json.Reader
import Flowchart.Json.Writer
import Flowchart.Layout.Places
import Flowchart.Layout.Ranks
import Flowchart.Live.Json
import Flowchart.Live.Store
import Flowchart.Live.Sync
import Flowchart.Live.Timers
import Flowchart.Main
import Flowchart.Number.Binary64
import Flowchart.Number.Decimal
import Flowchart.Number.Integer
import Flowchart.Number.Reader
import Flowchart.Number.Shortest
import Flowchart.Schema.Check
import Flowchart.Schema.Graph
import Flowchart.Schema.Json
import Flowchart.Schema.Request
import Flowchart.Server.Answer
import Flowchart.Server.App
import Flowchart.Server.Broadcaster
import Flowchart.Server.Export
import Flowchart.Server.Message
import Flowchart.Server.Operation
import Flowchart.Server.Pool
import Flowchart.Server.Settings
import Flowchart.Server.Sockets
import Flowchart.Text.Blank
import Flowchart.Text.Digit
import Flowchart.Text.Line
import Flowchart.Text.Lowercase
import Flowchart.Text.Mark
import Flowchart.Text.Point
import Flowchart.Text.Printable
import Flowchart.Text.Quoted
import Flowchart.Text.Ranges
import Flowchart.Text.Word
import Flowchart.Proofs.Grammar.Arrow
import Flowchart.Proofs.Grammar.ArrowBetween
import Flowchart.Proofs.Grammar.ArrowSearch
import Flowchart.Proofs.Text.Lines
import Flowchart.Proofs.Text.Trim
import Flowchart.Proofs.Text.Spelled
import Flowchart.Proofs.Grammar.NodeRef
import Flowchart.Proofs.Grammar.Delimiters
import Flowchart.Proofs.Grammar.NodeGrammar
import Flowchart.Proofs.Grammar.Header
import Flowchart.Proofs.Number.Whole
import Flowchart.Proofs.Number.Nearest
import Flowchart.Proofs.Number.Search
import Flowchart.Proofs.Number.Shortest
import Flowchart.Proofs.Number.NumeralText
import Flowchart.Proofs.Grammar.Declaration
import Flowchart.Proofs.Diagram.StyleText
import Flowchart.Proofs.Diagram.StyleCodec
import Flowchart.Proofs.Diagram.Draft
import Flowchart.Proofs.Grammar.StyleLine
import Flowchart.Proofs.Diagram.Statement
import Flowchart.Proofs.Diagram.Contents
import Flowchart.Proofs.Diagram.WrittenLines
import Flowchart.Proofs.Diagram.WrittenText
import Flowchart.Proofs.Diagram.RoundTrip
import Flowchart.Proofs.Diagram.Survival
import Flowchart.Proofs.Diagram.WellFormed
import Flowchart.Proofs.Diagram.SilentCheck
import Flowchart.Proofs.Live.Alignment
import Flowchart.Proofs.Live.Deletion
import Flowchart.Proofs.Live.Consistency
import Flowchart.Proofs.Diagram.Unplaced
import Flowchart.Proofs.Live.Agreement
import Flowchart.Proofs.Layout.Places
import Flowchart.Proofs.Diagram.Parsed
import Flowchart.Proofs.Diagram.BodyLines
import Flowchart.Proofs.Diagram.Description
import Flowchart.Proofs.Diagram.Styling
import Flowchart.Proofs.Diagram.Directives
import Flowchart.Proofs.Diagram.SkippedLines
import Flowchart.Proofs.Diagram.Kind
import Flowchart.Proofs.Diagram.Spacing
import Flowchart.Proofs.Diagram.Formatting
import Flowchart.Proofs.Diagram.Reformatting
import Flowchart.Proofs.Diagram.MentionOrder
import Flowchart.Proofs.Live.LastEdge
import Flowchart.Proofs.Live.Failure
import Flowchart.Proofs.Live.Pending
import Flowchart.Proofs.Live.Announcement
import Flowchart.Proofs.Live.TextEdit
import Flowchart.Proofs.Live.Machine
import Flowchart.Proofs.Live.Served
import Flowchart.Proofs.Live.Moment
import Flowchart.Proofs.Live.Superseded
import Flowchart.Proofs.Live.Waiting
import Flowchart.Proofs.Live.InStep
import Flowchart.Proofs.Live.Burst
import Flowchart.Proofs.Live.Delivery
import Flowchart.Proofs.Live.Addition
import Flowchart.Proofs.Layout.Ranks
import Flowchart.Proofs.Layout.Spread
import Flowchart.Proofs.Layout.Symmetry
import Flowchart.Proofs.Layout.Arrangement
import Flowchart.Proofs.Server.Broadcaster
import Flowchart.Proofs.Server.Rounds
import Flowchart.Proofs.Server.Pool
import Flowchart.Proofs.Server.Change
import Flowchart.Proofs.Server.ErrorAnswer
import Flowchart.Proofs.Server.Export
import Flowchart.Proofs.Graph.Json

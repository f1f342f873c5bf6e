import Uml.Analysis.Analyze
import Uml.Analysis.Cycle
import Uml.Analysis.Declare
import Uml.Analysis.Infer
import Uml.Analysis.Members
import Uml.Analysis.Relate
import Uml.Analysis.Session
import Uml.Cache.Entry
import Uml.Command.Compile
import Uml.Command.Inspect
import Uml.Command.Line
import Uml.Command.Name
import Uml.Command.Options
import Uml.Command.Report
import Uml.Command.Run
import Uml.Command.Settings
import Uml.Command.Shell
import Uml.Command.Target
import Uml.Compile.Basic
import Uml.Compile.Work
import Uml.Diagnostic.Bag
import Uml.Diagnostic.Basic
import Uml.Diagnostic.Code
import Uml.Diagram.Assemble
import Uml.Diagram.Basic
import Uml.Diagram.Json
import Uml.Diagram.Packed
import Uml.Diagram.Text
import Uml.Diagram.Value
import Uml.Digest.Sha256
import Uml.Host.Basic
import Uml.Host.Machine
import Uml.Host.Native
import Uml.Json.Basic
import Uml.Json.Reader
import Uml.Json.Record
import Uml.Language.Catalog
import Uml.Language.Java
import Uml.Language.Plugin
import Uml.Language.TypeScript
import Uml.Language.Words
import Uml.Lexer.Cursor
import Uml.Lexer.Matcher
import Uml.Lexer.Tokenize
import Uml.Main
import Uml.MessagePack.Basic
import Uml.MessagePack.Reader
import Uml.Model.Multiplicity
import Uml.Model.Relationship
import Uml.Number.Double
import Uml.Number.Prefixed
import Uml.Number.Read
import Uml.Number.Shortest
import Uml.Parser.Declaration
import Uml.Parser.Grammar
import Uml.Parser.Member
import Uml.Parser.Reference
import Uml.Parser.State
import Uml.Parser.Statement
import Uml.Parser.TypeExpr
import Uml.Progress.Board
import Uml.Progress.Event
import Uml.Progress.Timing
import Uml.Project.Find
import Uml.Project.Manifest
import Uml.Proofs.Analysis.Closed
import Uml.Proofs.Analysis.Config
import Uml.Proofs.Analysis.Cycles
import Uml.Proofs.Analysis.Inferred
import Uml.Proofs.Analysis.Literals
import Uml.Proofs.Analysis.Located
import Uml.Proofs.Analysis.Members
import Uml.Proofs.Analysis.References
import Uml.Proofs.Analysis.Turns
import Uml.Proofs.Analysis.Written
import Uml.Proofs.Cache.Entry
import Uml.Proofs.Cache.Transparent
import Uml.Proofs.Compile.Commented
import Uml.Proofs.Compile.Joined
import Uml.Proofs.Compile.Limit
import Uml.Proofs.Compile.Located
import Uml.Proofs.Compile.Relationships
import Uml.Proofs.Compile.Stored
import Uml.Proofs.Diagnostic.Bag
import Uml.Proofs.Language.Registry
import Uml.Proofs.Lexer.Bounds
import Uml.Proofs.Lexer.Breaks
import Uml.Proofs.Lexer.Cuts
import Uml.Proofs.Lexer.Exact
import Uml.Proofs.Lexer.Lines
import Uml.Proofs.Lexer.Matchers
import Uml.Proofs.Lexer.Quoting
import Uml.Proofs.Lexer.Reading
import Uml.Proofs.Lexer.Regular
import Uml.Proofs.Lexer.Rendered
import Uml.Proofs.Lexer.Reprint
import Uml.Proofs.Lexer.Spelling
import Uml.Proofs.Lexer.Tiling
import Uml.Proofs.Model.Multiplicity
import Uml.Proofs.Parser.Accepted
import Uml.Proofs.Parser.Basic
import Uml.Proofs.Parser.Complete
import Uml.Proofs.Parser.Coverage
import Uml.Proofs.Parser.Declarations
import Uml.Proofs.Parser.Enclosed
import Uml.Proofs.Parser.EnumBody
import Uml.Proofs.Parser.Exact
import Uml.Proofs.Parser.Forest
import Uml.Proofs.Parser.Languages
import Uml.Proofs.Parser.Laws
import Uml.Proofs.Parser.Literals
import Uml.Proofs.Parser.Located
import Uml.Proofs.Parser.LookAhead
import Uml.Proofs.Parser.Members
import Uml.Proofs.Parser.Placement
import Uml.Proofs.Parser.Reading
import Uml.Proofs.Parser.Recovery
import Uml.Proofs.Parser.Recursion
import Uml.Proofs.Parser.Rendered
import Uml.Proofs.Parser.Reports
import Uml.Proofs.Parser.RoundTrip
import Uml.Proofs.Parser.Sourced
import Uml.Proofs.Parser.Termination
import Uml.Proofs.Parser.Types
import Uml.Proofs.Progress.Board
import Uml.Proofs.Report.Golden
import Uml.Proofs.Source.Path
import Uml.Proofs.Source.Position
import Uml.Proofs.State
import Uml.Proofs.Symbol.Growth
import Uml.Proofs.Symbol.History
import Uml.Proofs.Symbol.Resolution
import Uml.Proofs.Syntax.Layout
import Uml.Proofs.Syntax.Located
import Uml.Proofs.Syntax.Motion
import Uml.Proofs.Syntax.Nesting
import Uml.Proofs.Syntax.Reading
import Uml.Proofs.Syntax.Rollback
import Uml.Proofs.Syntax.Seen
import Uml.Proofs.Text.Bytes
import Uml.Proofs.Text.Unicode
import Uml.Proofs.Text.Utf8
import Uml.Proofs.Trace.Ring
import Uml.Proofs.Twin.Basic
import Uml.Proofs.Twin.Bodies
import Uml.Proofs.Twin.Declarations
import Uml.Proofs.Twin.Documents
import Uml.Proofs.Twin.Members
import Uml.Proofs.Twin.Steps
import Uml.Proofs.Typing.Head
import Uml.Proofs.Typing.Links
import Uml.Proofs.Typing.Meaning
import Uml.Report.Editor
import Uml.Report.Golden
import Uml.Report.Outline
import Uml.Report.Place
import Uml.Report.Pretty
import Uml.Run.Files
import Uml.Source.File
import Uml.Source.Path
import Uml.Source.Span
import Uml.Symbol.Entity
import Uml.Symbol.Resolve
import Uml.Symbol.Table
import Uml.Syntax.Literal
import Uml.Syntax.Modifier
import Uml.Syntax.Spans
import Uml.Syntax.Statement
import Uml.Syntax.Stream
import Uml.Syntax.TypeExpr
import Uml.Text.Bytes
import Uml.Text.Category
import Uml.Text.Lower
import Uml.Text.Normal
import Uml.Text.NormalData
import Uml.Text.Quoted
import Uml.Text.Utf8
import Uml.Text.Width
import Uml.Text.WidthData
import Uml.Token.Basic
import Uml.Toml.Basic
import Uml.Toml.Build
import Uml.Toml.Moment
import Uml.Toml.Reader
import Uml.Trace.Event
import Uml.Trace.Level
import Uml.Trace.Tracer
import Uml.Typing.Meaning

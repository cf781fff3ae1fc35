import CSharpAudit.Assembly.Image
import CSharpAudit.Assembly.Metadata
import CSharpAudit.Assembly.TypeName
import CSharpAudit.Binding.Basic
import CSharpAudit.Binding.Resolve
import CSharpAudit.CommandLine.Command
import CSharpAudit.CommandLine.Complete
import CSharpAudit.CommandLine.Run
import CSharpAudit.CommandLine.Flag
import CSharpAudit.CommandLine.Options
import CSharpAudit.CommandLine.Record
import CSharpAudit.CommandLine.Shell
import CSharpAudit.Config.Json
import CSharpAudit.Config.Load
import CSharpAudit.Config.Mismatch
import CSharpAudit.Config.Settings
import CSharpAudit.Dependency.Graph
import CSharpAudit.Diagnostic.Basic
import CSharpAudit.Diagnostic.Code
import CSharpAudit.Files.Glob
import CSharpAudit.Files.Path
import CSharpAudit.Files.Tree
import CSharpAudit.Files.Write
import CSharpAudit.Flow.Measure
import CSharpAudit.Grammar.Declaration
import CSharpAudit.Grammar.Expression
import CSharpAudit.Grammar.Parser
import CSharpAudit.Grammar.Signature
import CSharpAudit.Grammar.Statement
import CSharpAudit.Grammar.Type
import CSharpAudit.Grammar.Unit
import CSharpAudit.Json.Basic
import CSharpAudit.Json.Overlay
import CSharpAudit.Json.Parser
import CSharpAudit.Main
import CSharpAudit.Metrics.Basic
import CSharpAudit.Metrics.Collect
import CSharpAudit.Number.Basic
import CSharpAudit.Number.Calendar
import CSharpAudit.Pipeline.Entry
import CSharpAudit.Pipeline.Registry
import CSharpAudit.Pipeline.Rule
import CSharpAudit.Pipeline.Schedule
import CSharpAudit.Pipeline.Session
import CSharpAudit.Report.Basic
import CSharpAudit.Report.Console
import CSharpAudit.Report.Json
import CSharpAudit.Report.Merge
import CSharpAudit.Report.MessagePack
import CSharpAudit.Report.Render
import CSharpAudit.Rules.Access
import CSharpAudit.Rules.Attributes
import CSharpAudit.Rules.ControlFlow
import CSharpAudit.Rules.Declaration
import CSharpAudit.Rules.Inheritance
import CSharpAudit.Rules.Naming
import CSharpAudit.Rules.Nullability
import CSharpAudit.Rules.Performance
import CSharpAudit.Scope.Basic
import CSharpAudit.Source.Document
import CSharpAudit.Source.Position
import CSharpAudit.Source.SyntaxError
import CSharpAudit.Symbol.Index
import CSharpAudit.Syntax.Children
import CSharpAudit.Syntax.Construct
import CSharpAudit.Syntax.Cursor
import CSharpAudit.Syntax.Declarations
import CSharpAudit.Syntax.Expression
import CSharpAudit.Syntax.Json
import CSharpAudit.Syntax.Member
import CSharpAudit.Syntax.Modifier
import CSharpAudit.Syntax.Node
import CSharpAudit.Syntax.SpanTable
import CSharpAudit.Syntax.TypeRef
import CSharpAudit.Syntax.Walk
import CSharpAudit.Text.Base64
import CSharpAudit.Text.Case
import CSharpAudit.Text.CharSet
import CSharpAudit.Text.Composition
import CSharpAudit.Text.Grapheme
import CSharpAudit.Text.Letter
import CSharpAudit.Text.Mark
import CSharpAudit.Text.NormalForm
import CSharpAudit.Text.Printable
import CSharpAudit.Text.Quoted
import CSharpAudit.Text.Utf8
import CSharpAudit.Token.Basic
import CSharpAudit.Token.Lexer
import CSharpAudit.Toml.Read
import CSharpAudit.Toml.Syntax
import CSharpAudit.Toml.Table
import CSharpAudit.Toml.Write
import CSharpAudit.Watch.State
import CSharpAudit.Workspace.Analysis
import CSharpAudit.Workspace.Basic
import CSharpAudit.Workspace.Json
import CSharpAudit.Workspace.Load
import CSharpAudit.Workspace.Project
import CSharpAudit.Xml.Element
import CSharpAudit.Xml.Reader
import CSharpAudit.Yaml.Content
import CSharpAudit.Yaml.Fault
import CSharpAudit.Yaml.Node
import CSharpAudit.Yaml.Read
import CSharpAudit.Yaml.Reader
import CSharpAudit.Yaml.Scalar
import CSharpAudit.Yaml.Scanner
import CSharpAudit.Yaml.Source
import CSharpAudit.Yaml.Write
import CSharpAudit.Proofs.Erasure
import CSharpAudit.Proofs.Layouts
import CSharpAudit.Proofs.Nesting
import CSharpAudit.Proofs.Reading
import CSharpAudit.Proofs.Grammar.Type
import CSharpAudit.Proofs.Grammar.Argument
import CSharpAudit.Proofs.Grammar.Expression
import CSharpAudit.Proofs.Grammar.Signature
import CSharpAudit.Proofs.Grammar.Statement
import CSharpAudit.Proofs.Grammar.Declaration
import CSharpAudit.Proofs.Grammar.Unit
import CSharpAudit.Proofs.Scanning
import CSharpAudit.Proofs.Trivia
import CSharpAudit.Proofs.Lexing
import CSharpAudit.Proofs.Parsing
import CSharpAudit.Proofs.Scheduling
import CSharpAudit.Proofs.Cursors
import CSharpAudit.Proofs.Workspaces
import CSharpAudit.Proofs.Switches
import CSharpAudit.Proofs.Coverage
import CSharpAudit.Proofs.Assembly.Encoding
import CSharpAudit.Proofs.Assembly.Bounds
import CSharpAudit.Proofs.Placement
import CSharpAudit.Proofs.Grammar.Placement
import CSharpAudit.Proofs.MemberFlows
import CSharpAudit.Proofs.Codes
import CSharpAudit.Proofs.FlowReports
import CSharpAudit.Proofs.FinalForm
import CSharpAudit.Proofs.SharedWalks
import CSharpAudit.Proofs.MetricCounts
import CSharpAudit.Proofs.LookAhead
import CSharpAudit.Proofs.Relexing
import CSharpAudit.Proofs.ByteOrderMark
import CSharpAudit.Proofs.Watching
import CSharpAudit.Proofs.LoadWarnings
import CSharpAudit.Proofs.References
import CSharpAudit.Proofs.Positions
import CSharpAudit.Proofs.Running
import CSharpAudit.Proofs.Grammar.Precedence
import CSharpAudit.Proofs.Grammar.PlainType
import CSharpAudit.Proofs.Grammar.TypeTest
import CSharpAudit.Proofs.Endings
import CSharpAudit.Proofs.Grammar.Guard
import CSharpAudit.Proofs.Grammar.GuardedArm
import CSharpAudit.Proofs.Grammar.Listing
import CSharpAudit.Proofs.Inheritance
import CSharpAudit.Proofs.Overloads
import CSharpAudit.Proofs.InheritanceSearch
import CSharpAudit.Proofs.FlowMeasure
import CSharpAudit.Proofs.CommentedLines
import CSharpAudit.Proofs.CodeLineCount
import CSharpAudit.Proofs.Walk
import CSharpAudit.Proofs.Binding.TypeParameters
import CSharpAudit.Proofs.Binding.Directives
import CSharpAudit.Proofs.UnusedLocals
import CSharpAudit.Proofs.NullAssignments
import CSharpAudit.Proofs.DeadStatements
import CSharpAudit.Proofs.Dependencies
import CSharpAudit.Proofs.DepthFirst
import CSharpAudit.Proofs.NormalForms
import CSharpAudit.Proofs.FullNames
import CSharpAudit.Proofs.DependencyCounts
import CSharpAudit.Proofs.Suggestions
import CSharpAudit.Proofs.LoopAllocations
import CSharpAudit.Proofs.Grammar.Provenance
import CSharpAudit.Proofs.NameSpans
import CSharpAudit.Proofs.DeclarationOrder
import CSharpAudit.Proofs.ScopeKeys
import CSharpAudit.Proofs.UniqueScopes
import CSharpAudit.Proofs.SymbolLookup

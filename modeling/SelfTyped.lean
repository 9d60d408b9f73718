import SelfTyped.Command.Failure
import SelfTyped.Command.Listing
import SelfTyped.Command.Options
import SelfTyped.Command.Run
import SelfTyped.Decimal.Notation
import SelfTyped.Decimal.Shortest
import SelfTyped.Hierarchy.Basic
import SelfTyped.Hierarchy.Build
import SelfTyped.Hierarchy.Signature
import SelfTyped.Interned.Basic
import SelfTyped.Interned.Lowering
import SelfTyped.Interned.Suggestion
import SelfTyped.Json.Basic
import SelfTyped.Json.Draft
import SelfTyped.Json.Grammar
import SelfTyped.Json.Nesting
import SelfTyped.Json.Numeral
import SelfTyped.Json.Printer
import SelfTyped.Json.Reordering
import SelfTyped.Json.StringLiteral
import SelfTyped.Main
import SelfTyped.Program.Basic
import SelfTyped.Program.Construct
import SelfTyped.Program.Lowering
import SelfTyped.Program.Operator
import SelfTyped.Program.Sameness
import SelfTyped.Proofs.Acceptance
import SelfTyped.Proofs.AlikeNodes
import SelfTyped.Proofs.Ancestry
import SelfTyped.Proofs.Annotations
import SelfTyped.Proofs.ByteNesting
import SelfTyped.Proofs.CaseOrder
import SelfTyped.Proofs.CheckerMoves
import SelfTyped.Proofs.ClassOrder
import SelfTyped.Proofs.ClassScope
import SelfTyped.Proofs.DiagnosticPlaces
import SelfTyped.Proofs.EditDistance
import SelfTyped.Proofs.EnteredNames
import SelfTyped.Proofs.EntryOrder
import SelfTyped.Proofs.ErrorKinds
import SelfTyped.Proofs.Exactness
import SelfTyped.Proofs.Execution
import SelfTyped.Proofs.ExplicitForms
import SelfTyped.Proofs.HierarchyBuild
import SelfTyped.Proofs.Hints
import SelfTyped.Proofs.Inheritance
import SelfTyped.Proofs.InternedSameness
import SelfTyped.Proofs.InternedSuggestions
import SelfTyped.Proofs.Interning
import SelfTyped.Proofs.JoinLaws
import SelfTyped.Proofs.JsonGrammar
import SelfTyped.Proofs.JsonNesting
import SelfTyped.Proofs.JsonText
import SelfTyped.Proofs.Judgement
import SelfTyped.Proofs.LimitGuards
import SelfTyped.Proofs.LineIndependence
import SelfTyped.Proofs.LineInheritance
import SelfTyped.Proofs.LiteralGrammar
import SelfTyped.Proofs.Lowering
import SelfTyped.Proofs.MethodLookup
import SelfTyped.Proofs.MethodTables
import SelfTyped.Proofs.Modularity
import SelfTyped.Proofs.NestedPhases
import SelfTyped.Proofs.NestingLimit
import SelfTyped.Proofs.NestingReports
import SelfTyped.Proofs.Numerals
import SelfTyped.Proofs.OwnFindings
import SelfTyped.Proofs.Parts
import SelfTyped.Proofs.PhaseReports
import SelfTyped.Proofs.ReadLevels
import SelfTyped.Proofs.ReadParts
import SelfTyped.Proofs.Records
import SelfTyped.Proofs.Redeclarations
import SelfTyped.Proofs.Reorderings
import SelfTyped.Proofs.ReportedTypes
import SelfTyped.Proofs.Reports
import SelfTyped.Proofs.Restoration
import SelfTyped.Proofs.RoundTrip
import SelfTyped.Proofs.RuleCheck
import SelfTyped.Proofs.Runs
import SelfTyped.Proofs.SameRules
import SelfTyped.Proofs.ScopeBindings
import SelfTyped.Proofs.ScopeStack
import SelfTyped.Proofs.SelfMisuses
import SelfTyped.Proofs.SelfVariable
import SelfTyped.Proofs.SilentTypes
import SelfTyped.Proofs.SinkCalls
import SelfTyped.Proofs.StringLiterals
import SelfTyped.Proofs.Subtyping
import SelfTyped.Proofs.Suggestions
import SelfTyped.Proofs.TextNesting
import SelfTyped.Proofs.Traversals
import SelfTyped.Proofs.TypeListing
import SelfTyped.Proofs.TypeOrigins
import SelfTyped.Proofs.Unlined
import SelfTyped.Proofs.Verdicts
import SelfTyped.Proofs.WrittenPrograms
import SelfTyped.Report.Calls
import SelfTyped.Report.Diagnostic
import SelfTyped.Report.Sink
import SelfTyped.Report.Style
import SelfTyped.Scope.Assoc
import SelfTyped.Scope.Basic
import SelfTyped.Scope.Stack
import SelfTyped.Source.Basic
import SelfTyped.Source.Explicit
import SelfTyped.Source.ExprReader
import SelfTyped.Source.Extent
import SelfTyped.Source.Mismatch
import SelfTyped.Source.Node
import SelfTyped.Source.Place
import SelfTyped.Source.Printer
import SelfTyped.Source.ReadError
import SelfTyped.Source.Reader
import SelfTyped.Source.Record
import SelfTyped.Text.EditDistance
import SelfTyped.Text.Edits
import SelfTyped.Text.Interner
import SelfTyped.Text.Name
import SelfTyped.Text.Quoted
import SelfTyped.Text.Suggestion
import SelfTyped.Text.Table
import SelfTyped.Text.Unprintable
import SelfTyped.Timing.Nesting
import SelfTyped.Timing.Report
import SelfTyped.Typing.Analysis
import SelfTyped.Typing.Annotations
import SelfTyped.Typing.Checker
import SelfTyped.Typing.Error
import SelfTyped.Typing.Methods
import SelfTyped.Typing.Moves
import SelfTyped.Typing.Places
import SelfTyped.Typing.Setting
import SelfTyped.Typing.Variables

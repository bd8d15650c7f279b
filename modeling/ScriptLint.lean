import ScriptLint.Ban
import ScriptLint.Ban.Selection
import ScriptLint.CallSite
import ScriptLint.Catalog
import ScriptLint.Catalog.Builtin
import ScriptLint.Catalog.Section
import ScriptLint.Command
import ScriptLint.Command.Arguments
import ScriptLint.Command.Settings
import ScriptLint.Config
import ScriptLint.Directive
import ScriptLint.Directive.Scan
import ScriptLint.Disk
import ScriptLint.Edit
import ScriptLint.Ignore
import ScriptLint.Ignore.Glob
import ScriptLint.Ignore.Walk
import ScriptLint.Index
import ScriptLint.Index.Build
import ScriptLint.Linter
import ScriptLint.Linter.Project
import ScriptLint.Main
import ScriptLint.Name
import ScriptLint.Node
import ScriptLint.Outline
import ScriptLint.Outline.Extract
import ScriptLint.Path
import ScriptLint.Path.Role
import ScriptLint.Pattern
import ScriptLint.Proofs.Ban.Offends
import ScriptLint.Proofs.Catalog.Contents
import ScriptLint.Proofs.Catalog.Namespaces
import ScriptLint.Proofs.Directive.Annotation
import ScriptLint.Proofs.Directive.Chains
import ScriptLint.Proofs.Directive.Dollars
import ScriptLint.Proofs.Directive.Lines
import ScriptLint.Proofs.Directive.Literal
import ScriptLint.Proofs.Directive.Moves
import ScriptLint.Proofs.Directive.Places
import ScriptLint.Proofs.Directive.Wrap
import ScriptLint.Proofs.Edit.Annotations
import ScriptLint.Proofs.Edit.Choice
import ScriptLint.Proofs.Edit.Failure
import ScriptLint.Proofs.Edit.Performed
import ScriptLint.Proofs.Edit.Rows
import ScriptLint.Proofs.Edit.Splice
import ScriptLint.Proofs.Index.Imports
import ScriptLint.Proofs.Index.Order
import ScriptLint.Proofs.Linter.Fix
import ScriptLint.Proofs.Linter.Inspect
import ScriptLint.Proofs.Linter.Offences
import ScriptLint.Proofs.Name.Parents
import ScriptLint.Proofs.Name.Segments
import ScriptLint.Proofs.Name.Under
import ScriptLint.Proofs.Outline.Enclosing
import ScriptLint.Proofs.Outline.Names
import ScriptLint.Proofs.Outline.Spans
import ScriptLint.Proofs.Outline.Walk
import ScriptLint.Proofs.Remedy.Rounds
import ScriptLint.Proofs.Report.Order
import ScriptLint.Proofs.Resolver.Hierarchy
import ScriptLint.Proofs.Resolver.Readings
import ScriptLint.Proofs.Script.Alias
import ScriptLint.Proofs.Script.Phrasing
import ScriptLint.Proofs.Script.Removal
import ScriptLint.Proofs.Source.Leading
import ScriptLint.Proofs.Source.Names
import ScriptLint.Proofs.Source.Nesting
import ScriptLint.Proofs.Source.Reads
import ScriptLint.Proofs.Source.Spans
import ScriptLint.Proofs.Text.Parts
import ScriptLint.Proofs.Text.Rows
import ScriptLint.Remedy
import ScriptLint.Report
import ScriptLint.Report.Format
import ScriptLint.Resolver
import ScriptLint.Rule
import ScriptLint.Scope
import ScriptLint.Script
import ScriptLint.Source.Grammar
import ScriptLint.Source.Grammar.Declarations
import ScriptLint.Source.Grammar.Expressions
import ScriptLint.Source.Grammar.Rule
import ScriptLint.Source.Grammar.Statements
import ScriptLint.Source.Grammar.Types
import ScriptLint.Source.Lexeme
import ScriptLint.Source.Peg
import ScriptLint.Source.Token
import ScriptLint.Source.Tree
import ScriptLint.Span
import ScriptLint.Symbol
import ScriptLint.Text.Blank
import ScriptLint.Text.Case
import ScriptLint.Text.CaseTable
import ScriptLint.Text.Find
import ScriptLint.Text.Json
import ScriptLint.Text.Measure
import ScriptLint.Toml.Document
import ScriptLint.Toml.Draft
import ScriptLint.Toml.Fields
import ScriptLint.Toml.Moment
import ScriptLint.Toml.Number
import ScriptLint.Toml.Quoted
import ScriptLint.Toml.Value
import ScriptLint.Watch
import ScriptLint.Proofs.Report.Stable
import ScriptLint.Proofs.Linter.Loading
import ScriptLint.Proofs.Linter.Cancellation
import ScriptLint.Proofs.Linter.Chosen
import ScriptLint.Proofs.Disk.Tree
import ScriptLint.Proofs.Command.Nearest
import ScriptLint.Proofs.Edit.Order
import ScriptLint.Proofs.Remedy.Once
import ScriptLint.Proofs.Name.Above
import ScriptLint.Proofs.Script.Beneath
import ScriptLint.Proofs.Text.Octets
import ScriptLint.Proofs.Directive.Octets
import ScriptLint.Proofs.Directive.Found
import ScriptLint.Proofs.CallSite.Chain
import ScriptLint.Proofs.CallSite.Interfaces
import ScriptLint.Proofs.CallSite.Restricted
import ScriptLint.Proofs.Resolver.Stages
import ScriptLint.Proofs.Name.Order
import ScriptLint.Proofs.Text.Lower
import ScriptLint.Proofs.Text.Positions
import ScriptLint.Proofs.Path.Roles
import ScriptLint.Proofs.Report.Canonical
import ScriptLint.Proofs.Outline.Paths

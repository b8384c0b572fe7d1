import EntityGen.Artifact
import EntityGen.Changes
import EntityGen.CommandLine.Arguments
import EntityGen.CommandLine.Edit
import EntityGen.CommandLine.Ending
import EntityGen.CommandLine.Environment
import EntityGen.CommandLine.Generate
import EntityGen.Document
import EntityGen.DocumentKind
import EntityGen.Editor.MediaType
import EntityGen.Editor.Schema
import EntityGen.Editor.Service
import EntityGen.Entity
import EntityGen.Fault
import EntityGen.Files.Fault
import EntityGen.Files.Operation
import EntityGen.Files.Path
import EntityGen.Files.Tree
import EntityGen.Files.Walk
import EntityGen.Form.Chain
import EntityGen.Form.Message
import EntityGen.Form.Reader
import EntityGen.Form.Rule
import EntityGen.Formatter
import EntityGen.Generation.Directories
import EntityGen.Generation.Report
import EntityGen.Generation.Run
import EntityGen.Job
import EntityGen.Json.Basic
import EntityGen.Json.Member
import EntityGen.Json.Number
import EntityGen.Json.Reader
import EntityGen.Main
import EntityGen.Naming
import EntityGen.Notice
import EntityGen.Number.Basic
import EntityGen.Number.Digits
import EntityGen.Number.Power
import EntityGen.Number.Reader
import EntityGen.Number.Text
import EntityGen.Primitive
import EntityGen.Proofs.Artifact
import EntityGen.Proofs.Changes
import EntityGen.Proofs.CommandLine.Formatting
import EntityGen.Proofs.CommandLine.Preparing
import EntityGen.Proofs.Editor.Replace
import EntityGen.Proofs.Editor.Returned
import EntityGen.Proofs.Editor.RoundTrip
import EntityGen.Proofs.Editor.Value
import EntityGen.Proofs.Files.Anchored
import EntityGen.Proofs.Files.Join
import EntityGen.Proofs.Files.Lacking
import EntityGen.Proofs.Files.Operation
import EntityGen.Proofs.Files.Parent
import EntityGen.Proofs.Files.Passage
import EntityGen.Proofs.Files.Path
import EntityGen.Proofs.Files.Rewriting
import EntityGen.Proofs.Files.Steps
import EntityGen.Proofs.Files.Straight
import EntityGen.Proofs.Files.Tree
import EntityGen.Proofs.Files.Walk
import EntityGen.Proofs.Files.Within
import EntityGen.Proofs.FirstUse
import EntityGen.Proofs.Form.Alike
import EntityGen.Proofs.Form.Chain
import EntityGen.Proofs.Form.Compiled
import EntityGen.Proofs.Form.Constraint
import EntityGen.Proofs.Form.Entries
import EntityGen.Proofs.Form.Matches
import EntityGen.Proofs.Form.Numbers
import EntityGen.Proofs.Form.Placeholders
import EntityGen.Proofs.Form.Tidy
import EntityGen.Proofs.Generation.Accounting
import EntityGen.Proofs.Generation.Again
import EntityGen.Proofs.Generation.Alignment
import EntityGen.Proofs.Generation.Artifacts
import EntityGen.Proofs.Generation.Commuting
import EntityGen.Proofs.Generation.Containment
import EntityGen.Proofs.Generation.Emission
import EntityGen.Proofs.Generation.Filling
import EntityGen.Proofs.Generation.FullRuns
import EntityGen.Proofs.Generation.Gate
import EntityGen.Proofs.Generation.Inputs
import EntityGen.Proofs.Generation.Laying
import EntityGen.Proofs.Generation.Lingering
import EntityGen.Proofs.Generation.Linking
import EntityGen.Proofs.Generation.Mirror
import EntityGen.Proofs.Generation.Obstruction
import EntityGen.Proofs.Generation.Outcomes
import EntityGen.Proofs.Generation.Phases
import EntityGen.Proofs.Generation.Placement
import EntityGen.Proofs.Generation.Reconcile
import EntityGen.Proofs.Generation.Reconciling
import EntityGen.Proofs.Generation.Reported
import EntityGen.Proofs.Generation.Rounds
import EntityGen.Proofs.Generation.RulesetRuns
import EntityGen.Proofs.Generation.Rulesets
import EntityGen.Proofs.Generation.SchemaRuns
import EntityGen.Proofs.Generation.Scoped
import EntityGen.Proofs.Generation.Steps
import EntityGen.Proofs.Job
import EntityGen.Proofs.Loading
import EntityGen.Proofs.Naming
import EntityGen.Proofs.Naming.Boundaries
import EntityGen.Proofs.Number
import EntityGen.Proofs.Number.Reading
import EntityGen.Proofs.Number.Rounding
import EntityGen.Proofs.Number.Shortest
import EntityGen.Proofs.Projection
import EntityGen.Proofs.Result
import EntityGen.Proofs.Schema.Alike
import EntityGen.Proofs.Schema.Declarations
import EntityGen.Proofs.Schema.Entries
import EntityGen.Proofs.Schema.Order
import EntityGen.Proofs.Schema.References
import EntityGen.Proofs.Schema.Segments
import EntityGen.Proofs.Schema.WireNames
import EntityGen.Proofs.Shape
import EntityGen.Proofs.Shape.Alike
import EntityGen.Proofs.Shape.Order
import EntityGen.Proofs.Shuffled
import EntityGen.Proofs.Text.Case
import EntityGen.Proofs.Text.Lowered
import EntityGen.Proofs.Text.Split
import EntityGen.Proofs.Transfer
import EntityGen.Proofs.TypeScript.Chain
import EntityGen.Proofs.TypeScript.Check
import EntityGen.Proofs.TypeScript.Class
import EntityGen.Proofs.TypeScript.Decoding
import EntityGen.Proofs.TypeScript.Expression
import EntityGen.Proofs.TypeScript.Literal
import EntityGen.Proofs.TypeScript.Member
import EntityGen.Proofs.TypeScript.Message
import EntityGen.Proofs.TypeScript.Methods
import EntityGen.Proofs.TypeScript.Model
import EntityGen.Proofs.TypeScript.Numbers
import EntityGen.Proofs.TypeScript.Numeral
import EntityGen.Proofs.TypeScript.Reveals
import EntityGen.Proofs.TypeScript.Ruleset
import EntityGen.Proofs.TypeScript.Scanner
import EntityGen.Proofs.TypeScript.Statement
import EntityGen.Proofs.TypeScript.Syntax
import EntityGen.Proofs.TypeScript.Text
import EntityGen.Proofs.TypeScript.Token
import EntityGen.Proofs.TypeScript.TopLevel
import EntityGen.Proofs.TypeScript.Tree
import EntityGen.Proofs.TypeScript.Uses
import EntityGen.Proofs.Watch.Bookkeeping
import EntityGen.Proofs.Watch.Change
import EntityGen.Proofs.Watch.Handle
import EntityGen.Proofs.Watch.History
import EntityGen.Proofs.Watch.Malformed
import EntityGen.Proofs.Watch.Mirror
import EntityGen.Proofs.Watch.Pending
import EntityGen.Proofs.Watch.Sharing
import EntityGen.Proofs.Watch.Starting
import EntityGen.Proofs.Wire
import EntityGen.Proofs.Yaml.Alike
import EntityGen.Proofs.Yaml.Decision
import EntityGen.Proofs.Yaml.Distinct
import EntityGen.Proofs.Yaml.Same
import EntityGen.Scaffold
import EntityGen.Schema.Basic
import EntityGen.Schema.Check
import EntityGen.Schema.Reader
import EntityGen.Schema.References
import EntityGen.Settings.Basic
import EntityGen.Settings.Reader
import EntityGen.Shape
import EntityGen.Text.Blank
import EntityGen.Text.Case
import EntityGen.Text.Case.Table
import EntityGen.Text.Cluster
import EntityGen.Text.Order
import EntityGen.Text.Quoted
import EntityGen.Text.Range
import EntityGen.Text.Split
import EntityGen.Text.Word
import EntityGen.Transfer
import EntityGen.TypeScript.Literal
import EntityGen.TypeScript.Model
import EntityGen.TypeScript.Ruleset
import EntityGen.TypeScript.Text
import EntityGen.TypeScript.Transfer
import EntityGen.Watch.Document
import EntityGen.Watch.Registry
import EntityGen.Watch.Snapshot
import EntityGen.Yaml.Node
import EntityGen.Yaml.Node.Reader
import EntityGen.Yaml.Scalar
import EntityGen.Yaml.Token
import EntityGen.Yaml.Token.Lexer
import EntityGen.Yaml.Token.Scalar
import EntityGen.Yaml.Token.Tag
import EntityGen.Yaml.Value
import EntityGen.Yaml.Value.Reader
import EntityGen.Yaml.Writer
import EntityGen.Yaml.Writer.Scalar

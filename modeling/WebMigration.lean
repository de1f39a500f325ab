import WebMigration.Backup.Input
import WebMigration.Backup.Store
import WebMigration.Backup.Transaction
import WebMigration.Command.Options
import WebMigration.Command.Run
import WebMigration.Command.Session
import WebMigration.Command.Tree
import WebMigration.Diff.Alignment
import WebMigration.Diff.Unified
import WebMigration.Disk.Address
import WebMigration.Disk.Basic
import WebMigration.Disk.Edit
import WebMigration.Engine.Basic
import WebMigration.Engine.Batch
import WebMigration.Engine.File
import WebMigration.Engine.Generated
import WebMigration.Engine.Pass
import WebMigration.Equivalence.Comparison
import WebMigration.Equivalence.Fingerprint
import WebMigration.Failure.Basic
import WebMigration.Failure.Event
import WebMigration.Failure.Record
import WebMigration.Failure.Run
import WebMigration.Framework.Profile
import WebMigration.Json.Access
import WebMigration.Json.Decoder
import WebMigration.Json.Display
import WebMigration.Json.Parser
import WebMigration.Json.Printer
import WebMigration.Json.Value
import WebMigration.Lane.AppRouter
import WebMigration.Lane.AppRouter.Layout
import WebMigration.Lane.AppRouter.Rule
import WebMigration.Lane.AppRouter.Template
import WebMigration.Lane.Basic
import WebMigration.Lane.Registry
import WebMigration.Lane.Route
import WebMigration.Main
import WebMigration.Module.Context
import WebMigration.Module.Grammars
import WebMigration.Module.Reference
import WebMigration.Module.Source
import WebMigration.Module.Surface
import WebMigration.Number.Binary64
import WebMigration.Progress.Event
import WebMigration.Progress.Sink
import WebMigration.Proofs.Backup.Calls
import WebMigration.Proofs.Backup.History
import WebMigration.Proofs.Backup.Retention
import WebMigration.Proofs.Backup.Sharing
import WebMigration.Proofs.Backup.Transaction
import WebMigration.Proofs.Command.Preparing
import WebMigration.Proofs.Command.Reading
import WebMigration.Proofs.Command.Rollback
import WebMigration.Proofs.Command.Setback
import WebMigration.Proofs.Command.Writing
import WebMigration.Proofs.Diff.Alignment
import WebMigration.Proofs.Diff.Counting
import WebMigration.Proofs.Diff.Hunks
import WebMigration.Proofs.Disk.Change
import WebMigration.Proofs.Disk.Location
import WebMigration.Proofs.Disk.Text
import WebMigration.Proofs.Engine.Batch
import WebMigration.Proofs.Engine.Closed
import WebMigration.Proofs.Engine.FailedCall
import WebMigration.Proofs.Engine.File
import WebMigration.Proofs.Engine.Generated
import WebMigration.Proofs.Engine.Grouping
import WebMigration.Proofs.Engine.Keeping
import WebMigration.Proofs.Engine.Keys
import WebMigration.Proofs.Engine.Pass
import WebMigration.Proofs.Engine.Progress
import WebMigration.Proofs.Engine.Review
import WebMigration.Proofs.Engine.Sheets
import WebMigration.Proofs.Engine.Trail
import WebMigration.Proofs.Equivalence.Comparison
import WebMigration.Proofs.Failure.Closed
import WebMigration.Proofs.Failure.Redaction
import WebMigration.Proofs.Failure.Run
import WebMigration.Proofs.Json.Notation
import WebMigration.Proofs.Json.Reading
import WebMigration.Proofs.Json.Refusal
import WebMigration.Proofs.Lane.AppRouter
import WebMigration.Proofs.Lane.Harmony
import WebMigration.Proofs.Lane.Link
import WebMigration.Proofs.Lane.Planning
import WebMigration.Proofs.Module.Grammars
import WebMigration.Proofs.Module.Identity
import WebMigration.Proofs.Module.Scope
import WebMigration.Proofs.Module.Source
import WebMigration.Proofs.Module.Walk
import WebMigration.Proofs.Number.Exact
import WebMigration.Proofs.Number.Order
import WebMigration.Proofs.Number.Overflow
import WebMigration.Proofs.Progress.Delivery
import WebMigration.Proofs.Progress.Session
import WebMigration.Proofs.Recovery.Answering
import WebMigration.Proofs.Recovery.Closed
import WebMigration.Proofs.Recovery.Combining
import WebMigration.Proofs.Recovery.Retrying
import WebMigration.Proofs.Recovery.Standard
import WebMigration.Proofs.Rewrite.Alias
import WebMigration.Proofs.Rewrite.Careful
import WebMigration.Proofs.Rewrite.Edit
import WebMigration.Proofs.Rewrite.Import
import WebMigration.Proofs.Rewrite.Mapping
import WebMigration.Proofs.Rewrite.Outcome
import WebMigration.Proofs.Rewrite.Renaming
import WebMigration.Proofs.Rewrite.Simultaneous
import WebMigration.Proofs.Rewrite.Stability
import WebMigration.Proofs.Rules.Agreement
import WebMigration.Proofs.Rules.Suppression
import WebMigration.Proofs.Rules.Usage
import WebMigration.Proofs.Scoring
import WebMigration.Proofs.Semantic.Answer
import WebMigration.Proofs.Semantic.Format
import WebMigration.Proofs.Settings.Limits
import WebMigration.Proofs.Spec.Spelling
import WebMigration.Proofs.Style.Directive
import WebMigration.Proofs.Style.FirstRules
import WebMigration.Proofs.Style.Merging
import WebMigration.Proofs.Style.Reading
import WebMigration.Proofs.Style.Repeats
import WebMigration.Proofs.Style.Survival
import WebMigration.Proofs.Style.TopLevel
import WebMigration.Proofs.Syntax.Boundary
import WebMigration.Proofs.Syntax.Form
import WebMigration.Proofs.Syntax.Grammar.Declaration
import WebMigration.Proofs.Syntax.Grammar.Expression
import WebMigration.Proofs.Syntax.Grammar.Markup
import WebMigration.Proofs.Syntax.Grammar.Pattern
import WebMigration.Proofs.Syntax.Grammar.Statement
import WebMigration.Proofs.Syntax.Grammar.TypeExpression
import WebMigration.Proofs.Syntax.Lexeme
import WebMigration.Proofs.Syntax.Reader
import WebMigration.Proofs.Syntax.Standing
import WebMigration.Proofs.Table
import WebMigration.Proofs.Text.Ending
import WebMigration.Proofs.Text.Key
import WebMigration.Proofs.Text.Lines
import WebMigration.Proofs.Text.Matching
import WebMigration.Proofs.Text.Path
import WebMigration.Proofs.Text.Pattern
import WebMigration.Proofs.Text.Pieces
import WebMigration.Proofs.Text.Utf8
import WebMigration.Proofs.Validation.Foreign
import WebMigration.Recovery.Basic
import WebMigration.Recovery.Manager
import WebMigration.Recovery.Strategy
import WebMigration.Result.Basic
import WebMigration.Rewrite.Edit
import WebMigration.Rewrite.Import
import WebMigration.Rewrite.Pass
import WebMigration.Rewrite.Rename
import WebMigration.Rewrite.Rule
import WebMigration.Rules.Usage
import WebMigration.Rules.Validation
import WebMigration.Rules.Violation
import WebMigration.Scoring
import WebMigration.Semantic.Answer
import WebMigration.Semantic.Prompt
import WebMigration.Semantic.Transformer
import WebMigration.Settings.Basic
import WebMigration.Settings.Source
import WebMigration.Spec.Basic
import WebMigration.Spec.Document
import WebMigration.Structure.Change
import WebMigration.Structure.Placement
import WebMigration.Structure.Plan
import WebMigration.Style.Sheet
import WebMigration.Syntax.Character
import WebMigration.Syntax.Dialect
import WebMigration.Syntax.Grammar.Declaration
import WebMigration.Syntax.Grammar.Expression
import WebMigration.Syntax.Grammar.Markup
import WebMigration.Syntax.Grammar.Module
import WebMigration.Syntax.Grammar.Pattern
import WebMigration.Syntax.Grammar.Statement
import WebMigration.Syntax.Grammar.TypeExpression
import WebMigration.Syntax.Kind
import WebMigration.Syntax.Lexeme
import WebMigration.Syntax.Offset
import WebMigration.Syntax.Piece
import WebMigration.Syntax.Reader
import WebMigration.Syntax.StatementEnd
import WebMigration.Syntax.Tree
import WebMigration.Text.Basic
import WebMigration.Text.Character
import WebMigration.Text.CharacterTables
import WebMigration.Text.Path
import WebMigration.Text.Pattern
import WebMigration.Text.Timestamp
import WebMigration.Text.Utf8
import WebMigration.Validation.Leftover
import WebMigration.Validation.Outcome
import WebMigration.Yaml.Cursor
import WebMigration.Yaml.Document
import WebMigration.Yaml.Implicit
import WebMigration.Yaml.Scalar

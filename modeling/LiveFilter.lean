import LiveFilter.Config
import LiveFilter.Entity.Basic
import LiveFilter.Entity.Schema
import LiveFilter.Entity.Value
import LiveFilter.Error
import LiveFilter.Expr.Basic
import LiveFilter.Expr.Operator
import LiveFilter.Interchange
import LiveFilter.Json.Basic
import LiveFilter.Json.Decode
import LiveFilter.Json.Printer
import LiveFilter.Json.Tree
import LiveFilter.Kind
import LiveFilter.Live.Evaluator
import LiveFilter.Live.Truth
import LiveFilter.Lowering
import LiveFilter.Numeric.Binary64
import LiveFilter.Numeric.Decimal
import LiveFilter.Path
import LiveFilter.Payload
import LiveFilter.Proofs.AssignedIdentifiers
import LiveFilter.Proofs.Comparable
import LiveFilter.Proofs.Complement
import LiveFilter.Proofs.Computed
import LiveFilter.Proofs.Conditions
import LiveFilter.Proofs.ContainsOperands
import LiveFilter.Proofs.Evaluation
import LiveFilter.Proofs.Failures
import LiveFilter.Proofs.Identifiers
import LiveFilter.Proofs.JsonScalars
import LiveFilter.Proofs.Keyed
import LiveFilter.Proofs.Mirrored
import LiveFilter.Proofs.Numeric.Exact
import LiveFilter.Proofs.Numeric.Nearest
import LiveFilter.Proofs.Numeric.Whole
import LiveFilter.Proofs.OppositeDifferences
import LiveFilter.Proofs.Outcome
import LiveFilter.Proofs.PathTexts
import LiveFilter.Proofs.Projection
import LiveFilter.Proofs.Registry.Account
import LiveFilter.Proofs.Registry.Admission
import LiveFilter.Proofs.Registry.Backlog
import LiveFilter.Proofs.Registry.ByType
import LiveFilter.Proofs.Registry.Changes
import LiveFilter.Proofs.Registry.Containment
import LiveFilter.Proofs.Registry.Delivery
import LiveFilter.Proofs.Registry.Index
import LiveFilter.Proofs.Registry.Isolation
import LiveFilter.Proofs.Registry.Lifecycle
import LiveFilter.Proofs.Registry.Publications
import LiveFilter.Proofs.Registry.Scan
import LiveFilter.Proofs.Registry.Selection
import LiveFilter.Proofs.Registry.StoreCalls
import LiveFilter.Proofs.Registry.View
import LiveFilter.Proofs.ResultKind
import LiveFilter.Proofs.Simulation
import LiveFilter.Proofs.Spans.Bounds
import LiveFilter.Proofs.Spans.Partition
import LiveFilter.Proofs.Spans.StrictOrder
import LiveFilter.Proofs.Spans.Touching
import LiveFilter.Proofs.Sql.Acceptance
import LiveFilter.Proofs.Sql.Agreement
import LiveFilter.Proofs.Sql.BoundTexts
import LiveFilter.Proofs.Sql.Discarded
import LiveFilter.Proofs.Sql.FieldTypes
import LiveFilter.Proofs.Sql.InstantColumns
import LiveFilter.Proofs.Sql.Kinds
import LiveFilter.Proofs.Sql.Leaves
import LiveFilter.Proofs.Sql.Literals
import LiveFilter.Proofs.Sql.MissingValues
import LiveFilter.Proofs.Sql.Numbering
import LiveFilter.Proofs.Sql.Placeholders
import LiveFilter.Proofs.Sql.Readability
import LiveFilter.Proofs.Sql.Reading
import LiveFilter.Proofs.Sql.Row
import LiveFilter.Proofs.Sql.Typing
import LiveFilter.Proofs.Subscription.Ancestry
import LiveFilter.Proofs.Subscription.DirectParent
import LiveFilter.Proofs.Subscription.Matching
import LiveFilter.Proofs.Subscription.Narrowing
import LiveFilter.Proofs.Subscription.OwnText
import LiveFilter.Proofs.Subscription.PropertyPayload
import LiveFilter.Proofs.Subscription.WellLinked
import LiveFilter.Proofs.Text.Digits
import LiveFilter.Proofs.Text.Quoted
import LiveFilter.Proofs.Time.Accepted
import LiveFilter.Proofs.Time.AcceptedDurations
import LiveFilter.Proofs.Time.Calendar
import LiveFilter.Proofs.Time.CanonicalDurations
import LiveFilter.Proofs.Time.Components
import LiveFilter.Proofs.Time.Differences
import LiveFilter.Proofs.Time.DurationRounding
import LiveFilter.Proofs.Time.DurationText
import LiveFilter.Proofs.Time.Fields
import LiveFilter.Proofs.Time.IntervalOrder
import LiveFilter.Proofs.Time.Line
import LiveFilter.Proofs.Time.Literals
import LiveFilter.Proofs.Time.Moves
import LiveFilter.Proofs.Unresolved
import LiveFilter.Registry.Basic
import LiveFilter.Registry.Channel
import LiveFilter.Registry.Dispatch
import LiveFilter.Registry.Keyed
import LiveFilter.Registry.Run
import LiveFilter.Rules.Arithmetic
import LiveFilter.Rules.Comparison
import LiveFilter.Rules.Operand
import LiveFilter.Sql.Column
import LiveFilter.Sql.Compiler
import LiveFilter.Sql.Condition
import LiveFilter.Subscription.Basic
import LiveFilter.Subscription.Scope
import LiveFilter.Subscription.Store
import LiveFilter.Text.Quoted
import LiveFilter.Time.Calendar
import LiveFilter.Time.Duration
import LiveFilter.Time.Instant
import LiveFilter.Time.Interval
import LiveFilter.Time.Timestamp

import RecordFilter.Atom
import RecordFilter.Calendar.Date
import RecordFilter.Calendar.Moment
import RecordFilter.Calendar.Reading
import RecordFilter.Calendar.Text
import RecordFilter.Calendar.TimeSpan
import RecordFilter.Category
import RecordFilter.Coercion
import RecordFilter.Command.Arguments
import RecordFilter.Command.Run
import RecordFilter.FieldPath
import RecordFilter.Filter.Basic
import RecordFilter.Filter.Compile
import RecordFilter.Json.Basic
import RecordFilter.Json.Decode
import RecordFilter.Json.Document
import RecordFilter.Json.Number
import RecordFilter.Json.Text
import RecordFilter.Json.Token
import RecordFilter.Main
import RecordFilter.Number.Binary
import RecordFilter.Number.Decimal
import RecordFilter.Number.Integer
import RecordFilter.Number.Power
import RecordFilter.Number.Shortest
import RecordFilter.Operator
import RecordFilter.Predicate
import RecordFilter.Proofs.Coercion.Category
import RecordFilter.Proofs.Filter.Build
import RecordFilter.Proofs.Filter.Meaning
import RecordFilter.Proofs.Filter.Tree
import RecordFilter.Proofs.Filter.Typing
import RecordFilter.Proofs.Outcome
import RecordFilter.Query.Execute
import RecordFilter.Query.Order
import RecordFilter.Query.Request
import RecordFilter.Raw
import RecordFilter.Record
import RecordFilter.Samples
import RecordFilter.Schema.Basic
import RecordFilter.Schema.Data
import RecordFilter.Schema.Registry
import RecordFilter.Settings
import RecordFilter.Text.Blank
import RecordFilter.Text.Digits
import RecordFilter.Text.Invisible
import RecordFilter.Text.Quoted
import RecordFilter.Text.Utf8
import RecordFilter.TypeExpr
import RecordFilter.Uuid
import RecordFilter.Value.Basic
import RecordFilter.Value.Data
import RecordFilter.Proofs.Order.Atom
import RecordFilter.Proofs.Order.Keys
import RecordFilter.Proofs.Query.StableSort
import RecordFilter.Proofs.Query.Pages
import RecordFilter.Proofs.Schema.Cache
import RecordFilter.Proofs.Schema.Visibility
import RecordFilter.Proofs.Filter.Active
import RecordFilter.Proofs.Filter.Reading
import RecordFilter.Proofs.Schema.Lookup
import RecordFilter.Proofs.Query.Related
import RecordFilter.Proofs.Query.Secrecy
import RecordFilter.Proofs.Schema.Growth
import RecordFilter.Proofs.Schema.History
import RecordFilter.Proofs.Text.Digits
import RecordFilter.Proofs.Calendar.TimeSpan
import RecordFilter.Proofs.Calendar.Reading
import RecordFilter.Proofs.Number.Reading
import RecordFilter.Proofs.Uuid
import RecordFilter.Proofs.Coercion.Canonical
import RecordFilter.Proofs.Json.Ordered
import RecordFilter.Proofs.Query.Wire
import RecordFilter.Proofs.Schema.Interleaving
import RecordFilter.Proofs.Schema.Truncation
import RecordFilter.Proofs.Command.Agreement
import RecordFilter.Proofs.Filter.Refusal
import RecordFilter.Proofs.Text.Pieces
import RecordFilter.Proofs.Filter.Sequence
import RecordFilter.Proofs.Filter.Comparison
import RecordFilter.Proofs.Calendar.SpanBounds
import RecordFilter.Proofs.Calendar.SpanGrammar
import RecordFilter.Proofs.Coercion.Kinds
import RecordFilter.Proofs.Coercion.Integers
import RecordFilter.Proofs.Coercion.Native
import RecordFilter.Proofs.Schema.Depth
import RecordFilter.Proofs.Schema.Identity
import RecordFilter.Proofs.Query.PageCount
import RecordFilter.Proofs.Text.Quoted
import RecordFilter.Proofs.Filter.Text
import RecordFilter.Proofs.Schema.Wire
import RecordFilter.Proofs.Settings
import RecordFilter.Proofs.Json.Text
import RecordFilter.Proofs.Command.Stages
import RecordFilter.Proofs.Calendar.LeapSecond

import EntityQuery.Calendar.Date
import EntityQuery.Calendar.Instant
import EntityQuery.Command.Answer
import EntityQuery.Command.Arguments
import EntityQuery.Command.Description
import EntityQuery.Command.Error
import EntityQuery.Command.Formula
import EntityQuery.Connection.Info
import EntityQuery.Connection.Pool
import EntityQuery.Digest.Sha256
import EntityQuery.Document.Basic
import EntityQuery.Document.Description
import EntityQuery.Document.Order
import EntityQuery.Document.Text
import EntityQuery.Document.Token
import EntityQuery.Document.Written
import EntityQuery.Evaluation.Arithmetic
import EntityQuery.Evaluation.Error
import EntityQuery.Evaluation.Expression
import EntityQuery.Evaluation.Function
import EntityQuery.Evaluation.Statement
import EntityQuery.Execution.Context
import EntityQuery.Execution.Cursor
import EntityQuery.Execution.Description
import EntityQuery.Execution.Event
import EntityQuery.Failure
import EntityQuery.Keyspace
import EntityQuery.Main
import EntityQuery.Model.Basic
import EntityQuery.Model.Description
import EntityQuery.Model.Issue
import EntityQuery.Model.Validation
import EntityQuery.Number.Basic
import EntityQuery.Number.Binary64
import EntityQuery.Number.Decimal
import EntityQuery.Number.Literal
import EntityQuery.Operator
import EntityQuery.Plan.Basic
import EntityQuery.Plan.Cache
import EntityQuery.Plan.Error
import EntityQuery.Plan.Explanation
import EntityQuery.Proofs.Computation
import EntityQuery.Proofs.Evaluation.Correspondence
import EntityQuery.Proofs.Evaluation.CorrespondingStatement
import EntityQuery.Proofs.Evaluation.Extension
import EntityQuery.Proofs.Evaluation.Ordering
import EntityQuery.Proofs.Evaluation.SafeStatement
import EntityQuery.Proofs.Evaluation.Safety
import EntityQuery.Proofs.Evaluation.Selection
import EntityQuery.Proofs.Plan.Binding
import EntityQuery.Proofs.Provider.Transparency
import EntityQuery.Proofs.Query.Form
import EntityQuery.Proofs.Query.Reader
import EntityQuery.Proofs.Query.Reading
import EntityQuery.Proofs.Translation.Agreement
import EntityQuery.Proofs.Translation.Aliases
import EntityQuery.Proofs.Translation.Closure
import EntityQuery.Proofs.Translation.Documents
import EntityQuery.Proofs.Translation.Expression
import EntityQuery.Proofs.Translation.Folding
import EntityQuery.Proofs.Translation.Form
import EntityQuery.Proofs.Translation.Frames
import EntityQuery.Proofs.Translation.Inputs
import EntityQuery.Proofs.Translation.Lowering
import EntityQuery.Proofs.Translation.Rebase
import EntityQuery.Proofs.Translation.Run
import EntityQuery.Proofs.Translation.Safety
import EntityQuery.Proofs.Translation.Similar
import EntityQuery.Proofs.Translation.Slots
import EntityQuery.Provider.Basic
import EntityQuery.Provider.Options
import EntityQuery.Provider.Session
import EntityQuery.Query.Basic
import EntityQuery.Query.Encoding
import EntityQuery.Query.EntitySet
import EntityQuery.Query.Error
import EntityQuery.Query.Formula
import EntityQuery.Result.Conversion
import EntityQuery.Result.Description
import EntityQuery.Result.Error
import EntityQuery.Result.Materialized
import EntityQuery.Result.Shape
import EntityQuery.Result.Tagged
import EntityQuery.Scalar.Basic
import EntityQuery.Scalar.Codec
import EntityQuery.Scalar.Description
import EntityQuery.Scalar.Registry
import EntityQuery.Scalar.Tagged
import EntityQuery.Scalar.Value
import EntityQuery.Statement.Basic
import EntityQuery.Statement.Description
import EntityQuery.Statement.Parameters
import EntityQuery.Statement.Text
import EntityQuery.Store.Collections
import EntityQuery.Store.Error
import EntityQuery.Store.Memory
import EntityQuery.Text.Base64
import EntityQuery.Text.Blank
import EntityQuery.Text.Case
import EntityQuery.Text.CaseTable
import EntityQuery.Text.Quoted
import EntityQuery.Text.Search
import EntityQuery.Text.VisibleTable
import EntityQuery.Translation.Error
import EntityQuery.Translation.Formula
import EntityQuery.Translation.Frame
import EntityQuery.Translation.FunctionTable
import EntityQuery.Translation.Query
import EntityQuery.Translation.Shape
import EntityQuery.Uuid
import EntityQuery.Proofs.Translation.Relocation
import EntityQuery.Proofs.Plan.Embedding
import EntityQuery.Proofs.Translation.Combining
import EntityQuery.Proofs.Translation.Projecting
import EntityQuery.Proofs.Translation.Counting
import EntityQuery.Proofs.Evaluation.Blocks
import EntityQuery.Proofs.Translation.Joining
import EntityQuery.Proofs.Translation.Elements
import EntityQuery.Proofs.Translation.Conformance
import EntityQuery.Proofs.Translation.Materializing
import EntityQuery.Proofs.Scalar.Representation
import EntityQuery.Proofs.Evaluation.Kinds
import EntityQuery.Proofs.Translation.Paths
import EntityQuery.Proofs.Translation.StaticTypes
import EntityQuery.Proofs.Translation.Ranges
import EntityQuery.Proofs.Evaluation.Definedness
import EntityQuery.Proofs.Translation.Nullability
import EntityQuery.Proofs.Translation.Typing
import EntityQuery.Proofs.Translation.ProjectedRows
import EntityQuery.Proofs.Query.Lengths
import EntityQuery.Proofs.Query.Relabeling
import EntityQuery.Proofs.Query.Exactness
import EntityQuery.Proofs.Translation.Values
import EntityQuery.Proofs.Translation.Placeholders
import EntityQuery.Proofs.Statement.Statements
import EntityQuery.Proofs.Scalar.RoundTrip
import EntityQuery.Proofs.Scalar.Order
import EntityQuery.Proofs.Document.Collation
import EntityQuery.Proofs.Translation.Paging
import EntityQuery.Proofs.Translation.Sorting
import EntityQuery.Proofs.Model.Lookups
import EntityQuery.Proofs.Translation.Correlating
import EntityQuery.Proofs.Translation.Reshaping
import EntityQuery.Proofs.Evaluation.RowCounts
import EntityQuery.Proofs.Translation.RowCounts
import EntityQuery.Proofs.Translation.Satisfying
import EntityQuery.Proofs.Execution.Streams
import EntityQuery.Proofs.Provider.Draining
import EntityQuery.Proofs.Provider.Exclusive
import EntityQuery.Proofs.Model.Ownership
import EntityQuery.Proofs.Model.Validity
import EntityQuery.Proofs.Translation.Expansion
import EntityQuery.Proofs.Provider.Lifecycle
import EntityQuery.Proofs.Plan.Planners
import EntityQuery.Proofs.Translation.FieldNames
import EntityQuery.Proofs.Model.Resolution
import EntityQuery.Proofs.Result.PropertyPaths
import EntityQuery.Proofs.Translation.TextTests
import EntityQuery.Proofs.Evaluation.Grouping
import EntityQuery.Proofs.Evaluation.Equality
import EntityQuery.Proofs.Translation.Membership
import EntityQuery.Proofs.Number.Content
import EntityQuery.Proofs.Number.Finiteness
import EntityQuery.Proofs.Evaluation.IntegerArithmetic
import EntityQuery.Proofs.Translation.Sums
import EntityQuery.Proofs.Scalar.Decoding
import EntityQuery.Proofs.Text.Patterns
import EntityQuery.Proofs.Translation.Comments
import EntityQuery.Proofs.Store.Isolation
import EntityQuery.Proofs.Connection.Authentication
import EntityQuery.Proofs.Translation.Nesting
import EntityQuery.Proofs.Translation.Hygiene
import EntityQuery.Proofs.Translation.ParameterCalls

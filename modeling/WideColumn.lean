import WideColumn.Cache.Basic
import WideColumn.Cache.Traffic
import WideColumn.Catalog.Basic
import WideColumn.Catalog.Entry
import WideColumn.Codec.Basic
import WideColumn.Collection.Sorted
import WideColumn.Collection.SortedMap
import WideColumn.Collection.SortedSet
import WideColumn.Config
import WideColumn.Dao.Basic
import WideColumn.Datum.Basic
import WideColumn.Datum.Literal
import WideColumn.Datum.Order
import WideColumn.Document.Basic
import WideColumn.Document.Config
import WideColumn.Document.Schema
import WideColumn.Document.Value
import WideColumn.Engine.Blocking
import WideColumn.Engine.Compile
import WideColumn.Engine.Concurrent
import WideColumn.Engine.Hooks
import WideColumn.Engine.Metadata
import WideColumn.Engine.Mutate
import WideColumn.Engine.Refresh
import WideColumn.Engine.Submit
import WideColumn.Engine.World
import WideColumn.Error
import WideColumn.Interceptor.Basic
import WideColumn.Interceptor.Constraints
import WideColumn.Number.Binary
import WideColumn.Number.Decimal
import WideColumn.Number.Duration
import WideColumn.Number.WallTime
import WideColumn.Plan.Basic
import WideColumn.Plan.Binder
import WideColumn.Plan.Fragments
import WideColumn.Plan.Mutation
import WideColumn.Plan.Read
import WideColumn.Plan.Write
import WideColumn.Proofs.Cache.Displaced
import WideColumn.Proofs.Cache.Evolves
import WideColumn.Proofs.Cache.Flights
import WideColumn.Proofs.Cache.Holds
import WideColumn.Proofs.Cache.Hub
import WideColumn.Proofs.Cache.Keyed
import WideColumn.Proofs.Cache.Order
import WideColumn.Proofs.Cache.Orderly
import WideColumn.Proofs.Cache.Recency
import WideColumn.Proofs.Cache.SingleFlight
import WideColumn.Proofs.Codec.RoundTrip
import WideColumn.Proofs.Codec.Timestamps
import WideColumn.Proofs.Collection.Commuting
import WideColumn.Proofs.Collection.SortedMap
import WideColumn.Proofs.Datum.Blank
import WideColumn.Proofs.Datum.Closed
import WideColumn.Proofs.Datum.Coincide
import WideColumn.Proofs.Datum.Collation
import WideColumn.Proofs.Datum.Conforms
import WideColumn.Proofs.Datum.Literal
import WideColumn.Proofs.Datum.Members
import WideColumn.Proofs.Engine.Actions
import WideColumn.Proofs.Engine.AfterDrop
import WideColumn.Proofs.Engine.Backed
import WideColumn.Proofs.Engine.Callers
import WideColumn.Proofs.Engine.Cascade
import WideColumn.Proofs.Engine.CascadeDepth
import WideColumn.Proofs.Engine.Concourse
import WideColumn.Proofs.Engine.CounterMoves
import WideColumn.Proofs.Engine.Course
import WideColumn.Proofs.Engine.Current
import WideColumn.Proofs.Engine.Develops
import WideColumn.Proofs.Engine.Due
import WideColumn.Proofs.Engine.Events
import WideColumn.Proofs.Engine.FailedCalls
import WideColumn.Proofs.Engine.Follows
import WideColumn.Proofs.Engine.Guarded
import WideColumn.Proofs.Engine.Homogeneous
import WideColumn.Proofs.Engine.Hooked
import WideColumn.Proofs.Engine.Keeps
import WideColumn.Proofs.Engine.Known
import WideColumn.Proofs.Engine.Mutating
import WideColumn.Proofs.Engine.OneRefresh
import WideColumn.Proofs.Engine.Paced
import WideColumn.Proofs.Engine.PreparedText
import WideColumn.Proofs.Engine.Quiet
import WideColumn.Proofs.Engine.Renewal
import WideColumn.Proofs.Engine.Reordered
import WideColumn.Proofs.Engine.Rereads
import WideColumn.Proofs.Engine.Resolution
import WideColumn.Proofs.Engine.Resolves
import WideColumn.Proofs.Engine.Run
import WideColumn.Proofs.Engine.Runs
import WideColumn.Proofs.Engine.Sent
import WideColumn.Proofs.Engine.Surfaces
import WideColumn.Proofs.Engine.TextKey
import WideColumn.Proofs.Engine.Tidy
import WideColumn.Proofs.Engine.Warm
import WideColumn.Proofs.Interceptor.Constraints
import WideColumn.Proofs.Interceptor.Gather
import WideColumn.Proofs.Outcome
import WideColumn.Proofs.Plan.Alike
import WideColumn.Proofs.Plan.Assignments
import WideColumn.Proofs.Plan.Binder
import WideColumn.Proofs.Plan.Checked
import WideColumn.Proofs.Plan.Defined
import WideColumn.Proofs.Plan.Fits
import WideColumn.Proofs.Plan.Folding
import WideColumn.Proofs.Plan.Fragments
import WideColumn.Proofs.Plan.Insertion
import WideColumn.Proofs.Plan.MapKeys
import WideColumn.Proofs.Plan.Overlap
import WideColumn.Proofs.Plan.PrimaryKey
import WideColumn.Proofs.Plan.Restrictions
import WideColumn.Proofs.Plan.Sequence
import WideColumn.Proofs.Record.Draws
import WideColumn.Proofs.Record.Fetch
import WideColumn.Proofs.Record.Reading
import WideColumn.Proofs.Record.Remaining
import WideColumn.Proofs.Record.Single
import WideColumn.Proofs.Schema.Identifier
import WideColumn.Proofs.Schema.Reach
import WideColumn.Proofs.Schema.TypeText
import WideColumn.Proofs.Spec.CallOrder
import WideColumn.Proofs.Statement.Clauses
import WideColumn.Proofs.Statement.Closed
import WideColumn.Proofs.Statement.Hollow
import WideColumn.Proofs.Statement.Markers
import WideColumn.Proofs.Statement.Parts
import WideColumn.Proofs.Statement.Pieces
import WideColumn.Proofs.Statement.Readback
import WideColumn.Proofs.Statement.Recorded
import WideColumn.Proofs.Statement.Row
import WideColumn.Proofs.Statement.Shape
import WideColumn.Proofs.Statement.Template
import WideColumn.Proofs.Statement.Values
import WideColumn.Proofs.Text.Delimited
import WideColumn.Proofs.Text.Digits
import WideColumn.Proofs.Text.Scan
import WideColumn.Proofs.Value.Collation
import WideColumn.Proofs.Value.Keys
import WideColumn.Record.Basic
import WideColumn.Record.Rows
import WideColumn.Scenario.Script
import WideColumn.Scenario.Session
import WideColumn.Scenario.Setting
import WideColumn.Schema.ColumnType
import WideColumn.Schema.Identifier
import WideColumn.Schema.Table
import WideColumn.Schema.TableName
import WideColumn.Schema.TypeText
import WideColumn.Spec.Clause
import WideColumn.Spec.Context
import WideColumn.Spec.Mutation
import WideColumn.Spec.Read
import WideColumn.Spec.Specification
import WideColumn.Spec.Write
import WideColumn.Statement.Basic
import WideColumn.Statement.Batch
import WideColumn.Statement.Compiled
import WideColumn.Statement.Guard
import WideColumn.Statement.Text
import WideColumn.Store.Basic
import WideColumn.Store.Page
import WideColumn.Store.Request
import WideColumn.Text.Blank
import WideColumn.Text.Extender
import WideColumn.Text.Hex
import WideColumn.Text.Quoted
import WideColumn.Text.Ranges
import WideColumn.Text.Shown
import WideColumn.Text.Unseen
import WideColumn.Value.Basic
import WideColumn.Value.Key
import WideColumn.Value.Order
import WideColumn.Value.Uuid

import SearchIndex.Calendar.Date
import SearchIndex.Calendar.Instant
import SearchIndex.Calendar.Timestamp
import SearchIndex.Clause
import SearchIndex.Cluster
import SearchIndex.Cluster.Bus
import SearchIndex.Cluster.Channel
import SearchIndex.Cluster.Envelope
import SearchIndex.Cluster.Link
import SearchIndex.Cluster.Node
import SearchIndex.Condition
import SearchIndex.Decimal.Binary
import SearchIndex.Decimal.Thousandths
import SearchIndex.Entity
import SearchIndex.Expression
import SearchIndex.Failure
import SearchIndex.Fields
import SearchIndex.Indexing.Event
import SearchIndex.Indexing.Notice
import SearchIndex.Indexing.Planner
import SearchIndex.Indexing.Priority
import SearchIndex.Indexing.RequestContext
import SearchIndex.Indexing.Store
import SearchIndex.Indexing.Task
import SearchIndex.Json.Reader
import SearchIndex.Json.Record
import SearchIndex.Json.Token
import SearchIndex.Json.Value
import SearchIndex.Json.Writer
import SearchIndex.Level
import SearchIndex.NodeId
import SearchIndex.Paging.Cursor
import SearchIndex.Paging.Engine
import SearchIndex.Paging.Hit
import SearchIndex.Restriction.Basic
import SearchIndex.Restriction.Compiled
import SearchIndex.Restriction.Group
import SearchIndex.Restriction.Meaning
import SearchIndex.ScopedQuery
import SearchIndex.Settings
import SearchIndex.Term
import SearchIndex.Text.Blank
import SearchIndex.Text.Escape
import SearchIndex.Text.Hexadecimal
import SearchIndex.Text.Letters
import SearchIndex.Text.Numeral
import SearchIndex.Wire.Basic
import SearchIndex.Wire.Entity
import SearchIndex.Wire.Event
import SearchIndex.Proofs.Restriction.Built
import SearchIndex.Proofs.Restriction.Meaning
import SearchIndex.Proofs.Clause.Exact
import SearchIndex.Proofs.Restriction.Group
import SearchIndex.Proofs.ScopedQuery
import SearchIndex.Proofs.Text.Phrase
import SearchIndex.Proofs.Clause.Containment
import SearchIndex.Proofs.Expression.Grammar
import SearchIndex.Proofs.Text.Symbols
import SearchIndex.Proofs.Expression.Distinct
import SearchIndex.Proofs.Restriction.RawText
import SearchIndex.Proofs.Clause.Atom
import SearchIndex.Proofs.Indexing.Batch
import SearchIndex.Proofs.Indexing.Identity
import SearchIndex.Proofs.Cluster.Course
import SearchIndex.Proofs.Indexing.Requests
import SearchIndex.Proofs.Paging.Cursor
import SearchIndex.Proofs.Json.Parse
import SearchIndex.Proofs.Json.Record
import SearchIndex.Proofs.Calendar.Date
import SearchIndex.Proofs.Calendar.Timestamp
import SearchIndex.Proofs.Wire.Faithful
import SearchIndex.Proofs.Cluster.Run
import SearchIndex.Proofs.Cluster.Members
import SearchIndex.Proofs.Cluster.Delivery
import SearchIndex.Proofs.Restriction.Normal
import SearchIndex.Proofs.Calendar.Reading
import SearchIndex.Proofs.NodeId
import SearchIndex.Proofs.Wire.RoundTrip
import SearchIndex.Proofs.Wire.Settings
import SearchIndex.Proofs.Cluster.Session
import SearchIndex.Proofs.Cluster.Accounts
import SearchIndex.Proofs.Cluster.Independence
import SearchIndex.Proofs.Cluster.Interleaving
import SearchIndex.Proofs.Restriction.Bare
import SearchIndex.Proofs.Indexing.Table
import SearchIndex.Proofs.Indexing.Events
import SearchIndex.Proofs.Indexing.Paths
import SearchIndex.Proofs.Clause.Whole
import SearchIndex.Proofs.Paging.Replies
import SearchIndex.Proofs.Paging.Failures
import SearchIndex.Proofs.Paging.Unchanged
import SearchIndex.Proofs.Paging.Pages
import SearchIndex.Proofs.Term.Spans
import SearchIndex.Proofs.Term.Description
import SearchIndex.Proofs.Clause.Blank
import SearchIndex.Proofs.Restriction.Blank
import SearchIndex.Proofs.Clause.Words
import SearchIndex.Proofs.Restriction.Equality
import SearchIndex.Proofs.Restriction.OrderedSet
import SearchIndex.Proofs.Clause.Bound
import SearchIndex.Proofs.Clause.Range
import SearchIndex.Proofs.Decimal.Order
import SearchIndex.Proofs.Decimal.Numeral
import SearchIndex.Proofs.Decimal.Rounding
import SearchIndex.Proofs.Decimal.Written
import SearchIndex.Proofs.Paging.Hit
import SearchIndex.Proofs.Restriction.Congruence
import SearchIndex.Proofs.Text.Digits
import SearchIndex.Proofs.Calendar.Order
import SearchIndex.Proofs.Calendar.Stamp
import SearchIndex.Proofs.Clause.Span

import SpanStore.Response.Buckets
import SpanStore.Store.Storage
import SpanStore.Proofs.Once.Handle
import SpanStore.Proofs.Once.Schedule
import SpanStore.Proofs.Once.OnceOnly
import SpanStore.Proofs.Once.History
import SpanStore.Proofs.Once.Waiters
import SpanStore.Proofs.Bulk.Addition
import SpanStore.Proofs.Bulk.Pairing
import SpanStore.Proofs.Json.Grammar
import SpanStore.Proofs.Number.Rounding
import SpanStore.Proofs.Number.Finite
import SpanStore.Proofs.Json.Tree
import SpanStore.Proofs.Json.Spelling
import SpanStore.Proofs.Json.StringLexing
import SpanStore.Proofs.Json.NumberLexing
import SpanStore.Proofs.Json.Reading
import SpanStore.Proofs.Json.Place
import SpanStore.Proofs.Response.Documents
import SpanStore.Proofs.Response.Streaming
import SpanStore.Proofs.Http.Exchange
import SpanStore.Proofs.Store.Gate
import SpanStore.Proofs.Store.Guard
import SpanStore.Proofs.Store.Preparation
import SpanStore.Proofs.Store.Bootstrap
import SpanStore.Proofs.Http.Reach
import SpanStore.Proofs.Store.Attempt
import SpanStore.Proofs.Store.Assurance
import SpanStore.Proofs.Json.Exact
import SpanStore.Proofs.Json.Printing
import SpanStore.Proofs.Bulk.Lines
import SpanStore.Proofs.Response.RoundTrip
import SpanStore.Proofs.Text.Percent
import SpanStore.Proofs.Http.Target
import SpanStore.Proofs.Bulk.Framing
import SpanStore.Proofs.Bulk.Report
import SpanStore.Proofs.Json.Nesting
import SpanStore.Proofs.Json.Growth
import SpanStore.Proofs.Json.LastBrace
import SpanStore.Proofs.Response.Truncation
import SpanStore.Proofs.Calendar.Midnight
import SpanStore.Proofs.Calendar.DateText
import SpanStore.Proofs.Calendar.Naming
import SpanStore.Proofs.Calendar.Range
import SpanStore.Proofs.Http.Closed
import SpanStore.Proofs.Http.Submission
import SpanStore.Proofs.Store.Visit
import SpanStore.Proofs.Store.Closing
import SpanStore.Proofs.Http.Outcome
import SpanStore.Proofs.Json.Undecodable
import SpanStore.Proofs.Response.Refusal
import SpanStore.Proofs.Response.Validity
import SpanStore.Proofs.Json.Trail
import SpanStore.Proofs.Response.Disguise
import SpanStore.Proofs.Bulk.Sending
import SpanStore.Proofs.Ordered
import SpanStore.Proofs.Number.ReadBack
import SpanStore.Proofs.Number.Shortest
import SpanStore.Proofs.Json.NumberText
import SpanStore.Proofs.Json.WellFormed
import SpanStore.Proofs.Bulk.WellFormed
import SpanStore.Proofs.Search.Naming
import SpanStore.Proofs.Response.Aggregations
import SpanStore.Proofs.Distinct
import SpanStore.Proofs.Traversal
import SpanStore.Proofs.Text.Split
import SpanStore.Proofs.Net.Endpoints
import SpanStore.Proofs.Net.Malformed
import SpanStore.Proofs.Store.Hosts
import SpanStore.Proofs.Net.Resolution
import SpanStore.Proofs.Net.Nodes
import SpanStore.Proofs.Calendar.RangeEnds
import SpanStore.Proofs.Store.Settings
import SpanStore.Proofs.Store.Health
import SpanStore.Proofs.Calendar.Pattern
import SpanStore.Proofs.Json.Indented
import SpanStore.Proofs.Json.Unambiguous
import SpanStore.Proofs.Template.Rendering
import SpanStore.Proofs.Store.Pattern
import SpanStore.Proofs.Search.Changes
import SpanStore.Proofs.Text.Preview
import SpanStore.Proofs.Net.Groups
import SpanStore.Proofs.Net.AddressText
import SpanStore.Proofs.Text.Lower
import SpanStore.Proofs.Net.Host
import SpanStore.Proofs.Net.UrlParts
import SpanStore.Proofs.Net.EndpointUrl

import ContentApproval.Transactions.Program
import ContentApproval.Transactions.World
import ContentApproval.Transactions.RelyGuarantee
import ContentApproval.Transactions.Sequential
import ContentApproval.Transactions.Progress
import ContentApproval.Transactions.Relational
import ContentApproval.Transactions.Exchanges
import ContentApproval.Transactions.Limited
import ContentApproval.Transactions.Connection
import ContentApproval.Json.Canonical
import ContentApproval.Json.Texts
import ContentApproval.Json.Strict
import ContentApproval.Json.Hidden
import ContentApproval.Json.Dict
import ContentApproval.Json.Line
import ContentApproval.Encoding.Base64
import ContentApproval.Encoding.Trim
import ContentApproval.Encoding.Unicode
import ContentApproval.Json.Ascii
import ContentApproval.Json.Reader
import ContentApproval.Json.Nesting
import ContentApproval.Json.Reading
import ContentApproval.Time.Instant
import ContentApproval.Domain.Entities
import ContentApproval.Schemas.ApprovalRequest
import ContentApproval.Db.Models
import ContentApproval.Db.Statements
import ContentApproval.Db.Domains
import ContentApproval.Db.Session
import ContentApproval.Db.Repository
import ContentApproval.Domain.Service
import ContentApproval.Auth.Dependencies
import ContentApproval.Auth.Stub
import ContentApproval.Api.Idempotency
import ContentApproval.Api.ApprovalRequests
import ContentApproval.Api.Errors
import ContentApproval.Observability.Redaction
import ContentApproval.Observability.Logging
import ContentApproval.Api.Problems
import ContentApproval.Schemas.Values
import ContentApproval.Api.Http
import ContentApproval.Observability.Middleware
import ContentApproval.Registry.Cases
import ContentApproval.Registry.Refinement
import ContentApproval.Registry.Ledger
import ContentApproval.Specs.Evolution
import ContentApproval.Specs.Repository
import ContentApproval.Specs.Service
import ContentApproval.Specs.Endpoints
import ContentApproval.Specs.Contract
import ContentApproval.Specs.Programs
import ContentApproval.Specs.Termination
import ContentApproval.Specs.Locality
import ContentApproval.Specs.FreeText
import ContentApproval.Specs.Exchanges
import ContentApproval.Specs.Pages
import ContentApproval.Specs.Emissions
import ContentApproval.Specs.Validation
import ContentApproval.Specs.Undisturbed
import ContentApproval.Specs.Served
import ContentApproval.Specs.Bindings
import ContentApproval.Specs.Authenticate
import ContentApproval.Specs.Values
import ContentApproval.Specs.Agreement
import ContentApproval.Specs.Payloads
import ContentApproval.Specs.Http
import ContentApproval.Properties.Finality
import ContentApproval.Properties.Authorization
import ContentApproval.Properties.OneWinner
import ContentApproval.Properties.AtMostOnce
import ContentApproval.Properties.Acknowledged
import ContentApproval.Properties.Trail
import ContentApproval.Properties.LedgerAgreement
import ContentApproval.Properties.Isolation
import ContentApproval.Properties.Atomicity
import ContentApproval.Properties.FreeText
import ContentApproval.Properties.WellFormed
import ContentApproval.Properties.Pagination
import ContentApproval.Properties.ListedState
import ContentApproval.Properties.HiddenInputs
import ContentApproval.Properties.Renderable
import ContentApproval.Properties.ReadBack
import ContentApproval.Properties.LogIdentity
import ContentApproval.Properties.Correlation
import ContentApproval.Properties.Storable
import ContentApproval.Properties.Replay
import ContentApproval.Properties.Credentials
import ContentApproval.Properties.Tokens
import ContentApproval.Properties.Normalization
import ContentApproval.Properties.Fingerprints
import ContentApproval.Properties.Completion
import ContentApproval.Properties.Serializable
import ContentApproval.Properties.Refinement
import ContentApproval.Properties.Refusals
import ContentApproval.Properties.ExactlyOnce
import ContentApproval.Properties.LogStream
import ContentApproval.Properties.Seclusion
import ContentApproval.Properties.Outbox

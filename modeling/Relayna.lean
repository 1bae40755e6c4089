import Relayna.Accessa.TurnAdmission
import Relayna.Auth.Authenticator
import Relayna.Auth.CacheHistory
import Relayna.Auth.EntraClaims
import Relayna.Auth.Flights
import Relayna.Auth.KeySet
import Relayna.Auth.SingleFlight
import Relayna.Auth.Soundness
import Relayna.Auth.SourceAdmission
import Relayna.Auth.SourceRate
import Relayna.Auth.VerificationCache
import Relayna.BodyAdmission.Controller
import Relayna.BodyAdmission.Forwarding
import Relayna.BodyAdmission.LeaseSteps
import Relayna.BodyAdmission.Ledger
import Relayna.BodyAdmission.Rollback
import Relayna.BodyAdmission.SmallReserve
import Relayna.BodyAdmission.Upgrades
import Relayna.BodyRewrite.Rewriter
import Relayna.BodyRewrite.Serialization
import Relayna.Budget.Oversubscription
import Relayna.Budget.RequestAdmission
import Relayna.Budget.Reservations
import Relayna.Budget.Scripts
import Relayna.Budget.Settlement
import Relayna.Common
import Relayna.Foundry.Safety
import Relayna.Foundry.TokenCache
import Relayna.FrontDoor.Replicas
import Relayna.FrontDoor.Settings
import Relayna.Guardrails.Items
import Relayna.Guardrails.JsonRedaction
import Relayna.Guardrails.Plan
import Relayna.Guardrails.Redaction
import Relayna.Guardrails.Residue
import Relayna.Guardrails.ResponseFilter
import Relayna.Guardrails.Restoration
import Relayna.Guardrails.Streaming
import Relayna.Library.Allowlist
import Relayna.Library.Attempt
import Relayna.Library.BoundedLog
import Relayna.Library.Calendar
import Relayna.Library.ExpiringCounters
import Relayna.Library.ExpiringQueue
import Relayna.Library.Feeding
import Relayna.Library.Framing
import Relayna.Library.GrowingBuffer
import Relayna.Library.HeaderMap
import Relayna.Library.Histogram
import Relayna.Library.Holes
import Relayna.Library.Json.Decimal
import Relayna.Library.Json.Grammar
import Relayna.Library.Json.Parts
import Relayna.Library.Json.Reader
import Relayna.Library.Json.Text
import Relayna.Library.Json.Writer
import Relayna.Library.KeyedSum
import Relayna.Library.Keyset
import Relayna.Library.LastMax
import Relayna.Library.Leaves
import Relayna.Library.MachineWord
import Relayna.Library.PathRewriting
import Relayna.Library.Placeholders
import Relayna.Library.ReferenceCounts
import Relayna.Library.RollingWindow
import Relayna.Library.RunRewriting
import Relayna.Library.Staged
import Relayna.Library.Succession
import Relayna.Library.Table
import Relayna.Library.ThrottledCache
import Relayna.Library.TokenBucket
import Relayna.Library.Transition
import Relayna.Library.Truncation
import Relayna.Library.Utf8
import Relayna.Library.VersionedRegister
import Relayna.Library.Words
import Relayna.Limits.Connections
import Relayna.Limits.RateLimits
import Relayna.Operators.OneToken
import Relayna.Operators.Tokens
import Relayna.Passthrough.PathPolicy
import Relayna.Policy.InputLimit
import Relayna.Policy.KeyPolicy
import Relayna.Policy.Layers
import Relayna.Policy.OutputCap
import Relayna.Policy.RequestCheck
import Relayna.Policy.TokenEstimate
import Relayna.Portal.Login
import Relayna.Portal.OwnLogin
import Relayna.Portal.Rights
import Relayna.Portal.Store
import Relayna.Pricing.Decimals
import Relayna.Pricing.Endpoints
import Relayna.Pricing.RuleOrder
import Relayna.Pricing.RuleSync
import Relayna.Pricing.Services
import Relayna.Proxy.Accounting
import Relayna.Proxy.Agreement
import Relayna.Proxy.Authorization
import Relayna.Proxy.Credentials
import Relayna.Proxy.Lifecycle
import Relayna.Proxy.Rejections
import Relayna.Proxy.RequestFilter
import Relayna.Proxy.RequestTiming
import Relayna.Proxy.UpstreamHeaders
import Relayna.ResponseCost.Acceptance
import Relayna.ResponseCost.Bounds
import Relayna.ResponseCost.LongLiterals
import Relayna.ResponseCost.Nesting
import Relayna.ResponseCost.Observer
import Relayna.ResponseCost.Reading
import Relayna.ResponseCost.Scalars
import Relayna.ResponseCost.Strings
import Relayna.ResponseCost.Tally
import Relayna.ResponseCost.WholeBody
import Relayna.Runtime.Balance
import Relayna.Runtime.Cluster
import Relayna.Runtime.Histogram
import Relayna.Runtime.Metrics
import Relayna.Runtime.Samples
import Relayna.Services.Names
import Relayna.Services.Routing
import Relayna.Socket.FrameLimit
import Relayna.Socket.LegalStream
import Relayna.Traffic.Gauges
import Relayna.Traffic.Journal
import Relayna.Traffic.Monitor
import Relayna.Traffic.RowDocument
import Relayna.Traffic.RowSizes
import Relayna.Traffic.Rows
import Relayna.Traffic.Snapshot
import Relayna.Usage.BudgetCharges
import Relayna.Usage.Cursor
import Relayna.Usage.Ledger
import Relayna.Usage.Paging
import Relayna.Usage.Preflight
import Relayna.Usage.Recording
import Relayna.Usage.Repricing
import Relayna.Usage.Tokens

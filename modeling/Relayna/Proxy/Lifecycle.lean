import Relayna.Budget.Settlement
import Relayna.Policy.KeyPolicy
import Relayna.Usage.Ledger

/-!
# The callbacks of one request

`crates/gateway-proxy/src/pingora_plane.rs`: a request goes through `request_filter`,
`proxy_upstream_filter`, `upstream_peer`, the connection, `request_body_filter` with the admission
of the complete body and the binding of its lease, the filters of the response, and `logging`. An
attempt that fails is repeated or ends with `fail_to_proxy`. The budget is reserved in
`proxy_upstream_filter` when the request has no body or is streamed to a service, in
`admit_complete_body` when it is buffered, and in `admit_websocket` for a socket.

The gateway rejects a request in three ways. It calls `record_terminal_usage`, which writes the
usage event and releases the reservation; it sets `guardrail_error`, and `logging` writes the event;
or it only answers, as `fail_to_proxy` does for an upstream that cannot be reached, and `logging`
writes the event as for a request that went through.

What the callbacks ask (policies, rates, leases, the stores of other services, the upstream) is an
input of the model: every check has some answer. The budget store is that of `Budget.Scripts`, with
the calls of other requests between the callbacks and a network that may lose the commands of the
request. Each callback acts in its phase and is otherwise skipped.
-/

set_option autoImplicit false
set_option relaxedAutoImplicit false

namespace Relayna.Proxy

open Relayna.Budget Relayna.Budget.Scripts Relayna.Budget.Reservations
open Relayna.Budget.RequestAdmission (Request Surroundings Fate admitRequestBudget)
open Relayna.Budget.Settlement (committedSpend admissionSpend)
open Relayna.Policy (Provider)
open Relayna.Usage (DateTime)

/-! ### The context -/

/-- The price of a request to a service: `resolved_service_cost`. -/
inductive ServicePrice
  | free
  | fixed (amount : Option ℚ≥0)
  | passthrough
  deriving DecidableEq

/-- What the accounting reads of `RouteMatch`. -/
structure RouteMatch where
  provider : Provider
  estimatedCost : Option ℚ≥0

/-- How a request is passed through to LiteLLM: with a Relayna key (`litellm_passthrough`), with the
credential of the caller (`direct_litellm_passthrough`), or from a trusted ingress. -/
inductive Passthrough
  | none
  | relaynaKey
  | direct
  | trustedIngress
  deriving DecidableEq

/-- What the accounting reads of `PingoraContext`. -/
structure Context where
  route : Bool
  key : Bool
  routeMatch : Option RouteMatch
  socket : Bool
  accessa : Bool
  passthrough : Passthrough
  foundry : Bool
  bodyEmpty : Bool
  bodyBytesSeen : ℕ
  canStream : Bool
  serviceCost : Option ServicePrice
  responseCost : Option ℚ≥0
  guardrailError : Bool
  upstreamLease : Bool
  budgetReserved : Bool
  budgetReservedAt : Option DateTime
  terminalUsageRecorded : Bool

def Context.new : Context where
  route := false
  key := false
  routeMatch := none
  socket := false
  accessa := false
  passthrough := .none
  foundry := false
  bodyEmpty := false
  bodyBytesSeen := 0
  canStream := false
  serviceCost := none
  responseCost := none
  guardrailError := false
  upstreamLease := false
  budgetReserved := false
  budgetReservedAt := none
  terminalUsageRecorded := false

/-- The cost in `resolved_usage_cost`. `responseCost` is the cost that was found in what the
upstream has answered so far. -/
def Context.usageCost (ctx : Context) : Option ℚ≥0 :=
  if ctx.socket ∨ ctx.passthrough ≠ .none ∨ ctx.accessa then none
  else
    match ctx.serviceCost with
    | some .free => none
    | some (.fixed amount) => amount
    | some .passthrough => ctx.responseCost
    | none => ctx.responseCost.or (ctx.routeMatch.bind RouteMatch.estimatedCost)

/-- The cost that `logging` records. -/
def Context.estimatedCost (ctx : Context) : Option ℚ≥0 :=
  if !ctx.budgetReserved && ctx.guardrailError then none else ctx.usageCost

/-- What a pricing stage finds for a service: the price, and the cost that is reserved for it. -/
structure Pricing where
  price : ServicePrice
  estimatedCost : Option ℚ≥0

/-- `prepare_service_cost_for_ctx` and `resolve_service_cost_for_ctx`, which leave requests to other
providers alone. -/
def Context.priced (ctx : Context) (pricing : Pricing) : Context :=
  match ctx.routeMatch with
  | none => ctx
  | some matched =>
    if matched.provider = .internalService then
      { ctx with
        routeMatch := some { matched with estimatedCost := pricing.estimatedCost }
        serviceCost := some pricing.price }
    else ctx

/-! ### Errors of the proxy -/

/-- Where an error comes from. -/
inductive ErrorSource
  | upstream
  | downstream
  | internal
  | unset
  deriving DecidableEq

/-- The types of errors that are told apart. -/
inductive ErrorType
  | connectTimedout
  | tlsHandshakeTimedout
  | readTimedout
  | writeTimedout
  | readError
  | writeError
  | connectionClosed
  | httpStatus (code : ℕ)
  | other
  deriving DecidableEq

/-- An error that ends an attempt. -/
structure PingoraError where
  source : ErrorSource
  etype : ErrorType
  deriving DecidableEq

def isUpstreamTimeoutError (error : PingoraError) : Bool :=
  decide (error.source = .upstream) &&
    match error.etype with
    | .connectTimedout | .tlsHandshakeTimedout | .readTimedout | .writeTimedout => true
    | _ => false

def defaultProxyFailureStatus (error : PingoraError) : ℕ :=
  match error.etype with
  | .httpStatus code => code
  | etype =>
    match error.source with
    | .upstream => 502
    | .downstream =>
      match etype with
      | .writeError | .readError | .connectionClosed => 0
      | _ => 400
    | .internal | .unset => 500

/-! ### The state of a request -/

/-- What comes next for a request. -/
inductive Phase
  | requestFilter
  | proxyUpstreamFilter
  | upstreamPeer
  | connecting
  | requestBody
  | completeBody
  | binding
  | failed (error : PingoraError)
  | ended
  | logged
  deriving DecidableEq

/-- A usage event, as to its cost. -/
structure UsageRecord where
  estimatedCost : Option ℚ≥0
  createdAt : DateTime
  deriving DecidableEq

def UsageRecord.cost (event : UsageRecord) : ℚ :=
  ((event.estimatedCost.getD 0 : ℚ≥0) : ℚ)

/-- A request, the budget store, and what the request has done: the events it has inserted, and in
`charged` what its budget calls have added to the committed counters. The seed of a rehydration is
not among them: it raises a counter to what the ledger has. `handed` says that an upstream has been
handed a body, and `rejected` that the gateway has rejected the request before that. -/
structure State where
  phase : Phase
  ctx : Context
  world : World
  events : List UsageRecord
  charged : CounterKey → ℚ
  handed : Bool
  rejected : Bool

def State.new (world : World) : State where
  phase := .requestFilter
  ctx := .new
  world := world
  events := []
  charged := fun _ ↦ 0
  handed := false
  rejected := false

/-- Who makes the budget calls of a request. `reservationId` is a fresh UUID of the request, and
`candidate` the epoch with which its replica arms itself when it has none. -/
structure Ticket where
  replica : ℕ
  candidate : String
  keyId : Uuid
  reservationId : String

/-- The key of the reservation of a request. -/
def Ticket.key (ticket : Ticket) : Uuid × String :=
  (ticket.keyId, ticket.reservationId)

/-- What an admission asks for and meets on its way. -/
structure AdmissionAnswers where
  dailyLimit : Option ℚ
  monthlyLimit : Option ℚ
  surroundings : Surroundings

def Ticket.request (ticket : Ticket) (answers : AdmissionAnswers) (amount : ℚ) (now : DateTime) :
    Request where
  replica := ticket.replica
  keyId := ticket.keyId
  reservationId := ticket.reservationId
  amount := amount
  dailyLimit := answers.dailyLimit
  monthlyLimit := answers.monthlyLimit
  now := now.date

/-- The amount that a request reserves. -/
def Context.amount (ctx : Context) : ℚ :=
  ((ctx.routeMatch.bind RouteMatch.estimatedCost).getD 0 : ℚ≥0)

variable (ticket : Ticket)

/-- An admission by `admit_request_budget`, which the context remembers when it was allowed. -/
def State.admitted (state : State) (answers : AdmissionAnswers) (amount : ℚ) (now : DateTime) :
    Bool × State :=
  let request := ticket.request answers amount now
  let result := admitRequestBudget request answers.surroundings state.world
  let served : State := { state with
    world := result.2
    charged := fun counter ↦ state.charged counter +
      admissionSpend request answers.surroundings state.world counter }
  match result.1 with
  | some (.allowed _) =>
    (true, { served with
      ctx := { state.ctx with budgetReserved := true, budgetReservedAt := some now } })
  | _ => (false, served)

/-- The request whose reservation a call closes. -/
def Ticket.closing (ticket : Ticket) (now : DateTime) : Request where
  replica := ticket.replica
  keyId := ticket.keyId
  reservationId := ticket.reservationId
  amount := 0
  dailyLimit := none
  monthlyLimit := none
  now := now.date

/-- The budget call at the end of a request, before which a replica without an epoch arms itself.
Nothing is called where there is neither a reservation nor a cost. -/
def Ticket.settle (ticket : Ticket) (budgetReserved : Bool) (cost : Option ℚ≥0) (now : DateTime)
    (world : World) : World :=
  if !budgetReserved && cost.isNone then world
  else
    RequestAdmission.settle (ticket.closing now) budgetReserved cost now.date
      (step world (.arm ticket.replica ticket.candidate))

/-- The budget call at the end of a request, and what the network does with it. -/
def State.settled (state : State) (fate : Fate) (cost : Option ℚ≥0) (now : DateTime) : State :=
  let world := fate.outcome state.world
    (ticket.settle state.ctx.budgetReserved cost now state.world)
  { state with
    world := world
    charged := fun counter ↦
      state.charged counter + (committedSpend world counter - committedSpend state.world counter) }

/-- `record_terminal_usage`. It does not look at what becomes of its release. -/
def State.recordTerminalUsage (state : State) (release : Fate) (now : DateTime) : State :=
  if state.ctx.terminalUsageRecorded then state
  else
    let settled := state.settled ticket release none now
    { settled with
      events := settled.events ++ [⟨none, now⟩]
      ctx := { settled.ctx with terminalUsageRecorded := true } }

/-- The gateway answers a request itself, and nothing more is done for it than its logging. -/
def State.answered (state : State) : State :=
  { state with phase := .ended, rejected := state.rejected || !state.handed }

/-- A rejection that is recorded in `guardrail_error`, with which `fail_to_proxy` answers if nothing
has yet. -/
def State.refused (state : State) : State :=
  { state with ctx := { state.ctx with guardrailError := true } }.answered

/-- A rejection that is recorded by `record_terminal_usage`. -/
def State.denied (state : State) (release : Fate) (now : DateTime) : State :=
  (state.recordTerminalUsage ticket release now).answered

/-- A request that goes on. -/
def State.onward (state : State) (phase : Phase) : State :=
  { state with phase := phase }

/-! ### `request_filter` -/

/-- What `request_filter` decides. A request that it rejects has no route match; the key and the
route may be known by then. -/
inductive FilterOutcome
  | rejected (route key : Bool)
  | accepted (matched : RouteMatch) (key socket accessa : Bool) (passthrough : Passthrough)
      (foundry : Bool)

def requestFilter (state : State) : FilterOutcome → State
  | .rejected route key =>
    { state with ctx := { state.ctx with route := route, key := key } }.answered
  | .accepted matched key socket accessa passthrough foundry =>
    { state with ctx := { state.ctx with
        route := true
        key := key
        routeMatch := some matched
        socket := socket
        accessa := accessa
        passthrough := passthrough
        foundry := foundry } }.onward .proxyUpstreamFilter

/-! ### `proxy_upstream_filter` -/

/-- The checks of a governed request before its budget, in their order. -/
inductive Check
  | effectivePolicy
  | evaluatePolicy
  | evaluatePolicyLimits
  | completeRequestPolicy
  | requestRateLimit
  | tokenRateLimit
  deriving DecidableEq

/-- The checks that a request undergoes: that of the complete policy only without a body, and that
of the token rate only where the budget is reserved. -/
def Check.applies (bodyEmpty reserves : Bool) : Check → Bool
  | .completeRequestPolicy => bodyEmpty
  | .tokenRateLimit => reserves
  | _ => true

/-- The checks in their order. -/
def Check.all : List Check :=
  [.effectivePolicy, .evaluatePolicy, .evaluatePolicyLimits, .completeRequestPolicy,
    .requestRateLimit, .tokenRateLimit]

/-- What `proxy_upstream_filter` is answered, and what the network does with the release of a
rejection. -/
structure UpstreamFilterAnswers where
  upstream : Bool
  socketChecks : Bool
  socketCapacity : Bool
  accessaAdmission : Bool
  canonicalRoute : Bool
  delegated : Bool
  outputTokenLimit : Bool
  prepared : Pricing
  resolved : Pricing
  bodyEmpty : Bool
  canStream : Bool
  checks : Check → Bool
  admission : AdmissionAnswers
  foundryToken : Bool
  release : Fate
  now : DateTime

/-- The context once its price is prepared, which for a request without a body is the final price.
-/
def UpstreamFilterAnswers.priced (answers : UpstreamFilterAnswers) (ctx : Context) : Context :=
  let prepared := ctx.priced answers.prepared
  { (if answers.bodyEmpty then prepared.priced answers.resolved else prepared) with
    bodyEmpty := answers.bodyEmpty }

/-- `admit_websocket`: a caller with its own credential has no key and no budget. -/
def admitWebsocket (answers : UpstreamFilterAnswers) (state : State) : State :=
  if !answers.socketChecks then state.answered
  else if state.ctx.passthrough = .direct then
    if answers.socketCapacity then state.onward .upstreamPeer else state.answered
  else if !state.ctx.key then state.answered
  else
    let admission := state.admitted ticket answers.admission 0 answers.now
    if admission.1 && answers.socketCapacity then admission.2.onward .upstreamPeer
    else admission.2.answered

/-- The budget of a governed request, and the token of a request to Foundry. -/
def admitGoverned (answers : UpstreamFilterAnswers) (state : State) : State :=
  let reserves := answers.bodyEmpty || answers.canStream
  let admission :=
    if reserves then state.admitted ticket answers.admission state.ctx.amount answers.now
    else (true, state)
  if admission.1 then
    if state.ctx.foundry && !answers.foundryToken then
      admission.2.denied ticket answers.release answers.now
    else admission.2.onward .upstreamPeer
  else admission.2.denied ticket answers.release answers.now

/-- A request with a Relayna key, once its price is prepared. -/
def admitKeyed (answers : UpstreamFilterAnswers) (state : State) : State :=
  if !answers.canonicalRoute then state.denied ticket answers.release answers.now
  else if answers.delegated && decide (state.ctx.passthrough ≠ .none) then
    if answers.outputTokenLimit then state.onward .upstreamPeer
    else state.denied ticket answers.release answers.now
  else if Check.all.all fun check ↦
      !check.applies answers.bodyEmpty (answers.bodyEmpty || answers.canStream) ||
        answers.checks check then
    admitGoverned ticket answers
      { state with ctx := { state.ctx with canStream := answers.canStream } }
  else state.denied ticket answers.release answers.now

def proxyUpstreamFilter (answers : UpstreamFilterAnswers) (state : State) : State :=
  if state.ctx.routeMatch.isNone then state.answered
  else if !answers.upstream then state.answered
  else if state.ctx.socket && !state.ctx.accessa then admitWebsocket ticket answers state
  else if state.ctx.passthrough = .trustedIngress then state.onward .upstreamPeer
  else if state.ctx.passthrough = .direct then
    if answers.canonicalRoute then state.onward .upstreamPeer else state.answered
  else if !state.ctx.key then state.answered
  else if state.ctx.guardrailError then state.denied ticket answers.release answers.now
  else if state.ctx.accessa then
    if answers.accessaAdmission then state.onward .upstreamPeer else state.answered
  else admitKeyed ticket answers { state with ctx := answers.priced state.ctx }

/-! ### The upstream and the body -/

/-- How the address of an upstream is found: it is one, or its host has one, has none, or is not
resolved in time. -/
inductive Resolution
  | resolved
  | failed
  | timeout
  deriving DecidableEq

/-- `upstream_peer`: a request takes a slot once, and keeps it when the address is not found. `slot`
is absent where the slots are not limited. -/
def upstreamPeer (slot : Option Bool) (resolution : Resolution) (state : State) : State :=
  if !state.ctx.upstreamLease && slot = some false then state.refused
  else
    let leased : State := { state with ctx := { state.ctx with
      upstreamLease := state.ctx.upstreamLease || slot.isSome } }
    match resolution with
    | .resolved => leased.onward .connecting
    | .failed => leased.onward (.failed ⟨.upstream, .other⟩)
    | .timeout => leased.onward (.failed ⟨.upstream, .connectTimedout⟩)

/-- `connected_to_upstream` or `fail_to_connect`. -/
def connect (failure : Option ErrorType) (state : State) : State :=
  match failure with
  | none => state.onward .requestBody
  | some etype => state.onward (.failed ⟨.upstream, etype⟩)

/-- `fail_to_proxy`. It answers with the recorded error, or, where no response has been written,
with an error of its own unless the client has gone. -/
def failToProxy (error : PingoraError) (responseWritten : Bool) (state : State) : State :=
  if state.ctx.guardrailError then state.answered
  else if isUpstreamTimeoutError error then
    if responseWritten then state.onward .ended else state.answered
  else if decide (0 < defaultProxyFailureStatus error) && !responseWritten then state.answered
  else state.onward .ended

/-- What `request_body_filter` is answered for a chunk: the length of the chunk, whether it is the
last, whether a frame of a socket is accepted, whether the body is within its limits, whether the
chunk could be buffered, and for the last chunk whether the complete body passes its checks, whether
its admission is delegated, and its price. -/
structure BodyAnswers where
  chunk : ℕ
  endOfStream : Bool
  frame : Bool
  withinLimits : Bool
  buffered : Bool
  resolved : Pricing
  complete : Bool
  delegated : Bool

/-- The upstream is handed a body. -/
def State.forwarded (state : State) : State :=
  { state with handed := true }

/-- The complete body of a buffered request: its price, and its checks. -/
def completeBody (answers : BodyAnswers) (state : State) : State :=
  let priced := { state with ctx := state.ctx.priced answers.resolved }
  if !answers.complete then priced.refused
  else if answers.delegated && decide (state.ctx.passthrough ≠ .none) then priced.onward .binding
  else priced.onward .completeBody

/-- `request_body_filter`. A request without a body has one call, at its end. -/
def requestBodyFilter (answers : BodyAnswers) (state : State) : State :=
  if state.ctx.socket then
    if answers.frame then state.forwarded else state.onward (.failed ⟨.unset, .connectionClosed⟩)
  else if state.ctx.guardrailError then state.onward (.failed ⟨.unset, .other⟩)
  else
    let chunk := if state.ctx.bodyEmpty then 0 else answers.chunk
    let endOfStream := state.ctx.bodyEmpty || answers.endOfStream
    let seen : State := { state with ctx := { state.ctx with
      bodyBytesSeen := state.ctx.bodyBytesSeen + chunk } }
    if !state.ctx.bodyEmpty && !answers.withinLimits then seen.refused
    else if seen.ctx.passthrough = .direct || seen.ctx.canStream ||
        seen.ctx.budgetReserved && seen.ctx.bodyBytesSeen = 0 && endOfStream then seen.forwarded
    else if !answers.buffered then seen.refused
    else if !endOfStream then seen
    else completeBody answers seen

/-- What `admit_complete_body` is answered: whether the rewritten body fits and its policy allows
it, whether the rates do, and the admission of its budget. `canStream` is the choice under the
policy of the complete body. -/
structure CompleteBodyAnswers where
  policy : Bool
  rates : Bool
  canStream : Bool
  admission : AdmissionAnswers
  now : DateTime

def admitCompleteBody (answers : CompleteBodyAnswers) (state : State) : State :=
  if !state.ctx.key || !answers.policy then state.refused
  else if state.ctx.budgetReserved then
    { state with ctx := { state.ctx with canStream := answers.canStream } }.onward .binding
  else if !answers.rates then state.refused
  else
    let admission := state.admitted ticket answers.admission state.ctx.amount answers.now
    if admission.1 then
      { admission.2 with
        ctx := { admission.2.ctx with canStream := answers.canStream } }.onward .binding
    else admission.2.refused

/-- `bind_request_body_admission`: the lease is converted into one of the bytes that are forwarded.
-/
def bindRequestBodyAdmission (converted : Bool) (state : State) : State :=
  if converted then state.forwarded.onward .requestBody else state.refused

/-- What the filters of the response decide. The streaming guardrails set `guardrail_error` and let
the response go on. -/
inductive ResponseVerdict
  | accepted
  | blocked
  | refused
  deriving DecidableEq

/-- The filters of the response. `cost` is what the observer of the body holds afterwards: it starts
anew with every response of an upstream. -/
def responseFilter (cost : Option ℚ≥0) (verdict : ResponseVerdict) (state : State) : State :=
  let seen : State := { state with ctx := { state.ctx with responseCost := cost } }
  match verdict with
  | .accepted => seen
  | .blocked =>
    -- The plan of the streaming guardrails is set in the call that hands the body on.
    if seen.handed then { seen with ctx := { seen.ctx with guardrailError := true } } else seen
  | .refused => seen.refused

/-! ### `logging` -/

/-- `logging`. The event of a request without a reservation is dated when it is made, and the call
to the budget store takes the time anew and meets a fate on the network. -/
def logging (eventAt settledAt : DateTime) (fate : Fate) (state : State) : State :=
  if !state.ctx.route || !state.ctx.key || state.ctx.terminalUsageRecorded then
    state.onward .logged
  else
    let cost := state.ctx.estimatedCost
    let settled := state.settled ticket fate cost settledAt
    { settled with
      phase := .logged
      events := settled.events ++ [⟨cost, state.ctx.budgetReservedAt.getD eventAt⟩]
      ctx := { settled.ctx with terminalUsageRecorded := true } }

/-! ### Runs -/

/-- What happens to a request: a budget call of another request, a callback, an error of the
exchange with the upstream or its end, or another attempt. -/
inductive Event
  | other (call : Call)
  | requestFilter (outcome : FilterOutcome)
  | proxyUpstreamFilter (answers : UpstreamFilterAnswers)
  | upstreamPeer (slot : Option Bool) (resolution : Resolution)
  | connect (failure : Option ErrorType)
  | requestBodyFilter (answers : BodyAnswers)
  | admitCompleteBody (answers : CompleteBodyAnswers)
  | bindRequestBodyAdmission (converted : Bool)
  | responseFilter (cost : Option ℚ≥0) (verdict : ResponseVerdict)
  | errorWhileProxy (error : PingoraError)
  | retry
  | failToProxy (responseWritten : Bool)
  | finish
  | logging (eventAt settledAt : DateTime) (fate : Fate)

/-- One event. A socket is not tried again. -/
def advance (state : State) : Event → State
  | .other call => { state with world := step state.world call }
  | .requestFilter outcome =>
    if state.phase = .requestFilter then requestFilter state outcome else state
  | .proxyUpstreamFilter answers =>
    if state.phase = .proxyUpstreamFilter then proxyUpstreamFilter ticket answers state else state
  | .upstreamPeer slot resolution =>
    if state.phase = .upstreamPeer then upstreamPeer slot resolution state else state
  | .connect failure => if state.phase = .connecting then connect failure state else state
  | .requestBodyFilter answers =>
    if state.phase = .requestBody then requestBodyFilter answers state else state
  | .admitCompleteBody answers =>
    if state.phase = .completeBody then admitCompleteBody ticket answers state else state
  | .bindRequestBodyAdmission converted =>
    if state.phase = .binding then bindRequestBodyAdmission converted state else state
  | .responseFilter cost verdict =>
    if state.phase = .requestBody then responseFilter cost verdict state else state
  | .errorWhileProxy error =>
    if state.phase = .requestBody then state.onward (.failed error) else state
  | .retry =>
    match state.phase with
    | .failed _ => if state.ctx.socket then state else state.onward .upstreamPeer
    | _ => state
  | .failToProxy responseWritten =>
    match state.phase with
    | .failed error => failToProxy error responseWritten state
    | _ => state
  | .finish => if state.phase = .requestBody then state.onward .ended else state
  | .logging eventAt settledAt fate =>
    if state.phase = .ended then logging ticket eventAt settledAt fate state else state

end Relayna.Proxy

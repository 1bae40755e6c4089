import Mathlib.Data.List.Induction
import Mathlib.Tactic.NormNum
import Relayna.Usage.Repricing

/-!
# The cost that the proxy records, and what a repricing makes of it

`crates/gateway-proxy/src/pingora_plane.rs`: the context of a request to a service takes the prices
of the registration (`configure_service_pricing_context`), prepares a price before the body is known
(`prepare_service_cost_for_ctx`) and resolves it once the body is (`resolve_service_cost_for_ctx`).
A WebSocket request does neither. The event is written by `record_terminal_usage` for a request that
is rejected, and by `logging` otherwise; the first records no cost, and so does the second for a
request that failed in the gateway before its budget was reserved. Both keep the mode, the source
and the rule of the price that was not charged.

A repricing under the same registration finds that price again from the recorded attribution, and
charges it. `repricing_unchanged_iff` says for which events.
-/

set_option autoImplicit false
set_option relaxedAutoImplicit false

namespace Relayna.Usage

open Relayna.Pricing

/-! ### The context of a request -/

/-- What pricing reads of `PingoraContext`. -/
structure PricingContext where
  socket : Bool
  litellmPassthrough : Bool
  accessa : Bool
  serviceCostMode : Option ServiceCostMode
  serviceEstimatedCostUsd : Option Price
  servicePricingRules : List ServicePricingRule
  httpMethod : Option Text
  endpointPath : Option Text
  resolvedEndpointCost : Option ResolvedServiceCost
  resolvedServiceCost : Option ResolvedServiceCost

variable (pricingFingerprint : Selector → Text)

/-- A request to a service. `endpointPath` is what follows the route pattern of the service in the
path of the request. -/
structure ServiceRequest where
  socket : Bool
  litellmPassthrough : Bool
  method : Method
  endpointPath : Text

/-- The context of a request after `configure_service_pricing_context`. -/
def configureServicePricingContext (registration : ServiceRegistration)
    (request : ServiceRequest) : PricingContext where
  socket := request.socket
  litellmPassthrough := request.litellmPassthrough
  accessa := registration.accessa
  serviceCostMode := some registration.costMode
  serviceEstimatedCostUsd := registration.estimatedCostUsd
  servicePricingRules := registration.pricingRules
  httpMethod := some (toAsciiUppercase request.method.bytes)
  endpointPath := some request.endpointPath
  resolvedEndpointCost := resolveEndpointPricingRule pricingFingerprint request.method
    request.endpointPath registration.endpointPricingRules
  resolvedServiceCost := none

/-- The price before the body is looked at. -/
def PricingContext.base (ctx : PricingContext) : ResolvedServiceCost :=
  ctx.resolvedEndpointCost.getD
    ⟨none, ctx.serviceCostMode.getD .none, ctx.serviceEstimatedCostUsd, none⟩

/-- `prepare_service_cost_for_ctx`, as to the price of the event. -/
def prepareServiceCostForCtx (ctx : PricingContext) : PricingContext :=
  { ctx with resolvedServiceCost := some ctx.base }

/-- The price once the body is known: a free endpoint has no body rules. `selector` gives the string
at a pointer of the body, when the body could be read. -/
def PricingContext.resolvedCost (ctx : PricingContext)
    (selector : Option (Text → Option Text)) : ResolvedServiceCost :=
  let base := ctx.base
  if ctx.resolvedEndpointCost.isSome ∧ base.costMode = .none then base
  else
    match selector with
    | none => base
    | some member =>
      let resolved := resolveServiceCostFromValue pricingFingerprint member base.costMode
        base.estimatedCostUsd ctx.servicePricingRules
      if (matchingServicePricingRule member ctx.servicePricingRules).isSome then resolved
      else
        { resolved with
          pricingRuleName := base.pricingRuleName
          pricingRuleFingerprint := base.pricingRuleFingerprint }

/-- `resolve_service_cost_for_ctx`, as to the price of the event. -/
def resolveServiceCostForCtx (ctx : PricingContext) (selector : Option (Text → Option Text)) :
    PricingContext :=
  { ctx with resolvedServiceCost := some (ctx.resolvedCost pricingFingerprint selector) }

/-- The stages in which the price of a request is set. -/
inductive Stage
  | prepare
  | resolve (selector : Option (Text → Option Text))

/-- One stage. A WebSocket request is admitted before the first and its body is frames. -/
def PricingContext.stage (ctx : PricingContext) (stage : Stage) : PricingContext :=
  if ctx.socket then ctx
  else
    match stage with
    | .prepare => prepareServiceCostForCtx ctx
    | .resolve selector => resolveServiceCostForCtx pricingFingerprint ctx selector

/-! ### The event -/

structure ResolvedUsageCost where
  estimatedCostUsd : Option ℚ
  costSource : Option CostSource
  costMode : Option ServiceCostMode
  pricingRuleName : Option Text

/-- A price in dollars. -/
def toUsd (price : Price) : ℚ :=
  price.units / 10 ^ 8

/-- The recorded cost of a request with a service price. `responseCost` is the cost that was found
in the response. -/
def serviceUsageCost (cost : ResolvedServiceCost) (responseCost : Option ℚ) : ResolvedUsageCost :=
  match cost.costMode with
  | .none => ⟨none, some .none, some .none, cost.pricingRuleName⟩
  | .fixed =>
    ⟨cost.estimatedCostUsd.map toUsd,
      some (if cost.pricingRuleName.isSome then .servicePricingRuleFixed else .serviceDefaultFixed),
      some .fixed, cost.pricingRuleName⟩
  | .passthrough =>
    ⟨responseCost,
      some (if responseCost.isSome then
          if cost.pricingRuleName.isSome then .servicePricingRulePassthrough
          else .serviceDefaultPassthrough
        else .missingUpstreamCost),
      some .passthrough, cost.pricingRuleName⟩

/-- The recorded cost of a request without a service price. -/
def routeUsageCost (responseCost routeCost : Option ℚ) : ResolvedUsageCost :=
  if responseCost.isSome then ⟨responseCost, some .upstreamPassthrough, none, none⟩
  else ⟨routeCost, routeCost.map fun _ ↦ .routeDefault, none, none⟩

def resolvedUsageCost (ctx : PricingContext) (responseCost routeCost : Option ℚ) :
    ResolvedUsageCost :=
  if ctx.socket ∨ ctx.litellmPassthrough ∨ ctx.accessa then ⟨none, some .none, some .none, none⟩
  else
    match ctx.resolvedServiceCost with
    | some cost => serviceUsageCost cost responseCost
    | none => routeUsageCost responseCost routeCost

/-- Who writes the event of a request. -/
inductive Recorder
  | terminalUsage
  | logging (budgetReserved guardrailError : Bool)

def Recorder.blanksCost : Recorder → Bool
  | .terminalUsage => true
  | .logging budgetReserved guardrailError => !budgetReserved && guardrailError

/-- A request that has been recorded. -/
structure Recording where
  request : ServiceRequest
  stages : List Stage
  responseCost : Option ℚ
  routeCost : Option ℚ
  recorder : Recorder
  facts : EventFacts
  id : Uuid
  xid : ℕ

def Recording.context (recording : Recording) (registration : ServiceRegistration) :
    PricingContext :=
  recording.stages.foldl (PricingContext.stage pricingFingerprint)
    (configureServicePricingContext pricingFingerprint registration recording.request)

/-- The usage event of a request. -/
def Recording.event (recording : Recording) (registration : ServiceRegistration) : UsageEvent :=
  let ctx := recording.context pricingFingerprint registration
  let cost := resolvedUsageCost ctx recording.responseCost recording.routeCost
  { facts :=
      { recording.facts with
        serviceName := some registration.name
        httpMethod := ctx.httpMethod
        endpointPath := ctx.endpointPath
        routingMode :=
          some (if ctx.litellmPassthrough then .litellmPassthrough else .managedByGateway) }
    estimatedCostUsd := if recording.recorder.blanksCost then none else cost.estimatedCostUsd
    costSource := cost.costSource
    costMode := cost.costMode
    pricingRuleName := cost.pricingRuleName
    pricingRuleFingerprint :=
      ctx.resolvedServiceCost.bind fun cost ↦ cost.pricingRuleFingerprint }

def Recording.row (recording : Recording) (registration : ServiceRegistration) : UsageRow :=
  (recording.event pricingFingerprint registration).toRow recording.id recording.xid

/-! ### What the price of a request is attributed to -/

def ServiceRequest.endpointCost (request : ServiceRequest) (registration : ServiceRegistration) :
    Option ResolvedServiceCost :=
  resolveEndpointPricingRule pricingFingerprint request.method request.endpointPath
    registration.endpointPricingRules

/-- What a price is attributed to. -/
inductive Attribution
  | serviceDefault
  | endpoint (cost : ResolvedServiceCost)
  | body (rule : ServicePricingRule)

/-- The attribution of a request: a free endpoint has no body rules, and a body rule that matches
goes before the endpoint and the default. -/
def ServiceRequest.attribution (request : ServiceRequest) (registration : ServiceRegistration)
    (selector : Option (Text → Option Text)) : Attribution :=
  match request.endpointCost pricingFingerprint registration with
  | some endpoint =>
    if endpoint.costMode = .none then .endpoint endpoint
    else
      match selector.bind fun member ↦
        matchingServicePricingRule member registration.pricingRules with
      | some rule => .body rule
      | none => .endpoint endpoint
  | none =>
    match selector.bind fun member ↦
      matchingServicePricingRule member registration.pricingRules with
    | some rule => .body rule
    | none => .serviceDefault

def Attribution.cost (registration : ServiceRegistration) : Attribution → ResolvedServiceCost
  | .serviceDefault => defaultServiceCost registration.costMode registration.estimatedCostUsd
  | .endpoint cost => cost
  | .body rule => bodyServiceCost pricingFingerprint rule

/-- The attribution can be found again from the name and the fingerprint of its rule: no other rule
has the name, or for the default, no body rule is without one. -/
def Attribution.traceable (registration : ServiceRegistration)
    (endpointCost : Option ResolvedServiceCost) : Attribution → Bool
  | .serviceDefault => registration.pricingRules.all fun rule ↦ rule.name.isSome
  | .endpoint cost =>
    registration.pricingRules.all fun rule ↦ decide (rule.name ≠ cost.pricingRuleName)
  | .body rule =>
    rule.name.isSome &&
      decide ((registration.pricingRules.countP fun other ↦ decide (other.name = rule.name)) = 1) &&
      endpointCost.all fun endpoint ↦ decide (endpoint.pricingRuleName ≠ rule.name)

def Attribution.fixedPrice (registration : ServiceRegistration)
  (attribution : Attribution) : Bool :=
  decide ((attribution.cost pricingFingerprint registration).costMode = .fixed) &&
    (attribution.cost pricingFingerprint registration).estimatedCostUsd.isSome

def Stage.selector : Stage → Option (Text → Option Text)
  | .prepare => none
  | .resolve selector => selector

/-- A request that was not charged although its price is a fixed amount that a repricing finds: a
WebSocket request to a service whose default is one, or a request whose recorder left the cost out
of its event. -/
def Recording.uncharged (recording : Recording) (registration : ServiceRegistration) : Bool :=
  let endpointCost := recording.request.endpointCost pricingFingerprint registration
  !registration.accessa && !recording.request.litellmPassthrough &&
    if recording.request.socket then
      endpointCost.isNone && Attribution.serviceDefault.traceable registration endpointCost &&
        Attribution.serviceDefault.fixedPrice pricingFingerprint registration
    else
      recording.recorder.blanksCost && recording.stages.getLast?.any fun stage ↦
        let attribution :=
          recording.request.attribution pricingFingerprint registration stage.selector
        attribution.traceable registration endpointCost &&
          attribution.fixedPrice pricingFingerprint registration

/-! ### The recorded price -/

variable (registration : ServiceRegistration)

/-- A context of a request, with the price that the stages have set. -/
def ServiceRequest.contextWith (request : ServiceRequest) (resolved : Option ResolvedServiceCost) :
    PricingContext :=
  { configureServicePricingContext pricingFingerprint registration request with
    resolvedServiceCost := resolved }

/-- The base price of a request. -/
theorem base_contextWith (request : ServiceRequest) (resolved : Option ResolvedServiceCost) :
    (request.contextWith pricingFingerprint registration resolved).base =
      (request.endpointCost pricingFingerprint registration).getD
        (defaultServiceCost registration.costMode registration.estimatedCostUsd) :=
  rfl

/-- Without a body, the price of the attribution is the base price. -/
theorem cost_attribution_none (request : ServiceRequest) :
    (request.attribution pricingFingerprint registration none).cost pricingFingerprint
        registration =
      (request.endpointCost pricingFingerprint registration).getD
        (defaultServiceCost registration.costMode registration.estimatedCostUsd) := by
  unfold ServiceRequest.attribution
  rcases request.endpointCost pricingFingerprint registration with _ | endpoint
  · rfl
  · by_cases hfree : endpoint.costMode = .none
    · simp only [hfree, if_true]
      rfl
    · simp only [hfree, if_false]
      rfl

/-- A resolved price is that of the attribution. -/
theorem resolvedCost_contextWith (request : ServiceRequest)
    (resolved : Option ResolvedServiceCost) (selector : Option (Text → Option Text)) :
    (request.contextWith pricingFingerprint registration resolved).resolvedCost pricingFingerprint
        selector =
      (request.attribution pricingFingerprint registration selector).cost pricingFingerprint
        registration := by
  have hendpoint : (request.contextWith pricingFingerprint registration
      resolved).resolvedEndpointCost = request.endpointCost pricingFingerprint registration := rfl
  have hrules : (request.contextWith pricingFingerprint registration
      resolved).servicePricingRules = registration.pricingRules := rfl
  unfold PricingContext.resolvedCost ServiceRequest.attribution
  rw [base_contextWith, hendpoint, hrules]
  rcases request.endpointCost pricingFingerprint registration with _ | endpoint
  · rw [if_neg (by simp)]
    rcases selector with _ | member
    · rfl
    · simp only [Option.bind_some, resolveServiceCostFromValue]
      rcases matchingServicePricingRule member registration.pricingRules with _ | rule
      · rfl
      · rfl
  · by_cases hfree : endpoint.costMode = .none
    · rw [if_pos ⟨rfl, hfree⟩]
      simp only [hfree, if_true]
      rfl
    · rw [if_neg fun h ↦ hfree h.2]
      simp only [hfree, if_false]
      rcases selector with _ | member
      · rfl
      · simp only [Option.bind_some, resolveServiceCostFromValue]
        rcases matchingServicePricingRule member registration.pricingRules with _ | rule
        · rfl
        · rfl

/-- A stage sets the price of the attribution. -/
theorem stage_contextWith (request : ServiceRequest) (hsocket : request.socket = false)
    (resolved : Option ResolvedServiceCost) (stage : Stage) :
    PricingContext.stage pricingFingerprint
        (request.contextWith pricingFingerprint registration resolved) stage =
      request.contextWith pricingFingerprint registration (some ((request.attribution
        pricingFingerprint registration stage.selector).cost pricingFingerprint registration)) := by
  have hnosocket :
      (request.contextWith pricingFingerprint registration resolved).socket = false := hsocket
  unfold PricingContext.stage
  rw [hnosocket, if_neg Bool.false_ne_true]
  cases stage with
  | prepare =>
    dsimp only [Stage.selector]
    rw [cost_attribution_none]
    rfl
  | resolve selector =>
    dsimp only [Stage.selector]
    rw [resolveServiceCostForCtx, resolvedCost_contextWith]
    rfl

/-- The price that is recorded with a request: none for a WebSocket request and before the first
stage, else that of the attribution at the last stage. -/
def Recording.price (recording : Recording) : Option ResolvedServiceCost :=
  if recording.request.socket then none
  else recording.stages.getLast?.map fun stage ↦
    (recording.request.attribution pricingFingerprint registration stage.selector).cost
      pricingFingerprint registration

/-- The context of a recorded request has its price. -/
theorem context_eq (recording : Recording) :
    recording.context pricingFingerprint registration =
      recording.request.contextWith pricingFingerprint registration
        (recording.price pricingFingerprint registration) := by
  unfold Recording.context Recording.price
  cases hsocket : recording.request.socket with
  | true =>
    rw [if_pos rfl]
    induction recording.stages with
    | nil => rfl
    | cons stage rest ih =>
      rw [List.foldl_cons]
      have hsame : PricingContext.stage pricingFingerprint (configureServicePricingContext
          pricingFingerprint registration recording.request) stage =
            configureServicePricingContext pricingFingerprint registration recording.request := by
        unfold PricingContext.stage
        exact if_pos hsocket
      rw [hsame, ih]
  | false =>
    rw [if_neg Bool.false_ne_true]
    induction recording.stages using List.reverseRecOn with
    | nil => rfl
    | append_singleton stages stage ih =>
      rw [List.foldl_append, ih, List.foldl_cons, List.foldl_nil,
        stage_contextWith _ _ _ hsocket, List.getLast?_concat]
      rfl

/-! ### The price that a repricing finds -/

/-- The attribution of a request is the default where no endpoint rule matches, the endpoint rule,
or a body rule that a free endpoint does not hide. -/
theorem attribution_cases (request : ServiceRequest) (selector : Option (Text → Option Text)) :
    request.attribution pricingFingerprint registration selector = .serviceDefault ∧
        request.endpointCost pricingFingerprint registration = none ∨
      (∃ cost, request.attribution pricingFingerprint registration selector = .endpoint cost ∧
        request.endpointCost pricingFingerprint registration = some cost) ∨
      ∃ rule ∈ registration.pricingRules,
        request.attribution pricingFingerprint registration selector = .body rule ∧
        ∀ cost, request.endpointCost pricingFingerprint registration = some cost →
          cost.costMode ≠ .none := by
  have hrule : ∀ rule, (selector.bind fun member ↦
      matchingServicePricingRule member registration.pricingRules) = some rule →
        rule ∈ registration.pricingRules := by
    intro rule hmatch
    obtain ⟨member, -, hfound⟩ := Option.bind_eq_some_iff.mp hmatch
    exact List.mem_of_find?_eq_some hfound
  unfold ServiceRequest.attribution
  split
  · rename_i cost hcost
    by_cases hfree : cost.costMode = .none
    · simp only [hfree, if_true]
      exact .inr (.inl ⟨cost, rfl, hcost⟩)
    · simp only [hfree, if_false]
      split
      · rename_i rule hmatch
        refine .inr (.inr ⟨rule, hrule rule hmatch, rfl, ?_⟩)
        intro other hother
        rw [← Option.some.inj (hcost.symm.trans hother)]
        exact hfree
      · exact .inr (.inl ⟨cost, rfl, hcost⟩)
  · rename_i hcost
    split
    · rename_i rule hmatch
      refine .inr (.inr ⟨rule, hrule rule hmatch, rfl, fun other hother ↦ ?_⟩)
      rw [hcost] at hother
      cases hother
    · exact .inl ⟨rfl, hcost⟩

theorem bind_ite_some {α β : Type} (holds : Prop) [Decidable holds] (value : α)
    (next : α → Option β) :
    (if holds then some value else none).bind next = if holds then next value else none := by
  split
  · rfl
  · rfl

/-- Assumes: an event of a service without an Accessa profile. From the name and the fingerprint
that were recorded, the repricer finds the price of its attribution, if it is traceable. -/
theorem reprice_attribution (request : ServiceRequest) (selector : Option (Text → Option Text))
    {source : Option CostSource} (hsource : CostSource.repriceable source = true)
    (haccessa : registration.accessa = false) :
    repriceRecordedServiceCost pricingFingerprint registration registration source
        ((request.attribution pricingFingerprint registration selector).cost pricingFingerprint
          registration).pricingRuleName
        (some (toAsciiUppercase request.method.bytes)) (some request.endpointPath)
        ((request.attribution pricingFingerprint registration selector).cost pricingFingerprint
          registration).pricingRuleFingerprint =
      if (request.attribution pricingFingerprint registration selector).traceable registration
          (request.endpointCost pricingFingerprint registration) then
        chargeable ((request.attribution pricingFingerprint registration selector).cost
          pricingFingerprint registration)
      else none := by
  have hendpoint : resolveEndpointPricingRule pricingFingerprint request.method.upper
      request.endpointPath registration.endpointPricingRules =
        request.endpointCost pricingFingerprint registration :=
    resolveEndpointPricingRule_upper pricingFingerprint request.method request.endpointPath _
  rw [repriceRecordedServiceCost, if_neg (by simp [haccessa, hsource]), endpointContext_upper]
  simp only [Option.isNone_some, Bool.false_eq_true, false_and, if_false]
  rcases attribution_cases pricingFingerprint registration request selector with
    ⟨hdefault, hnone⟩ | ⟨cost, hattribution, hsome⟩ | ⟨rule, hrule, hattribution, hpriced⟩
  · rw [hdefault]
    dsimp only [Attribution.cost, defaultServiceCost]
    rw [repriceUnnamed_same registration (hendpoint.trans hnone), bind_ite_some]
    rfl
  · obtain ⟨name, hname, -⟩ := resolveEndpointPricingRule_named pricingFingerprint hsome
    obtain ⟨fingerprint, mode, price, ruleName⟩ := cost
    obtain rfl : ruleName = some name := hname
    have hfound := repriceNamed_endpoint registration (hendpoint.trans hsome) rfl
    rw [hattribution]
    dsimp only [Attribution.cost] at hfound ⊢
    rw [hfound, bind_ite_some]
    rfl
  · obtain ⟨ruleName, pointer, equals, mode, price⟩ := rule
    rw [hattribution]
    rcases ruleName with _ | name
    · dsimp only [Attribution.cost, bodyServiceCost]
      rw [repriceUnnamed_fingerprint]
      rfl
    · have hfound := repriceNamed_body registration hendpoint hpriced hrule rfl
      dsimp only [Attribution.cost, bodyServiceCost] at hfound ⊢
      rw [hfound, bind_ite_some]
      simp only [Attribution.traceable, Option.isSome_some, Bool.true_and, Bool.and_eq_true,
        decide_eq_true_eq]

/-! ### The change of a recorded row -/

/-- A price is stored as it is. -/
theorem numeric_toUsd (price : Price) : numeric (toUsd price) = price.units := by
  have hunits : toUsd price * 10 ^ 8 = (price.units : ℚ) := by
    rw [toUsd, div_mul_cancel₀]
    norm_num
  have hnonneg : 0 ≤ toUsd price := div_nonneg (Nat.cast_nonneg _) (by norm_num)
  rw [numeric, if_pos hnonneg, hunits, Int.floor_eq_iff]
  norm_num

def Recording.usageCost (recording : Recording) : ResolvedUsageCost :=
  resolvedUsageCost (recording.request.contextWith pricingFingerprint registration
    (recording.price pricingFingerprint registration)) recording.responseCost recording.routeCost

/-- What the repricer reads of the row of a request. -/
structure RowOf (recording : Recording) (row : UsageRow) : Prop where
  httpMethod : row.facts.httpMethod = some (toAsciiUppercase recording.request.method.bytes)
  endpointPath : row.facts.endpointPath = some recording.request.endpointPath
  serviceName : row.facts.serviceName = some registration.name
  routingMode : row.facts.routingMode = some .litellmPassthrough ↔
    recording.request.litellmPassthrough = true
  estimatedCost : row.estimatedCost = (if recording.recorder.blanksCost then none
    else (recording.usageCost pricingFingerprint registration).estimatedCostUsd).map numeric
  costSource : row.costSource = (recording.usageCost pricingFingerprint registration).costSource
  costMode : row.costMode = (recording.usageCost pricingFingerprint registration).costMode
  pricingRuleName : row.pricingRuleName =
    (recording.usageCost pricingFingerprint registration).pricingRuleName
  fingerprint : row.pricingRuleFingerprint =
    (recording.price pricingFingerprint registration).bind fun cost ↦ cost.pricingRuleFingerprint

theorem rowOf_row (recording : Recording) : RowOf pricingFingerprint registration recording
    (recording.row pricingFingerprint registration) := by
  unfold Recording.row Recording.event
  rw [context_eq]
  refine ⟨rfl, rfl, rfl, ?_, rfl, rfl, rfl, rfl, rfl⟩
  change some (if recording.request.litellmPassthrough then RoutingMode.litellmPassthrough
    else .managedByGateway) = some .litellmPassthrough ↔ _
  cases recording.request.litellmPassthrough with
  | false => simp
  | true => simp

variable {pricingFingerprint} {registration} {recording : Recording} {row : UsageRow}

/-- Assumes: an event that the repricer leaves alone, since the service has an Accessa profile or
the request was passed through. -/
theorem RowOf.resolveRow_exempt (h : RowOf pricingFingerprint registration recording row)
    (hexempt : registration.accessa = true ∨ recording.request.litellmPassthrough = true) :
    resolveRow pricingFingerprint registration registration row = none := by
  unfold resolveRow
  split
  · rcases hexempt with haccessa | hpassthrough
    · have hnone : ∀ source name method path fingerprint, repriceRecordedServiceCost
          pricingFingerprint registration registration source name method path fingerprint = none :=
        fun _ _ _ _ _ ↦ if_pos (.inl haccessa)
      rw [hnone]
      rfl
    · have hmode := h.routingMode.mpr hpassthrough
      simp [hmode]
  · rfl

/-- Assumes: an event that the repricer looks at. It reads the recorded attribution. -/
theorem RowOf.resolveRow_eq (h : RowOf pricingFingerprint registration recording row)
    (hpassthrough : recording.request.litellmPassthrough = false)
    (hmode : row.costMode = some .fixed ∨ row.costMode = some .none) :
    resolveRow pricingFingerprint registration registration row =
      repriceRecordedServiceCost pricingFingerprint registration registration
        (recording.usageCost pricingFingerprint registration).costSource
        (recording.usageCost pricingFingerprint registration).pricingRuleName
        (some (toAsciiUppercase recording.request.method.bytes))
        (some recording.request.endpointPath)
        ((recording.price pricingFingerprint registration).bind fun cost ↦
          cost.pricingRuleFingerprint) := by
  have hmanaged : row.facts.routingMode ≠ some .litellmPassthrough := by
    rw [ne_eq, h.routingMode, hpassthrough]
    exact Bool.false_ne_true
  unfold resolveRow
  rw [if_pos hmode, h.costSource, h.pricingRuleName, h.httpMethod, h.endpointPath, h.fingerprint]
  generalize repriceRecordedServiceCost pricingFingerprint registration registration _ _ _ _ _ =
    found
  cases found with
  | none => rfl
  | some resolved => exact Option.filter_some_pos (decide_eq_true hmanaged)

/-- Assumes: a row whose price is found again when its attribution is traceable. It changes when
that is so and the price is another one. -/
theorem isSome_changeOf_eq {traceable : Bool} {cost : ResolvedServiceCost}
    (hresolve : resolveRow pricingFingerprint registration registration row =
      if traceable then chargeable cost else none) :
    (changeOf pricingFingerprint registration registration row).isSome =
      (traceable && (chargeable cost).any fun resolved ↦ !row.hasPrice resolved) := by
  rw [changeOf, hresolve]
  cases traceable with
  | false => rfl
  | true =>
    rw [if_pos rfl, Bool.true_and]
    cases chargeable cost with
    | none => rfl
    | some resolved => cases hprice : row.hasPrice resolved <;> simp [Option.filter, hprice]

/-- An event of a WebSocket request is taken for one with the default price. -/
theorem reprice_socket (request : ServiceRequest) (haccessa : registration.accessa = false) :
    repriceRecordedServiceCost pricingFingerprint registration registration (some .none) none
        (some (toAsciiUppercase request.method.bytes)) (some request.endpointPath) none =
      if (request.endpointCost pricingFingerprint registration).isNone &&
          Attribution.serviceDefault.traceable registration
            (request.endpointCost pricingFingerprint registration) then
        chargeable (Attribution.serviceDefault.cost pricingFingerprint registration)
      else none := by
  have hendpoint : resolveEndpointPricingRule pricingFingerprint request.method.upper
      request.endpointPath registration.endpointPricingRules =
        request.endpointCost pricingFingerprint registration :=
    resolveEndpointPricingRule_upper pricingFingerprint request.method request.endpointPath _
  rw [repriceRecordedServiceCost, if_neg (by simp [haccessa, CostSource.repriceable]),
    endpointContext_upper]
  simp only [Option.isNone_some, Bool.false_eq_true, false_and, if_false]
  cases hcost : request.endpointCost pricingFingerprint registration with
  | none =>
    rw [repriceUnnamed_same registration (hendpoint.trans hcost), bind_ite_some]
    rfl
  | some cost =>
    rw [repriceUnnamed, Option.bind_some, hendpoint, hcost]
    simp

/-- Assumes: a row of a free request. The price that is found for it is another one when it is a
fixed amount. -/
theorem any_chargeable_free (cost : ResolvedServiceCost) (hmode : row.costMode = some .none)
    (hsource : row.costSource = some .none) (hestimated : row.estimatedCost = none)
    (hname : row.pricingRuleName = cost.pricingRuleName)
    (hfingerprint : row.pricingRuleFingerprint = cost.pricingRuleFingerprint) :
    ((chargeable cost).any fun resolved ↦ !row.hasPrice resolved) =
      (decide (cost.costMode = .fixed) && cost.estimatedCostUsd.isSome) := by
  obtain ⟨fingerprint, mode, price, name⟩ := cost
  cases mode with
  | passthrough => rfl
  | none => simp [chargeable, UsageRow.hasPrice, newCostSource, hmode, hsource, hestimated, hname,
      hfingerprint]
  | fixed =>
    cases price with
    | none => rfl
    | some price => simp [chargeable, UsageRow.hasPrice, hmode]

/-- Assumes: a row with the attribution of a fixed price. The price that is found for it is another
one when its cost was left out. -/
theorem any_chargeable_fixed (cost : ResolvedServiceCost) {blank : Bool}
    (hfixed : cost.costMode = .fixed) (hmode : row.costMode = some .fixed)
    (hsource : row.costSource = some (newCostSource cost))
    (hestimated : row.estimatedCost =
      (if blank then none else cost.estimatedCostUsd.map toUsd).map numeric)
    (hname : row.pricingRuleName = cost.pricingRuleName)
    (hfingerprint : row.pricingRuleFingerprint = cost.pricingRuleFingerprint) :
    ((chargeable cost).any fun resolved ↦ !row.hasPrice resolved) =
      (blank && cost.estimatedCostUsd.isSome) := by
  obtain ⟨fingerprint, mode, price, name⟩ := cost
  obtain rfl : mode = .fixed := hfixed
  cases price with
  | none => simp [chargeable]
  | some price =>
    have hfound : chargeable ⟨fingerprint, .fixed, some price, name⟩ =
        some ⟨fingerprint, .fixed, some price, name⟩ := rfl
    rw [hfound, Option.any_some]
    unfold UsageRow.hasPrice
    rw [hmode, hsource, hname, hfingerprint, hestimated]
    cases blank with
    | true => simp
    | false => simp [numeric_toUsd]

/-- The row of a WebSocket request changes when the service has a fixed default price that can be
found again. -/
theorem RowOf.isSome_changeOf_socket (h : RowOf pricingFingerprint registration recording row)
    (hsocket : recording.request.socket = true) (haccessa : registration.accessa = false)
    (hpassthrough : recording.request.litellmPassthrough = false) :
    (changeOf pricingFingerprint registration registration row).isSome =
      recording.uncharged pricingFingerprint registration := by
  have hprice : recording.price pricingFingerprint registration = none := if_pos hsocket
  have husage : recording.usageCost pricingFingerprint registration =
      ⟨none, some .none, some .none, none⟩ := if_pos (.inl hsocket)
  have hmode : row.costMode = some .none := by rw [h.costMode, husage]
  have hresolve := h.resolveRow_eq hpassthrough (.inr hmode)
  rw [husage, hprice, Option.bind_none, reprice_socket _ haccessa] at hresolve
  have hcost : row.estimatedCost = none := by
    rw [h.estimatedCost, husage]
    split <;> rfl
  have hany := any_chargeable_free (Attribution.serviceDefault.cost pricingFingerprint registration)
    hmode (by rw [h.costSource, husage]) hcost (by rw [h.pricingRuleName, husage]; rfl)
    (by rw [h.fingerprint, hprice]; rfl)
  rw [isSome_changeOf_eq hresolve, hany]
  unfold Recording.uncharged
  rw [haccessa, hpassthrough, hsocket]
  rfl

/-- The recorded cost of an HTTP request without a price. -/
theorem usageCost_of_none (hplain : ¬ (recording.request.socket = true ∨
      recording.request.litellmPassthrough = true ∨ registration.accessa = true))
    (hprice : recording.price pricingFingerprint registration = none) :
    recording.usageCost pricingFingerprint registration =
      routeUsageCost recording.responseCost recording.routeCost := by
  rw [Recording.usageCost, hprice]
  exact if_neg hplain

/-- The recorded cost of an HTTP request with a price. -/
theorem usageCost_of_some {cost : ResolvedServiceCost}
    (hplain : ¬ (recording.request.socket = true ∨
      recording.request.litellmPassthrough = true ∨ registration.accessa = true))
    (hprice : recording.price pricingFingerprint registration = some cost) :
    recording.usageCost pricingFingerprint registration =
      serviceUsageCost cost recording.responseCost := by
  rw [Recording.usageCost, hprice]
  exact if_neg hplain

theorem serviceUsageCost_costMode (cost : ResolvedServiceCost) (responseCost : Option ℚ) :
    (serviceUsageCost cost responseCost).costMode = some cost.costMode := by
  unfold serviceUsageCost
  split <;> simp_all

theorem serviceUsageCost_pricingRuleName (cost : ResolvedServiceCost) (responseCost : Option ℚ) :
    (serviceUsageCost cost responseCost).pricingRuleName = cost.pricingRuleName := by
  unfold serviceUsageCost
  split <;> rfl

/-- The source of a price that does not come from the response is that of a repricing. -/
theorem serviceUsageCost_costSource {cost : ResolvedServiceCost} {responseCost : Option ℚ}
    (hmode : cost.costMode ≠ .passthrough) :
    (serviceUsageCost cost responseCost).costSource = some (newCostSource cost) := by
  unfold serviceUsageCost newCostSource
  split <;> simp_all

theorem serviceUsageCost_repriceable {cost : ResolvedServiceCost} (responseCost : Option ℚ)
    (hmode : cost.costMode ≠ .passthrough) :
    CostSource.repriceable (serviceUsageCost cost responseCost).costSource = true := by
  rw [serviceUsageCost_costSource hmode]
  unfold newCostSource
  split
  · rfl
  · split <;> rfl

theorem fixed_or_none_of_ne {mode : ServiceCostMode} (hmode : mode ≠ .passthrough) :
    some mode = some .fixed ∨ some mode = some .none := by
  cases mode with
  | fixed => exact .inl rfl
  | none => exact .inr rfl
  | passthrough => exact absurd rfl hmode

/-- The row of another request changes when its cost was left out and its price is a fixed amount
that can be found again. -/
theorem RowOf.isSome_changeOf_http (h : RowOf pricingFingerprint registration recording row)
    (hsocket : recording.request.socket = false) (haccessa : registration.accessa = false)
    (hpassthrough : recording.request.litellmPassthrough = false) :
    (changeOf pricingFingerprint registration registration row).isSome =
      recording.uncharged pricingFingerprint registration := by
  have hnosocket : ¬ (recording.request.socket = true ∨
      recording.request.litellmPassthrough = true ∨ registration.accessa = true) := by
    simp [hsocket, haccessa, hpassthrough]
  have hunresolved : row.costMode ≠ some .fixed → row.costMode ≠ some .none →
      (changeOf pricingFingerprint registration registration row).isSome = false := by
    intro hfixed hnone
    rw [changeOf, resolveRow, if_neg (not_or.mpr ⟨hfixed, hnone⟩)]
    rfl
  have huncharged : recording.uncharged pricingFingerprint registration =
      (recording.recorder.blanksCost && recording.stages.getLast?.any fun stage ↦
        (recording.request.attribution pricingFingerprint registration stage.selector).traceable
            registration (recording.request.endpointCost pricingFingerprint registration) &&
          (recording.request.attribution pricingFingerprint registration
            stage.selector).fixedPrice pricingFingerprint registration) := by
    unfold Recording.uncharged
    rw [haccessa, hpassthrough, hsocket]
    rfl
  rw [huncharged]
  cases hlast : recording.stages.getLast? with
  | none =>
    have hprice : recording.price pricingFingerprint registration = none := by
      rw [Recording.price, hsocket, hlast]
      rfl
    have hmode : row.costMode = none := by
      rw [h.costMode, usageCost_of_none hnosocket hprice, routeUsageCost]
      split <;> rfl
    rw [hunresolved (by simp [hmode]) (by simp [hmode]), Option.any_none, Bool.and_false]
  | some stage =>
    have hprice : recording.price pricingFingerprint registration =
        some ((recording.request.attribution pricingFingerprint registration stage.selector).cost
          pricingFingerprint registration) := by
      rw [Recording.price, hsocket, hlast]
      rfl
    have husage := usageCost_of_some hnosocket hprice
    have hmode := h.costMode
    have hname := h.pricingRuleName
    have hfingerprint := h.fingerprint
    rw [husage, serviceUsageCost_costMode] at hmode
    rw [husage, serviceUsageCost_pricingRuleName] at hname
    rw [hprice, Option.bind_some] at hfingerprint
    rw [Option.any_some, Attribution.fixedPrice]
    by_cases hupstream : ((recording.request.attribution pricingFingerprint registration
        stage.selector).cost pricingFingerprint registration).costMode = .passthrough
    · rw [hunresolved (by simp [hmode, hupstream]) (by simp [hmode, hupstream]), hupstream]
      simp
    · have hsource := serviceUsageCost_repriceable recording.responseCost hupstream
      have hresolve := h.resolveRow_eq hpassthrough
        (by rw [hmode]; exact fixed_or_none_of_ne hupstream)
      rw [husage, serviceUsageCost_pricingRuleName, hprice, Option.bind_some,
        reprice_attribution _ _ _ _ hsource haccessa] at hresolve
      rw [isSome_changeOf_eq hresolve]
      rcases fixed_or_none_of_ne hupstream with hfixed | hfree
      · have hfixed := Option.some.inj hfixed
        have hsource' := h.costSource
        rw [husage, serviceUsageCost_costSource hupstream] at hsource'
        have hestimated := h.estimatedCost
        rw [husage, serviceUsageCost, hfixed] at hestimated
        rw [any_chargeable_fixed _ hfixed (by rw [hmode, hfixed]) hsource' hestimated hname
          hfingerprint, hfixed]
        simp [Bool.and_left_comm]
      · have hfree := Option.some.inj hfree
        have hsource' : row.costSource = some .none := by
          rw [h.costSource, husage, serviceUsageCost, hfree]
        have hestimated : row.estimatedCost = none := by
          rw [h.estimatedCost, husage, serviceUsageCost, hfree]
          split <;> rfl
        rw [any_chargeable_free _ (by rw [hmode, hfree]) hsource' hestimated hname hfingerprint,
          hfree]
        simp

/-- The row of a request changes under the same registration just when the request was not charged a
fixed price that can be found again. -/
theorem RowOf.isSome_changeOf (h : RowOf pricingFingerprint registration recording row) :
    (changeOf pricingFingerprint registration registration row).isSome =
      recording.uncharged pricingFingerprint registration := by
  by_cases hexempt :
      registration.accessa = true ∨ recording.request.litellmPassthrough = true
  · rw [changeOf, h.resolveRow_exempt hexempt]
    unfold Recording.uncharged
    rcases hexempt with haccessa | hpassthrough
    · simp [haccessa]
    · simp [hpassthrough]
  · obtain ⟨haccessa, hpassthrough⟩ := not_or.mp hexempt
    rw [Bool.not_eq_true] at haccessa hpassthrough
    cases hsocket : recording.request.socket with
    | true => exact h.isSome_changeOf_socket hsocket haccessa hpassthrough
    | false => exact h.isSome_changeOf_http hsocket haccessa hpassthrough

/-! ### Repricing under the same registration -/

variable (pricingFingerprint registration)

/-- Assumes: rows of different ids. A repricing under the same registration updates the requests
that were not charged a fixed price that can be found again. -/
theorem updatedRequests_eq (recordings : List Recording)
    (hids : (recordings.map Recording.id).Nodup) :
    (repriceServiceUsage pricingFingerprint registration registration
        (recordings.map (Recording.row pricingFingerprint · registration))).2.updatedRequests =
      recordings.countP (Recording.uncharged pricingFingerprint · registration) := by
  have hrows : ((recordings.map (Recording.row pricingFingerprint · registration)).map
      UsageRow.id).Nodup := by
    rw [List.map_map]
    exact hids
  rw [repriceServiceUsage_eq _ _ _ _ hrows]
  dsimp only
  rw [countFrom, List.countP_map]
  apply List.countP_congr
  intro recording _
  have hrow := rowOf_row pricingFingerprint registration recording
  rw [Function.comp_apply, hrow.isSome_changeOf, pending, hrow.serviceName]
  simp

/-- Assumes: requests of different ids, recorded under a registration. A repricing under the same
registration leaves every row as it was and counts no update, if and only if none of them was left
uncharged while its price is a fixed amount that the repricer finds again. -/
theorem repricing_unchanged_iff (recordings : List Recording)
    (hids : (recordings.map Recording.id).Nodup) :
    (let rows := recordings.map (Recording.row pricingFingerprint · registration)
      let repriced := repriceServiceUsage pricingFingerprint registration registration rows
      repriced.1 = rows ∧ repriced.2.updatedRequests = 0) ↔
      ∀ recording ∈ recordings, recording.uncharged pricingFingerprint registration = false := by
  have hzero : (recordings.countP (Recording.uncharged pricingFingerprint · registration)) = 0 ↔
      ∀ recording ∈ recordings, recording.uncharged pricingFingerprint registration = false := by
    rw [List.countP_eq_zero]
    simp only [Bool.not_eq_true]
  dsimp only
  rw [updatedRequests_eq _ _ _ hids, hzero, and_iff_right_iff_imp]
  intro hcharged
  have hrows : ((recordings.map (Recording.row pricingFingerprint · registration)).map
      UsageRow.id).Nodup := by
    rw [List.map_map]
    exact hids
  rw [repriceServiceUsage_eq _ _ _ _ hrows, List.map_map]
  apply List.map_congr_left
  intro recording hrecording
  have hsame : changeOf pricingFingerprint registration registration
      (recording.row pricingFingerprint registration) = none := by
    have hchange := (rowOf_row pricingFingerprint registration recording).isSome_changeOf
    rw [hcharged recording hrecording, Option.isSome_eq_false_iff,
      Option.isNone_iff_eq_none] at hchange
    exact hchange
  rw [Function.comp_apply, repriceFrom, repriceRow, hsame]
  split <;> rfl

/-- A service with a price of one cent: a request that is forwarded and one that is rejected before
its price is prepared are left as they are. -/
theorem repricing_unchanged_charged :
    let registration : ServiceRegistration :=
      ⟨[115], false, .fixed, some ⟨1000000, by decide⟩, [], []⟩
    let request : ServiceRequest := ⟨false, false, ⟨[71, 69, 84], by decide, by decide⟩, [47]⟩
    let recordings : List Recording :=
      [⟨request, [.prepare, .resolve none], none, none, .logging true false, .blank, 1, 7⟩,
        ⟨request, [], none, none, .terminalUsage, .blank, 2, 8⟩]
    (let rows := recordings.map (Recording.row (fun _ ↦ []) · registration)
      let repriced := repriceServiceUsage (fun _ ↦ []) registration registration rows
      repriced.1 = rows ∧ repriced.2.updatedRequests = 0) :=
  (repricing_unchanged_iff (fun _ ↦ []) ⟨[115], false, .fixed, some ⟨1000000, by decide⟩, [], []⟩
    [⟨⟨false, false, ⟨[71, 69, 84], by decide, by decide⟩, [47]⟩, [.prepare, .resolve none], none,
        none, .logging true false, .blank, 1, 7⟩,
      ⟨⟨false, false, ⟨[71, 69, 84], by decide, by decide⟩, [47]⟩, [], none, none, .terminalUsage,
        .blank, 2, 8⟩] (by decide)).mpr (by decide)

/-- A service with a price of one cent: a request that is rejected after its price was prepared has
no cost, and the repricing gives it one. -/
theorem repricing_charges_rejected :
    ¬ ∀ (pricingFingerprint : Selector → Text) (registration : ServiceRegistration)
      (recordings : List Recording), (recordings.map Recording.id).Nodup →
      let rows := recordings.map (Recording.row pricingFingerprint · registration)
      let repriced := repriceServiceUsage pricingFingerprint registration registration rows
      repriced.1 = rows ∧ repriced.2.updatedRequests = 0 := by
  intro hunchanged
  have hupdated := (hunchanged (fun _ ↦ []) ⟨[115], false, .fixed,
    some ⟨1000000, by decide⟩, [], []⟩
    [⟨⟨false, false, ⟨[71, 69, 84], by decide, by decide⟩, [47]⟩, [.prepare], none, none,
      .terminalUsage, .blank, 1, 7⟩] (by decide)).2
  rw [updatedRequests_eq _ _ _ (by decide)] at hupdated
  exact absurd hupdated (by decide)

end Relayna.Usage

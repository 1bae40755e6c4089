import Relayna.Policy.KeyPolicy
import Relayna.Pricing.Endpoints
import Relayna.Usage.Recording

/-!
# The estimate before the body is known

`crates/gateway-proxy/src/pingora_plane.rs` and `crates/gateway-core/src/services.rs`: a request to
a service is admitted with an estimate that `prepare_service_cost_for_ctx` puts into its route
match. The price is resolved from the body later, and again whenever the body has been rewritten.

`preflight_covers_final` says that a fixed price, however often and from whatever bodies it is
resolved, is at most the estimate. A free endpoint has neither, since both functions give it back
before they look at the body rules.
-/

set_option autoImplicit false
set_option relaxedAutoImplicit false

namespace Relayna.Usage.Preflight

open Relayna.Pricing
open Relayna.Policy (Provider)

/-! ### The route match and the context -/

/-- What pricing reads and writes of `RouteMatch`. -/
structure RouteMatch where
  provider : Provider
  estimatedCostUsd : Option Price

/-- What pricing reads and writes of `PingoraContext`. -/
structure Context where
  routeMatch : Option RouteMatch
  pricing : PricingContext

/-- The larger of two prices: `f64::max`. -/
def largerPrice (current cost : Price) : Price :=
  if current.units ≤ cost.units then cost else current

/-- One step of the fold of `service_preflight_estimated_cost`. -/
def raiseTo (highest : Option Price) (cost : Price) : Option Price :=
  some (highest.elim cost fun current ↦ largerPrice current cost)

def servicePreflightEstimatedCost (defaultCostMode : ServiceCostMode)
    (defaultEstimatedCostUsd : Option Price) (rules : List ServicePricingRule) : Option Price :=
  ((rules.filter fun rule ↦ decide (rule.costMode = .fixed)).filterMap
    fun rule ↦ rule.estimatedCostUsd).foldl raiseTo
      (if defaultCostMode = .fixed then defaultEstimatedCostUsd else none)

def fixedAmount (cost : ResolvedServiceCost) : Option Price :=
  match cost.costMode with
  | .fixed => cost.estimatedCostUsd
  | .passthrough | .none => none

def freeEndpoint (pricing : PricingContext) : Prop :=
  pricing.resolvedEndpointCost.isSome ∧ pricing.base.costMode = .none

instance (pricing : PricingContext) : Decidable (freeEndpoint pricing) :=
  inferInstanceAs (Decidable (_ ∧ _))

def prepareServiceCostForCtx (ctx : Context) : Context :=
  match ctx.routeMatch with
  | none => ctx
  | some matched =>
    if matched.provider ≠ .internalService then ctx
    else
      let base := ctx.pricing.base
      let pricing := { ctx.pricing with resolvedServiceCost := some base }
      if freeEndpoint ctx.pricing then
        ⟨some { matched with estimatedCostUsd := none }, pricing⟩
      else
        ⟨some { matched with
          estimatedCostUsd := servicePreflightEstimatedCost base.costMode base.estimatedCostUsd
            ctx.pricing.servicePricingRules }, pricing⟩

variable (pricingFingerprint : Selector → Text)

def resolveServiceCostForCtx (ctx : Context) (selector : Option (Text → Option Text)) : Context :=
  match ctx.routeMatch with
  | none => ctx
  | some matched =>
    if matched.provider ≠ .internalService then ctx
    else
      let base := ctx.pricing.base
      if freeEndpoint ctx.pricing then
        ⟨some { matched with estimatedCostUsd := none },
          { ctx.pricing with resolvedServiceCost := some base }⟩
      else
        let resolved :=
          match selector with
          | none => base
          | some member =>
            let resolved := resolveServiceCostFromValue pricingFingerprint member base.costMode
              base.estimatedCostUsd ctx.pricing.servicePricingRules
            if (matchingServicePricingRule member ctx.pricing.servicePricingRules).isSome then
              resolved
            else
              { resolved with
                pricingRuleName := base.pricingRuleName
                pricingRuleFingerprint := base.pricingRuleFingerprint }
        ⟨some { matched with estimatedCostUsd := fixedAmount resolved },
          { ctx.pricing with resolvedServiceCost := some resolved }⟩

/-! ### The estimate is a bound -/

/-- At least a price. -/
def Covers (estimate : Option Price) (price : Price) : Prop :=
  ∃ ceiling, estimate = some ceiling ∧ price.units ≤ ceiling.units

theorem Covers.raiseTo {estimate : Option Price} {price : Price} (hcovers : Covers estimate price)
    (cost : Price) : Covers (raiseTo estimate cost) price := by
  obtain ⟨ceiling, rfl, hle⟩ := hcovers
  refine ⟨largerPrice ceiling cost, rfl, ?_⟩
  unfold largerPrice
  split_ifs with hraise
  · exact hle.trans hraise
  · exact hle

theorem covers_raiseTo (estimate : Option Price) (cost : Price) :
    Covers (raiseTo estimate cost) cost := by
  rcases estimate with _ | current
  · exact ⟨cost, rfl, le_rfl⟩
  · refine ⟨largerPrice current cost, rfl, ?_⟩
    unfold largerPrice
    split_ifs with hraise
    · exact le_rfl
    · exact (not_le.mp hraise).le

/-- A fold covers what it started with and every price that it went over. -/
theorem covers_foldl {estimate : Option Price} {price : Price} (costs : List Price)
    (hcovers : Covers estimate price ∨ price ∈ costs) :
    Covers (costs.foldl raiseTo estimate) price := by
  induction costs generalizing estimate with
  | nil => exact hcovers.resolve_right List.not_mem_nil
  | cons cost costs ih =>
    rw [List.foldl_cons]
    rcases hcovers with hcovers | hmem
    · exact ih (Or.inl (hcovers.raiseTo cost))
    · rcases List.mem_cons.mp hmem with rfl | hmem
      · exact ih (Or.inl (covers_raiseTo estimate price))
      · exact ih (Or.inr hmem)

/-- The estimate covers a fixed default price. -/
theorem covers_default {rules : List ServicePricingRule} {price : Price} :
    Covers (servicePreflightEstimatedCost .fixed (some price) rules) price :=
  covers_foldl _ (Or.inl ⟨price, rfl, le_rfl⟩)

/-- The estimate covers every fixed price of a body rule. -/
theorem covers_rule (costMode : ServiceCostMode) (estimatedCostUsd : Option Price)
    {rules : List ServicePricingRule} {rule : ServicePricingRule} {price : Price}
    (hrule : rule ∈ rules) (hfixed : rule.costMode = .fixed)
    (hprice : rule.estimatedCostUsd = some price) :
    Covers (servicePreflightEstimatedCost costMode estimatedCostUsd rules) price := by
  refine covers_foldl _ (Or.inr (List.mem_filterMap.mpr ⟨rule, ?_, hprice⟩))
  exact List.mem_filter.mpr ⟨hrule, decide_eq_true hfixed⟩

/-! ### The price of a request -/

/-- Both fixed prices that `validate_cost` accepts and no others are there. -/
theorem price_of_validateCost {costMode : ServiceCostMode} {estimatedCostUsd : Option Price}
    (hvalid : validateCost costMode estimatedCostUsd = .ok ()) (hfixed : costMode = .fixed) :
    ∃ price, estimatedCostUsd = some price := by
  rcases estimatedCostUsd with _ | price
  · simp [validateCost, hfixed] at hvalid
  · exact ⟨price, rfl⟩

/-- A registration whose prices `validate_cost` accepts. -/
structure ValidCosts (registration : ServiceRegistration) : Prop where
  default : validateCost registration.costMode registration.estimatedCostUsd = .ok ()
  body : ∀ rule ∈ registration.pricingRules,
    validateCost rule.costMode rule.estimatedCostUsd = .ok ()
  endpoint : ∀ rule ∈ registration.endpointPricingRules,
    validateCost rule.costMode rule.estimatedCostUsd = .ok ()

section Request

variable {pricingFingerprint} {registration : ServiceRegistration} {request : ServiceRequest}

/-- Assumes: valid prices. The price of a request before its body is known has an amount if it is
fixed. -/
theorem base_price (hvalid : ValidCosts registration)
    (hfixed : (configureServicePricingContext pricingFingerprint registration
      request).base.costMode = .fixed) :
    ∃ price, (configureServicePricingContext pricingFingerprint registration
      request).base.estimatedCostUsd = some price := by
  unfold PricingContext.base at hfixed ⊢
  rcases hcost : (configureServicePricingContext pricingFingerprint registration
    request).resolvedEndpointCost with _ | cost
  · rw [hcost, Option.getD_none] at hfixed
    exact price_of_validateCost hvalid.default hfixed
  · rw [hcost, Option.getD_some] at hfixed
    have hresolved : resolveEndpointPricingRule pricingFingerprint request.method
      request.endpointPath registration.endpointPricingRules = some cost := hcost
    rw [resolveEndpointPricingRule_eq] at hresolved
    obtain ⟨rule, hchosen, rfl⟩ := Option.map_eq_some_iff.mp hresolved
    have hrule : rule ∈ registration.endpointPricingRules :=
      (List.mem_filter.mp (Library.isTop_of_lastMax hchosen).1).1
    exact price_of_validateCost (hvalid.endpoint rule hrule) hfixed

/-- Where a price comes from: a free endpoint, the price before the body, or a body rule. -/
theorem resolvedCost_cases (pricing : PricingContext) (selector : Option (Text → Option Text)) :
    (freeEndpoint pricing ∧ pricing.resolvedCost pricingFingerprint selector = pricing.base) ∨
    ¬ freeEndpoint pricing ∧
      (((pricing.resolvedCost pricingFingerprint selector).costMode = pricing.base.costMode ∧
        (pricing.resolvedCost pricingFingerprint selector).estimatedCostUsd =
          pricing.base.estimatedCostUsd) ∨
      ∃ rule ∈ pricing.servicePricingRules,
        (pricing.resolvedCost pricingFingerprint selector).costMode = rule.costMode ∧
        (pricing.resolvedCost pricingFingerprint selector).estimatedCostUsd =
          rule.estimatedCostUsd) := by
  unfold PricingContext.resolvedCost
  by_cases hfree : freeEndpoint pricing
  · exact Or.inl ⟨hfree, if_pos hfree⟩
  · refine Or.inr ⟨hfree, ?_⟩
    dsimp only
    rw [if_neg (show ¬ (_ ∧ _) from hfree)]
    rcases selector with _ | member
    · exact Or.inl ⟨rfl, rfl⟩
    · dsimp only
      unfold resolveServiceCostFromValue
      rcases hmatched : matchingServicePricingRule member pricing.servicePricingRules with _ | rule
      · exact Or.inl ⟨rfl, rfl⟩
      · exact Or.inr ⟨rule, List.mem_of_find?_eq_some hmatched, rfl, rfl⟩

/-- Assumes: valid prices. A fixed price, from whatever body, is covered by the estimate. -/
theorem resolvedCost_covered (hvalid : ValidCosts registration)
    (selector : Option (Text → Option Text))
    (hfixed : ((configureServicePricingContext pricingFingerprint registration
      request).resolvedCost pricingFingerprint selector).costMode = .fixed) :
    ¬ freeEndpoint (configureServicePricingContext pricingFingerprint registration request) ∧
    ∃ price, ((configureServicePricingContext pricingFingerprint registration
        request).resolvedCost pricingFingerprint selector).estimatedCostUsd = some price ∧
      Covers (servicePreflightEstimatedCost
        (configureServicePricingContext pricingFingerprint registration request).base.costMode
        (configureServicePricingContext pricingFingerprint registration
          request).base.estimatedCostUsd registration.pricingRules) price := by
  rcases resolvedCost_cases (configureServicePricingContext pricingFingerprint registration
      request) selector with ⟨hfree, hbase⟩ |
        ⟨hpriced, ⟨hmode, hcost⟩ | ⟨rule, hrule, hmode, hcost⟩⟩
  · rw [hbase, hfree.2] at hfixed
    exact absurd hfixed (by decide)
  · refine ⟨hpriced, ?_⟩
    obtain ⟨price, hprice⟩ := base_price hvalid (hmode.symm.trans hfixed)
    refine ⟨price, hcost.trans hprice, ?_⟩
    rw [← hmode, hfixed, hprice]
    exact covers_default
  · refine ⟨hpriced, ?_⟩
    have hrulefixed := hmode.symm.trans hfixed
    obtain ⟨price, hprice⟩ := price_of_validateCost (hvalid.body rule hrule) hrulefixed
    exact ⟨price, hcost.trans hprice, covers_rule _ _ hrule hrulefixed hprice⟩

end Request

/-! ### Runs -/

/-- A request to a service whose price has been resolved, if at all, from `pricing`. -/
structure Resolved (pricing : PricingContext) (ctx : Context) : Prop where
  service : ∃ matched, ctx.routeMatch = some matched ∧ matched.provider = .internalService
  price : ∃ selector, ctx.pricing =
    { pricing with resolvedServiceCost := some (pricing.resolvedCost pricingFingerprint selector) }

variable {pricingFingerprint} {pricing : PricingContext} {ctx : Context}

/-- Without a body, the price is the one before the body. -/
theorem resolvedCost_none (pricing : PricingContext) :
    pricing.resolvedCost pricingFingerprint none = pricing.base := by
  simp [PricingContext.resolvedCost]

/-- Assumes: a request to a service. What `prepare_service_cost_for_ctx` sets. -/
theorem prepareServiceCostForCtx_service {matched : RouteMatch}
    (hmatched : ctx.routeMatch = some matched) (hservice : matched.provider = .internalService) :
    prepareServiceCostForCtx ctx =
      ⟨some { matched with
        estimatedCostUsd :=
          if freeEndpoint ctx.pricing then none
          else servicePreflightEstimatedCost ctx.pricing.base.costMode
            ctx.pricing.base.estimatedCostUsd ctx.pricing.servicePricingRules },
        Usage.prepareServiceCostForCtx ctx.pricing⟩ := by
  unfold prepareServiceCostForCtx
  rw [hmatched]
  dsimp only
  rw [if_neg (not_not.mpr hservice)]
  split_ifs <;> rfl

/-- Assumes: a request to a service. The price that `resolve_service_cost_for_ctx` sets, and what it
makes of the estimate. -/
theorem resolveServiceCostForCtx_service {matched : RouteMatch}
    (hmatched : ctx.routeMatch = some matched) (hservice : matched.provider = .internalService)
    (selector : Option (Text → Option Text)) :
    resolveServiceCostForCtx pricingFingerprint ctx selector =
      ⟨some { matched with
        estimatedCostUsd := fixedAmount (ctx.pricing.resolvedCost pricingFingerprint selector) },
        Usage.resolveServiceCostForCtx pricingFingerprint ctx.pricing selector⟩ := by
  unfold resolveServiceCostForCtx Usage.resolveServiceCostForCtx PricingContext.resolvedCost
  rw [hmatched]
  dsimp only
  rw [if_neg (not_not.mpr hservice)]
  by_cases hfree : freeEndpoint ctx.pricing
  · rw [if_pos hfree, if_pos (show _ ∧ _ from hfree), fixedAmount, hfree.2]
  · rw [if_neg (show ¬ (_ ∧ _) from hfree)]
    exact if_neg hfree

/-- Every stage after the first keeps a resolved request resolved. -/
theorem Resolved.resolve (hresolved : Resolved pricingFingerprint pricing ctx)
    (selector : Option (Text → Option Text)) :
    Resolved pricingFingerprint pricing
      (resolveServiceCostForCtx pricingFingerprint ctx selector) := by
  obtain ⟨⟨matched, hmatched, hservice⟩, _, hprice⟩ := hresolved
  rw [resolveServiceCostForCtx_service hmatched hservice, hprice]
  exact ⟨⟨_, rfl, hservice⟩, selector, rfl⟩

/-- However often the price is resolved. -/
theorem Resolved.resolves (hresolved : Resolved pricingFingerprint pricing ctx)
    (selectors : List (Option (Text → Option Text))) :
    Resolved pricingFingerprint pricing
      (selectors.foldl (resolveServiceCostForCtx pricingFingerprint) ctx) := by
  induction selectors generalizing ctx with
  | nil => exact hresolved
  | cons selector selectors ih => exact ih (hresolved.resolve selector)

/-- Assumes: a registration with valid prices, and a request that is routed to it. If the price that
is finally resolved, however often and from whatever bodies, is fixed, then it has an amount, and
the estimate from before the body is there and is at least this amount. -/
theorem preflight_covers_final (pricingFingerprint : Selector → Text)
    (registration : ServiceRegistration) (request : ServiceRequest)
    (estimatedCostUsd : Option Price) (selectors : List (Option (Text → Option Text)))
    (cost : ResolvedServiceCost) (hvalid : ValidCosts registration)
    (hcost : (selectors.foldl (resolveServiceCostForCtx pricingFingerprint)
      (prepareServiceCostForCtx ⟨some ⟨.internalService, estimatedCostUsd⟩,
        configureServicePricingContext pricingFingerprint registration
          request⟩)).pricing.resolvedServiceCost = some cost)
    (hfixed : cost.costMode = .fixed) :
    ∃ price ceiling, cost.estimatedCostUsd = some price ∧
      (prepareServiceCostForCtx ⟨some ⟨.internalService, estimatedCostUsd⟩,
        configureServicePricingContext pricingFingerprint registration
          request⟩).routeMatch.bind (fun matched ↦ matched.estimatedCostUsd) = some ceiling ∧
      price.units ≤ ceiling.units := by
  have hprepared := @prepareServiceCostForCtx_service
    ⟨some ⟨.internalService, estimatedCostUsd⟩,
      configureServicePricingContext pricingFingerprint registration request⟩
    ⟨.internalService, estimatedCostUsd⟩ rfl rfl
  have hresolved : Resolved pricingFingerprint
      (configureServicePricingContext pricingFingerprint registration request)
      (prepareServiceCostForCtx ⟨some ⟨.internalService, estimatedCostUsd⟩,
        configureServicePricingContext pricingFingerprint registration request⟩) := by
    rw [hprepared]
    refine ⟨⟨_, rfl, rfl⟩, none, ?_⟩
    rw [resolvedCost_none]
    rfl
  obtain ⟨-, selector, hfinal⟩ := hresolved.resolves selectors
  rw [hfinal, Option.some.injEq] at hcost
  subst hcost
  obtain ⟨hpriced, price, hprice, ceiling, hceiling, hle⟩ := resolvedCost_covered hvalid selector
    hfixed
  refine ⟨price, ceiling, hprice, ?_, hle⟩
  rw [hprepared, Option.bind_some, if_neg hpriced]
  exact hceiling

/-- A service with a fixed price and a higher one for an engine. -/
def ocrRegistration : ServiceRegistration where
  name := [111, 99, 114]
  accessa := false
  costMode := .fixed
  estimatedCostUsd := some ⟨1, by decide⟩
  pricingRules := [⟨none, [47, 101], [100], .fixed, some ⟨50, by decide⟩⟩]
  endpointPricingRules := []

def ocrRequest : ServiceRequest :=
  ⟨false, false, ⟨[71, 69, 84], by decide, by decide⟩, [47]⟩

/-- The body selects the higher price. -/
theorem preflight_covers_ocr :
    ∃ price ceiling, (bodyServiceCost (fun _ ↦ [])
        ⟨none, [47, 101], [100], .fixed, some ⟨50, by decide⟩⟩).estimatedCostUsd = some price ∧
      (prepareServiceCostForCtx ⟨some ⟨.internalService, none⟩,
        configureServicePricingContext (fun _ ↦ []) ocrRegistration ocrRequest⟩).routeMatch.bind
          (fun matched ↦ matched.estimatedCostUsd) = some ceiling ∧
      price.units ≤ ceiling.units := by
  have hvalid : ValidCosts ocrRegistration := by
    constructor
    · decide
    · intro rule hrule
      rw [List.mem_singleton.mp hrule]
      decide
    · intro rule hrule
      cases hrule
  exact preflight_covers_final (fun _ ↦ []) ocrRegistration ocrRequest none
    [none, some fun _ ↦ some [100]] _ hvalid rfl rfl

end Relayna.Usage.Preflight

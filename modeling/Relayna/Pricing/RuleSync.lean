import Mathlib.Data.List.Nodup
import Relayna.Pricing.Endpoints

/-!
# Prices after an OpenAPI sync

`merge_endpoint_pricing_rules` goes over the endpoints of a new document, keeps the price of each
one that has a rule and adds a rule for each other one, and then keeps the rules without an
endpoint. Rules and endpoints are matched by their identities, so the two passes select what the
other one leaves out.

`merge_keeps_prices` says that no price is lost, that every endpoint has one, and that a second sync
with the same document changes nothing.
-/

set_option autoImplicit false
set_option relaxedAutoImplicit false

namespace Relayna.Pricing

open Relayna.Library.Json

/-! ### The merge -/

/-- The test of the first pass: whether a rule is that of an endpoint. -/
def sameEndpoint (endpoint : ServiceOpenApiEndpoint) (rule : ServiceEndpointPricingRule) : Bool :=
  eqIgnoreAsciiCase rule.method endpoint.method &&
    decide (normalizedEndpointTemplate rule.pathTemplate =
      normalizedEndpointTemplate endpoint.pathTemplate)

/-- The test of the second pass: whether an endpoint is that of a rule. -/
def sameRule (rule : ServiceEndpointPricingRule) (endpoint : ServiceOpenApiEndpoint) : Bool :=
  eqIgnoreAsciiCase endpoint.method rule.method &&
    decide (normalizedEndpointTemplate endpoint.pathTemplate =
      normalizedEndpointTemplate rule.pathTemplate)

/-- A rule with the spelling and the operation of its endpoint. -/
def ServiceEndpointPricingRule.follow (rule : ServiceEndpointPricingRule)
    (endpoint : ServiceOpenApiEndpoint) : ServiceEndpointPricingRule :=
  { rule with pathTemplate := endpoint.pathTemplate, operationId := endpoint.operationId }

/-- The rule of an endpoint that had none. -/
def newRule (defaultCostMode : ServiceCostMode) (defaultEstimatedCostUsd : Option Price)
    (endpoint : ServiceOpenApiEndpoint) : ServiceEndpointPricingRule where
  method := endpoint.method
  pathTemplate := endpoint.pathTemplate
  operationId := endpoint.operationId
  costMode := if endpoint.relaynaDefault then .none else defaultCostMode
  estimatedCostUsd := if endpoint.relaynaDefault then none else defaultEstimatedCostUsd

/-- The rule of an endpoint after the merge. -/
def mergedRule (existing : List ServiceEndpointPricingRule) (defaultCostMode : ServiceCostMode)
    (defaultEstimatedCostUsd : Option Price) (endpoint : ServiceOpenApiEndpoint) :
    ServiceEndpointPricingRule :=
  ((existing.find? (sameEndpoint endpoint)).map fun rule ↦ rule.follow endpoint).getD
    (newRule defaultCostMode defaultEstimatedCostUsd endpoint)

/-- `merge_endpoint_pricing_rules`. -/
def mergeEndpointPricingRules (endpoints : List ServiceOpenApiEndpoint)
    (existing : List ServiceEndpointPricingRule) (defaultCostMode : ServiceCostMode)
    (defaultEstimatedCostUsd : Option Price) : List ServiceEndpointPricingRule :=
  endpoints.map (mergedRule existing defaultCostMode defaultEstimatedCostUsd) ++
    existing.filter fun rule ↦ !endpoints.any (sameRule rule)

/-! ### Both passes compare identities -/

theorem sameEndpoint_iff (endpoint : ServiceOpenApiEndpoint) (rule : ServiceEndpointPricingRule) :
    sameEndpoint endpoint rule = true ↔ rule.identity = endpoint.identity := by
  simp [sameEndpoint, eqIgnoreAsciiCase, ServiceEndpointPricingRule.identity,
    ServiceOpenApiEndpoint.identity]

theorem sameRule_iff (rule : ServiceEndpointPricingRule) (endpoint : ServiceOpenApiEndpoint) :
    sameRule rule endpoint = true ↔ endpoint.identity = rule.identity := by
  simp [sameRule, eqIgnoreAsciiCase, ServiceEndpointPricingRule.identity,
    ServiceOpenApiEndpoint.identity]

/-- Assumes: a rule of the endpoint. The spelling of the endpoint does not change its identity. -/
theorem identity_follow {rule : ServiceEndpointPricingRule} {endpoint : ServiceOpenApiEndpoint}
    (hsame : rule.identity = endpoint.identity) :
    (rule.follow endpoint).identity = endpoint.identity := by
  rw [ServiceEndpointPricingRule.identity, ServiceOpenApiEndpoint.identity,
    Prod.mk.injEq] at hsame
  show (toAsciiUppercase rule.method, _) = (toAsciiUppercase endpoint.method, _)
  rw [hsame.1]
  rfl

section Merge

variable {endpoints : List ServiceOpenApiEndpoint} {existing : List ServiceEndpointPricingRule}
  (costMode : ServiceCostMode) (estimatedCostUsd : Option Price)

/-- The rule of an endpoint, by whether it had one. -/
theorem mergedRule_cases (existing : List ServiceEndpointPricingRule)
    (endpoint : ServiceOpenApiEndpoint) :
    (∃ rule ∈ existing, rule.identity = endpoint.identity ∧
      mergedRule existing costMode estimatedCostUsd endpoint = rule.follow endpoint) ∨
    (endpoint.identity ∉ existing.map ServiceEndpointPricingRule.identity ∧
      mergedRule existing costMode estimatedCostUsd endpoint =
        newRule costMode estimatedCostUsd endpoint) := by
  unfold mergedRule
  rcases hfound : existing.find? (sameEndpoint endpoint) with _ | rule
  · refine Or.inr ⟨?_, rfl⟩
    intro hmem
    obtain ⟨rule, hrule, hsame⟩ := List.mem_map.mp hmem
    exact List.find?_eq_none.mp hfound rule hrule ((sameEndpoint_iff endpoint rule).mpr hsame)
  · exact Or.inl ⟨rule, List.mem_of_find?_eq_some hfound,
      (sameEndpoint_iff endpoint rule).mp (List.find?_some hfound), rfl⟩

@[simp] theorem identity_mergedRule (existing : List ServiceEndpointPricingRule)
    (endpoint : ServiceOpenApiEndpoint) :
    (mergedRule existing costMode estimatedCostUsd endpoint).identity = endpoint.identity := by
  rcases mergedRule_cases costMode estimatedCostUsd existing endpoint with
    ⟨rule, -, hsame, hmerged⟩ | ⟨-, hmerged⟩
  · rw [hmerged, identity_follow hsame]
  · rw [hmerged]
    rfl

/-- The rules that the second pass keeps. -/
theorem mem_kept_iff {rule : ServiceEndpointPricingRule} :
    rule ∈ (existing.filter fun rule ↦ !endpoints.any (sameRule rule)) ↔
      rule ∈ existing ∧ rule.identity ∉ endpoints.map ServiceOpenApiEndpoint.identity := by
  simp [List.mem_filter, sameRule_iff]

/-- The identities of both passes. -/
theorem map_identity_merge :
    (mergeEndpointPricingRules endpoints existing costMode estimatedCostUsd).map
        ServiceEndpointPricingRule.identity =
      endpoints.map ServiceOpenApiEndpoint.identity ++
        (existing.filter fun rule ↦ !endpoints.any (sameRule rule)).map
          ServiceEndpointPricingRule.identity := by
  simp [mergeEndpointPricingRules, Function.comp_def]

/-- Assumes: no identity twice among the endpoints, nor among the rules. None is there twice after
the merge. -/
theorem nodup_merge (hendpoints : (endpoints.map ServiceOpenApiEndpoint.identity).Nodup)
    (hexisting : (existing.map ServiceEndpointPricingRule.identity).Nodup) :
    ((mergeEndpointPricingRules endpoints existing costMode estimatedCostUsd).map
      ServiceEndpointPricingRule.identity).Nodup := by
  rw [map_identity_merge]
  refine List.Nodup.append hendpoints (hexisting.sublist (List.filter_sublist.map _)) ?_
  intro identity hendpoint hkept
  obtain ⟨rule, hrule, rfl⟩ := List.mem_map.mp hkept
  exact (mem_kept_iff.mp hrule).2 hendpoint

/-- The identities after the merge are those of both lists. -/
theorem mem_identity_merge (identity : Identity) :
    identity ∈ (mergeEndpointPricingRules endpoints existing costMode estimatedCostUsd).map
        ServiceEndpointPricingRule.identity ↔
      identity ∈ endpoints.map ServiceOpenApiEndpoint.identity ∨
        identity ∈ existing.map ServiceEndpointPricingRule.identity := by
  rw [map_identity_merge, List.mem_append]
  constructor
  · rintro (hendpoint | hkept)
    · exact Or.inl hendpoint
    · obtain ⟨rule, hrule, rfl⟩ := List.mem_map.mp hkept
      exact Or.inr (List.mem_map_of_mem (mem_kept_iff.mp hrule).1)
  · rintro (hendpoint | hexisting)
    · exact Or.inl hendpoint
    · refine or_iff_not_imp_left.mpr fun hnot ↦ ?_
      obtain ⟨rule, hrule, rfl⟩ := List.mem_map.mp hexisting
      exact List.mem_map_of_mem (mem_kept_iff.mpr ⟨hrule, hnot⟩)

/-- Assumes: no identity twice. A rule is the only one with its identity. -/
theorem filter_identity {rules : List ServiceEndpointPricingRule}
    (hnodup : (rules.map ServiceEndpointPricingRule.identity).Nodup)
    {rule : ServiceEndpointPricingRule} (hrule : rule ∈ rules) :
    rules.filter (fun other ↦ decide (other.identity = rule.identity)) = [rule] := by
  obtain ⟨before, after, rfl⟩ := List.append_of_mem hrule
  rw [List.map_append, List.map_cons, List.nodup_middle, List.nodup_cons, List.mem_append,
    not_or] at hnodup
  have hothers : ∀ others : List ServiceEndpointPricingRule,
      rule.identity ∉ others.map ServiceEndpointPricingRule.identity →
      others.filter (fun other ↦ decide (other.identity = rule.identity)) = [] := by
    intro others hnot
    refine List.filter_eq_nil_iff.mpr fun other hother hsame ↦ hnot ?_
    exact List.mem_map.mpr ⟨other, hother, of_decide_eq_true hsame⟩
  rw [List.filter_append, List.filter_cons_of_pos (by simp), hothers before hnodup.1.1,
    hothers after hnodup.1.2]
  rfl

/-- Assumes: no identity twice among the rules. What becomes of one of them: it is kept as it is, or
with the spelling of its endpoint. -/
theorem rule_survives (hexisting : (existing.map ServiceEndpointPricingRule.identity).Nodup)
    {rule : ServiceEndpointPricingRule} (hrule : rule ∈ existing) :
    ∃ kept ∈ mergeEndpointPricingRules endpoints existing costMode estimatedCostUsd,
      kept.identity = rule.identity ∧
      kept = { rule with pathTemplate := kept.pathTemplate, operationId := kept.operationId } := by
  by_cases hendpoint : rule.identity ∈ endpoints.map ServiceOpenApiEndpoint.identity
  · obtain ⟨endpoint, hmem, hsame⟩ := List.mem_map.mp hendpoint
    refine ⟨mergedRule existing costMode estimatedCostUsd endpoint,
      List.mem_append_left _ (List.mem_map_of_mem hmem), ?_, ?_⟩
    · rw [identity_mergedRule, hsame]
    · rcases mergedRule_cases costMode estimatedCostUsd existing endpoint with
        ⟨found, hfound, hidentity, hmerged⟩ | ⟨hnot, -⟩
      · have heq : found = rule :=
          List.inj_on_of_nodup_map hexisting hfound hrule (hidentity.trans hsame)
        rw [hmerged, heq]
        rfl
      · exact absurd (hsame ▸ List.mem_map_of_mem hrule) hnot
  · exact ⟨rule, List.mem_append_right _ (mem_kept_iff.mpr ⟨hrule, hendpoint⟩), rfl, rfl⟩

/-- Assumes: an endpoint without a rule. It gets one. -/
theorem endpoint_added {endpoint : ServiceOpenApiEndpoint} (hendpoint : endpoint ∈ endpoints)
    (hnew : endpoint.identity ∉ existing.map ServiceEndpointPricingRule.identity) :
    newRule costMode estimatedCostUsd endpoint ∈
      mergeEndpointPricingRules endpoints existing costMode estimatedCostUsd := by
  refine List.mem_append_left _ (List.mem_map.mpr ⟨endpoint, hendpoint, ?_⟩)
  rcases mergedRule_cases costMode estimatedCostUsd existing endpoint with
    ⟨found, hfound, hidentity, -⟩ | ⟨-, hmerged⟩
  · exact absurd (hidentity ▸ List.mem_map_of_mem hfound) hnew
  · exact hmerged

/-! ### A second sync -/

theorem follow_mergedRule (existing : List ServiceEndpointPricingRule)
    (endpoint : ServiceOpenApiEndpoint) :
    (mergedRule existing costMode estimatedCostUsd endpoint).follow endpoint =
      mergedRule existing costMode estimatedCostUsd endpoint := by
  rcases mergedRule_cases costMode estimatedCostUsd existing endpoint with
    ⟨rule, -, -, hmerged⟩ | ⟨-, hmerged⟩
  · rw [hmerged]
    rfl
  · rw [hmerged]
    rfl

/-- Assumes: no identity twice among the endpoints, nor among the rules. The same document changes
nothing when it is merged again, under whatever default price. -/
theorem merge_again (hendpoints : (endpoints.map ServiceOpenApiEndpoint.identity).Nodup)
    (hexisting : (existing.map ServiceEndpointPricingRule.identity).Nodup)
    (laterMode : ServiceCostMode) (laterCostUsd : Option Price) :
    mergeEndpointPricingRules endpoints
        (mergeEndpointPricingRules endpoints existing costMode estimatedCostUsd) laterMode
        laterCostUsd =
      mergeEndpointPricingRules endpoints existing costMode estimatedCostUsd := by
  have hnodup := nodup_merge costMode estimatedCostUsd hendpoints hexisting
  have hfirst : ∀ endpoint ∈ endpoints,
      mergedRule (mergeEndpointPricingRules endpoints existing costMode estimatedCostUsd) laterMode
          laterCostUsd endpoint =
        mergedRule existing costMode estimatedCostUsd endpoint := by
    intro endpoint hendpoint
    have hmem : mergedRule existing costMode estimatedCostUsd endpoint ∈
        mergeEndpointPricingRules endpoints existing costMode estimatedCostUsd :=
      List.mem_append_left _ (List.mem_map_of_mem hendpoint)
    rcases mergedRule_cases laterMode laterCostUsd
        (mergeEndpointPricingRules endpoints existing costMode estimatedCostUsd) endpoint with
      ⟨rule, hrule, hidentity, hmerged⟩ | ⟨hnot, -⟩
    · have heq : rule = mergedRule existing costMode estimatedCostUsd endpoint := by
        refine List.inj_on_of_nodup_map hnodup hrule hmem ?_
        rw [hidentity, identity_mergedRule]
      rw [hmerged, heq, follow_mergedRule]
    · refine absurd ?_ hnot
      rw [← identity_mergedRule costMode estimatedCostUsd existing endpoint]
      exact List.mem_map_of_mem hmem
  have hsecond : (mergeEndpointPricingRules endpoints existing costMode estimatedCostUsd).filter
      (fun rule ↦ !endpoints.any (sameRule rule)) =
        existing.filter fun rule ↦ !endpoints.any (sameRule rule) := by
    rw [mergeEndpointPricingRules, List.filter_append, List.filter_filter]
    simp only [Bool.and_self]
    refine List.append_left_eq_self.mpr (List.filter_eq_nil_iff.mpr ?_)
    intro rule hrule hkept
    obtain ⟨endpoint, hendpoint, rfl⟩ := List.mem_map.mp hrule
    have hsame : sameRule (mergedRule existing costMode estimatedCostUsd endpoint) endpoint =
      true :=
      (sameRule_iff _ _).mpr (identity_mergedRule costMode estimatedCostUsd existing endpoint).symm
    simp only [Bool.not_eq_true', List.any_eq_false] at hkept
    exact hkept endpoint hendpoint hsame
  rw [mergeEndpointPricingRules, hsecond, List.map_congr_left hfirst]
  rfl

/-- Assumes: accepted endpoints and accepted rules. After the merge no identity occurs twice, and
the identities are those of both lists. Every rule is there once, with its method and its price;
only the spelling of its template and its operation may have changed. Every endpoint without a rule
has one, with the default price, or with none for the endpoints of the runtime itself. A second
merge of the same endpoints changes nothing. -/
theorem merge_keeps_prices (endpoints : List ServiceOpenApiEndpoint)
    (existing : List ServiceEndpointPricingRule) (defaultCostMode : ServiceCostMode)
    (defaultEstimatedCostUsd : Option Price)
    (hendpoints : validateOpenapiEndpoints endpoints = .ok ())
    (hexisting : validateEndpointPricingRules existing = .ok ()) :
    ((mergeEndpointPricingRules endpoints existing defaultCostMode defaultEstimatedCostUsd).map
      ServiceEndpointPricingRule.identity).Nodup ∧
    (∀ identity, identity ∈ (mergeEndpointPricingRules endpoints existing defaultCostMode
          defaultEstimatedCostUsd).map ServiceEndpointPricingRule.identity ↔
        identity ∈ endpoints.map ServiceOpenApiEndpoint.identity ∨
          identity ∈ existing.map ServiceEndpointPricingRule.identity) ∧
    (∀ rule ∈ existing, ∃ kept,
      (mergeEndpointPricingRules endpoints existing defaultCostMode defaultEstimatedCostUsd).filter
        (fun other ↦ decide (other.identity = rule.identity)) = [kept] ∧
      kept = { rule with pathTemplate := kept.pathTemplate, operationId := kept.operationId }) ∧
    (∀ endpoint ∈ endpoints,
      endpoint.identity ∉ existing.map ServiceEndpointPricingRule.identity →
      (mergeEndpointPricingRules endpoints existing defaultCostMode defaultEstimatedCostUsd).filter
        (fun other ↦ decide (other.identity = endpoint.identity)) =
          [{ method := endpoint.method
             pathTemplate := endpoint.pathTemplate
             operationId := endpoint.operationId
             costMode := if endpoint.relaynaDefault then .none else defaultCostMode
             estimatedCostUsd :=
               if endpoint.relaynaDefault then none else defaultEstimatedCostUsd }]) ∧
    mergeEndpointPricingRules endpoints
        (mergeEndpointPricingRules endpoints existing defaultCostMode defaultEstimatedCostUsd)
        defaultCostMode defaultEstimatedCostUsd =
      mergeEndpointPricingRules endpoints existing defaultCostMode defaultEstimatedCostUsd := by
  have hfirst := nodup_of_validateEach hendpoints
  have hsecond := nodup_of_validateEach hexisting
  have hnodup := nodup_merge defaultCostMode defaultEstimatedCostUsd hfirst hsecond
  refine ⟨hnodup, mem_identity_merge defaultCostMode defaultEstimatedCostUsd, ?_, ?_,
    merge_again defaultCostMode defaultEstimatedCostUsd hfirst hsecond defaultCostMode
      defaultEstimatedCostUsd⟩
  · intro rule hrule
    obtain ⟨kept, hkept, hidentity, hfields⟩ :=
      rule_survives defaultCostMode defaultEstimatedCostUsd hsecond hrule
    refine ⟨kept, ?_, hfields⟩
    rw [← hidentity]
    exact filter_identity hnodup hkept
  · intro endpoint hendpoint hnew
    exact filter_identity hnodup
      (endpoint_added defaultCostMode defaultEstimatedCostUsd hendpoint hnew)

end Merge

/-- An endpoint of the runtime whose parameter has another name than in its rule. -/
def feedEndpoint : ServiceOpenApiEndpoint :=
  ⟨ascii "GET", ascii "/events/{task}", some (ascii "feed"), none, true⟩

/-- An endpoint without a rule. -/
def submitEndpoint : ServiceOpenApiEndpoint :=
  ⟨ascii "POST", ascii "/ocr", some (ascii "submit"), none, false⟩

/-- The rule of the first endpoint. -/
def feedRule : ServiceEndpointPricingRule :=
  ⟨ascii "GET", ascii "/events/{id}", none, .fixed, some ⟨3, by decide⟩⟩

/-- A rule whose endpoint the document no longer has. -/
def retiredRule : ServiceEndpointPricingRule :=
  ⟨ascii "DELETE", ascii "/events/{id}", some (ascii "drop"), .fixed, some ⟨2, by decide⟩⟩

/-- The prices of both rules outlive the sync, the new endpoint has the default price, and a second
sync changes nothing. -/
theorem merge_keeps_prices_feed :
    (∀ rule ∈ [feedRule, retiredRule], ∃ kept,
      (mergeEndpointPricingRules [submitEndpoint, feedEndpoint] [feedRule, retiredRule] .fixed
        (some ⟨1, by decide⟩)).filter
          (fun other ↦ decide (other.identity = rule.identity)) = [kept] ∧
      kept = { rule with pathTemplate := kept.pathTemplate, operationId := kept.operationId }) ∧
    retiredRule.identity ∉ [submitEndpoint, feedEndpoint].map ServiceOpenApiEndpoint.identity ∧
    (mergeEndpointPricingRules [submitEndpoint, feedEndpoint] [feedRule, retiredRule] .fixed
      (some ⟨1, by decide⟩)).filter
        (fun other ↦ decide (other.identity = submitEndpoint.identity)) =
          [⟨ascii "POST", ascii "/ocr", some (ascii "submit"), .fixed, some ⟨1, by decide⟩⟩] ∧
    mergeEndpointPricingRules [submitEndpoint, feedEndpoint]
        (mergeEndpointPricingRules [submitEndpoint, feedEndpoint] [feedRule, retiredRule] .fixed
          (some ⟨1, by decide⟩)) .fixed (some ⟨1, by decide⟩) =
      mergeEndpointPricingRules [submitEndpoint, feedEndpoint] [feedRule, retiredRule] .fixed
        (some ⟨1, by decide⟩) := by
  obtain ⟨-, -, hkept, hadded, hagain⟩ := merge_keeps_prices [submitEndpoint, feedEndpoint]
    [feedRule, retiredRule] .fixed (some ⟨1, by decide⟩) (by decide) (by decide)
  exact ⟨hkept, by decide, hadded submitEndpoint List.mem_cons_self (by decide), hagain⟩

end Relayna.Pricing

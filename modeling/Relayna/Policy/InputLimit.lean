import Relayna.Policy.RequestCheck

/-!
# The limit on input tokens

The check of a complete request compares the estimate of its tokens with the limit of the policy.
The estimate is an `i64`, narrowed to 32 bits before, and one that does not fit is not compared. So
a limit binds for a request unless its estimate is lost in this way or falls below what the request
asks for, and nothing else is wrong with the request: `input_limit_binds_iff`.
-/

set_option autoImplicit false
set_option relaxedAutoImplicit false

namespace Relayna.Policy

open Library.Json

section Usd

variable {Usd : Type} [LinearOrder Usd]

/-- A policy with another limit on input tokens. -/
def withInputLimit (policy : KeyPolicy Usd) (limit : Option ℤ) : KeyPolicy Usd :=
  { policy with maxInputTokensPerRequest := limit }

/-- A limit on input tokens refuses the requests with other tokens, and no more. -/
theorem evaluatePolicyLimits_withInputLimit (policy : KeyPolicy Usd) (limit : ℤ) (now : Timestamp)
    (requestBodyBytes responseBodyBytes inputTokens outputTokens : Option ℤ)
    (estimatedCostUsd : Option Usd) :
    evaluatePolicyLimits (withInputLimit policy (some limit)) now requestBodyBytes
          responseBodyBytes inputTokens outputTokens estimatedCostUsd = .ok () ↔
      evaluatePolicyLimits (withInputLimit policy none) now requestBodyBytes responseBodyBytes none
          outputTokens estimatedCostUsd = .ok () ∧
        ∀ tokens, inputTokens = some tokens → tokens ≤ limit := by
  unfold evaluatePolicyLimits
  simp only [ite_error_eq_ok]
  rcases inputTokens with _ | tokens
  · simp [exceeds, withInputLimit]
  · simp only [withInputLimit, exceeds, Option.any_some, Option.any_none, Bool.or_eq_true,
      decide_eq_true_eq, not_or, not_lt, Bool.false_eq_true, not_false_eq_true, true_and,
      Option.some.injEq, forall_eq']
    tauto

/-- The checks of a complete request besides the one of its input tokens: the length of its body,
its metadata, its features, the hours, the size and the cost, and its output tokens. -/
structure OtherChecks (reader : Reader) (policy : KeyPolicy Usd) (matched : RouteMatch Usd)
    (analyzed : CompleteRequestBody) (features : GenerationFeatures) (now : Timestamp) : Prop where
  length : analyzed.bytes.length ≤ matched.maxBodyBytes
  metadata : ¬ ((analyzed.generation.isNone ∧
      (reader.parse analyzed.bytes).any Tree.isObject) ∨
    (isGeneration matched.route ∧ analyzed.generation.isNone) ∨
    ((isGeneration matched.route ∨
        (analyzed.bytes ≠ [] ∧ matched.route ≠ .anthropicMessageBatches)) ∧
      policy.allowedModels ≠ [] ∧ features.model = none))
  features : checkFeatures reader policy matched analyzed.bytes features = .ok ()
  limits : evaluatePolicyLimits policy now (lengthToI64 analyzed.bytes.length) none none none
    matched.estimatedCostUsd = .ok ()
  output : enforceOutputTokenLimit reader policy matched.route analyzed.bytes = .ok ()

/-- A request is accepted under a limit when it passes the other checks, and its estimate is within
the limit if it fits into 32 bits. -/
theorem checkCompleteRequestPolicy_withInputLimit (reader : Reader) (policy : KeyPolicy Usd)
    (limit : ℤ) (matched : RouteMatch Usd) (analyzed : CompleteRequestBody)
    (features : GenerationFeatures) (now : Timestamp) :
    checkCompleteRequestPolicy reader (withInputLimit policy (some limit)) matched analyzed features
          now = .ok () ↔
      OtherChecks reader (withInputLimit policy none) matched analyzed features now ∧
        ∀ tokens, toI32 (estimateGenerationTokens reader analyzed.bytes) = some tokens →
          tokens ≤ limit := by
  unfold checkCompleteRequestPolicy
  dsimp only
  rw [ite_error_eq_ok, ite_error_eq_ok, then_eq_ok, then_eq_ok, not_lt]
  have hlimits := evaluatePolicyLimits_withInputLimit policy limit now
    (lengthToI64 analyzed.bytes.length) none
    (toI32 (estimateGenerationTokens reader analyzed.bytes)) none matched.estimatedCostUsd
  constructor
  · rintro ⟨hlength, hmetadata, hfeatures, htokens, houtput⟩
    obtain ⟨hrest, hbinds⟩ := hlimits.mp htokens
    exact ⟨⟨hlength, hmetadata, hfeatures, hrest, houtput⟩, hbinds⟩
  · rintro ⟨hother, hbinds⟩
    exact ⟨hother.length, hother.metadata, hother.features, hlimits.mpr ⟨hother.limits, hbinds⟩,
      hother.output⟩

theorem estimateGenerationTokens_pos (reader : Reader) (body : List UInt8) :
    1 ≤ estimateGenerationTokens reader body := by
  unfold estimateGenerationTokens estimateTextTokens
  split
  · exact le_max_right _ _
  · exact le_max_right _ _

/-- A limit on input tokens binds for a request exactly if the exact estimate is within it, or the
estimate of the source fits into 32 bits and is above it, or the request fails another check. -/
theorem input_limit_binds_iff (reader : Reader) (policy : KeyPolicy Usd) (limit : ℤ)
    (matched : RouteMatch Usd) (body : List UInt8) (features : GenerationFeatures)
    (now : Timestamp) :
    (checkCompleteRequestPolicy reader (withInputLimit policy (some limit)) matched
        (.new reader body) features now = .ok () → exactGenerationTokens reader body ≤ limit) ↔
      exactGenerationTokens reader body ≤ limit ∨
        (limit < estimateGenerationTokens reader body ∧
          estimateGenerationTokens reader body < 2 ^ 31) ∨
        ¬ OtherChecks reader (withInputLimit policy none) matched (.new reader body) features
          now := by
  have hpos := estimateGenerationTokens_pos reader body
  rw [checkCompleteRequestPolicy_withInputLimit]
  change (_ ∧ (∀ tokens, toI32 (estimateGenerationTokens reader body) = some tokens →
    tokens ≤ limit) → _) ↔ _
  constructor
  · intro hbinds
    by_contra hfails
    rw [not_or, not_or, not_not] at hfails
    obtain ⟨hlarge, hestimate, hother⟩ := hfails
    refine hlarge (hbinds ⟨hother, fun tokens htokens ↦ ?_⟩)
    unfold toI32 at htokens
    split_ifs at htokens with hfits
    obtain rfl := Option.some.inj htokens
    by_contra habove
    exact hestimate ⟨not_le.mp habove, hfits.2⟩
  · rintro (hwithin | ⟨habove, hfits⟩ | hrefused) ⟨hother, hbinds⟩
    · exact hwithin
    · exact absurd (hbinds _ (if_pos ⟨by omega, hfits⟩)) (not_le.mpr habove)
    · exact absurd hother hrefused

end Usd

/-- A request that asks for three billion tokens. -/
def largeBody : List UInt8 :=
  ascii "\x7b\"model\":\"m\",\"max_tokens\":3000000000\x7d"

def largeReader : Reader :=
  .ofShapes [(largeBody, .object [(ascii "model", .string (ascii "m")),
    (ascii "max_tokens", .number (ascii "3000000000"))])]

/-- The request for three billion tokens is accepted under a limit of ten. -/
theorem large_estimate_not_limited :
    ¬ (checkCompleteRequestPolicy largeReader (withInputLimit modelPolicy (some 10))
        (matchOf .chatCompletions) (.new largeReader largeBody)
        (extractGenerationFeatures largeReader largeBody) 0 = .ok () →
      exactGenerationTokens largeReader largeBody ≤ 10) := by
  have hok : checkCompleteRequestPolicy largeReader (withInputLimit modelPolicy (some 10))
      (matchOf .chatCompletions) (.new largeReader largeBody)
      (extractGenerationFeatures largeReader largeBody) 0 = .ok () := by decide
  have hlarge : exactGenerationTokens largeReader largeBody = 3000000001 := by decide
  intro hbinds
  have hle := hbinds hok
  omega

end Relayna.Policy

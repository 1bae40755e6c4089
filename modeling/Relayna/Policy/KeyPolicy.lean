import Mathlib.Data.List.Sort
import Mathlib.Order.Basic
import Mathlib.Order.MinMax
import Relayna.Common
import Relayna.Library.Json.Grammar

/-!
# Key policies

`crates/gateway-core/src/policies.rs`: what a policy allows (`evaluate_policy`,
`evaluate_policy_limits`), and how the policies of several layers are merged into one
(`resolve_effective_policy`).

Texts are the UTF-8 bytes of the source's strings, since they are only compared. The `i32` and `i64`
limits are integers, and amounts of money a linear order, as only comparisons and minima of them are
taken.
-/

set_option autoImplicit false
set_option relaxedAutoImplicit false

namespace Relayna.Policy

/-! ### Data -/

/-- A string, by its bytes. -/
abbrev Text := List UInt8

/-- Texts are compared byte by byte. -/
instance Text.instLawfulBEq : LawfulBEq Text :=
  inferInstance

inductive Route
  | chatCompletions
  | responses
  | liteLlmEmbeddings
  | liteLlmRerank
  | anthropicMessages
  | anthropicMessagesCountTokens
  | anthropicMessageBatches
  | anthropicMessageBatch
  | anthropicMessageBatchResults
  | anthropicMessageBatchCancel
  | anthropicModels
  | directOpenAi
  | liteLlmPassthrough
  | summary
  | translation
  | ocr
  | embeddings
  | serviceWildcard
  deriving DecidableEq

inductive Provider
  | liteLlm
  | openAiCompatible
  | internalService
  deriving DecidableEq

/-- The errors of `GatewayError` that a policy is refused with. -/
inductive GatewayError
  | policyDenied
  | requestBodyTooLarge
  | responseBodyTooLarge
  | invalidGuardrailRequest
  | guardrailForbidden
  deriving DecidableEq

structure KeyPolicy (Usd : Type) where
  deny : Bool
  allowedRoutes : List Route
  allowedModels : List Text
  allowedProviders : List Provider
  allowedServices : List Text
  rpmLimit : Option ℤ
  tpmLimit : Option ℤ
  dailyBudgetUsd : Option Usd
  monthlyBudgetUsd : Option Usd
  allowStreaming : Bool
  allowTools : Bool
  maxRequestsPerDay : Option ℤ
  maxTokensPerDay : Option ℤ
  maxCostPerRequest : Option Usd
  maxInputTokensPerRequest : Option ℤ
  maxOutputTokensPerRequest : Option ℤ
  allowedHoursUtc : List ℤ
  unusedKeyAutoDisableAfterDays : Option ℤ
  maxRequestBodyBytes : Option ℤ
  maxResponseBodyBytes : Option ℤ
  maxStreamDurationSeconds : Option ℤ
  maxSseEventBytes : Option ℤ
  maxToolCallCount : Option ℤ
  maxToolSchemaBytes : Option ℤ
  policyVersion : ℤ

def KeyPolicy.default (Usd : Type) : KeyPolicy Usd where
  deny := false
  allowedRoutes := [.chatCompletions, .responses]
  allowedModels := []
  allowedProviders := [.liteLlm]
  allowedServices := []
  rpmLimit := none
  tpmLimit := none
  dailyBudgetUsd := none
  monthlyBudgetUsd := none
  allowStreaming := false
  allowTools := false
  maxRequestsPerDay := none
  maxTokensPerDay := none
  maxCostPerRequest := none
  maxInputTokensPerRequest := none
  maxOutputTokensPerRequest := none
  allowedHoursUtc := []
  unusedKeyAutoDisableAfterDays := none
  maxRequestBodyBytes := none
  maxResponseBodyBytes := none
  maxStreamDurationSeconds := none
  maxSseEventBytes := none
  maxToolCallCount := none
  maxToolSchemaBytes := none
  policyVersion := 1

structure GenerationFeatures where
  model : Option Text
  stream : Bool
  tools : Bool
  serviceName : Option Text
  deriving DecidableEq

def GenerationFeatures.default : GenerationFeatures :=
  ⟨none, false, false, none⟩

/-! ### What a policy allows -/

section Usd

variable {Usd : Type} [LinearOrder Usd]

def evaluatePolicy (policy : KeyPolicy Usd) (route : Route) (provider : Provider)
    (features : GenerationFeatures) : Except GatewayError Unit :=
  if policy.deny then .error .policyDenied
  else if policy.allowedRoutes ≠ [] ∧ route ∉ policy.allowedRoutes then .error .policyDenied
  else if policy.allowedProviders ≠ [] ∧ provider ∉ policy.allowedProviders then
    .error .policyDenied
  else if features.serviceName.any fun service ↦
      policy.allowedServices ≠ [] ∧ service ∉ policy.allowedServices then .error .policyDenied
  else if features.model.any fun model ↦
      policy.allowedModels ≠ [] ∧ model ∉ policy.allowedModels then .error .policyDenied
  else if features.stream ∧ !policy.allowStreaming then .error .policyDenied
  else if features.tools ∧ !policy.allowTools then .error .policyDenied
  else .ok ()

/-- `exceeds_i64`, `exceeds_i32` and the comparison of costs: both are present, and the value is
larger. -/
def exceeds {Amount : Type} [LinearOrder Amount] (value limit : Option Amount) : Bool :=
  value.any fun value ↦ limit.any fun limit ↦ limit < value

/-- The hour of an instant, in UTC. -/
def hourUtc (now : Timestamp) : ℤ :=
  now / 3600000000000 % 24

def evaluatePolicyLimits (policy : KeyPolicy Usd) (now : Timestamp)
    (requestBodyBytes responseBodyBytes inputTokens outputTokens : Option ℤ)
    (estimatedCostUsd : Option Usd) : Except GatewayError Unit :=
  if policy.allowedHoursUtc ≠ [] ∧ hourUtc now ∉ policy.allowedHoursUtc then .error .policyDenied
  else if exceeds requestBodyBytes policy.maxRequestBodyBytes then .error .requestBodyTooLarge
  else if exceeds responseBodyBytes policy.maxResponseBodyBytes then .error .responseBodyTooLarge
  else if exceeds inputTokens policy.maxInputTokensPerRequest ||
      exceeds outputTokens policy.maxOutputTokensPerRequest then .error .policyDenied
  else if exceeds estimatedCostUsd policy.maxCostPerRequest then .error .policyDenied
  else .ok ()

/-! ### Merging policies -/

/-- `merge_allowlist`: the merged list and the flag. -/
def mergeAllowlist {Entry : Type} [DecidableEq Entry] (effective next : List Entry) (deny : Bool) :
    List Entry × Bool :=
  if next = [] then (effective, deny)
  else if effective = [] then (next, deny)
  else
    let retained := effective.filter (· ∈ next)
    (retained, if retained = [] then true else deny)

/-- `dedup`: of equal neighbours one is kept. -/
def dedup : List ℤ → List ℤ
  | first :: second :: rest =>
    if first = second then dedup (second :: rest) else first :: dedup (second :: rest)
  | hours => hours

def validHours (hours : List ℤ) : List ℤ :=
  dedup ((hours.filter fun hour ↦ 0 ≤ hour ∧ hour ≤ 23).insertionSort (· ≤ ·))

/-- `merge_allowed_hours`: the merged list and the flag. -/
def mergeAllowedHours (effective next : List ℤ) (deny : Bool) : List ℤ × Bool :=
  mergeAllowlist effective (validHours next) deny

/-- `stricter_i32`, `stricter_i64` and `stricter_f64`. -/
def stricter {Amount : Type} [LinearOrder Amount] : Option Amount → Option Amount → Option Amount
  | some current, some next => some (min current next)
  | some current, none => some current
  | none, some next => some next
  | none, none => none

def mergePolicy (effective next : KeyPolicy Usd) : KeyPolicy Usd :=
  let deny := effective.deny || next.deny
  let (allowedRoutes, deny) := mergeAllowlist effective.allowedRoutes next.allowedRoutes deny
  let (allowedModels, deny) := mergeAllowlist effective.allowedModels next.allowedModels deny
  let (allowedProviders, deny) :=
    mergeAllowlist effective.allowedProviders next.allowedProviders deny
  let (allowedServices, deny) := mergeAllowlist effective.allowedServices next.allowedServices deny
  let (allowedHoursUtc, deny) :=
    mergeAllowedHours effective.allowedHoursUtc next.allowedHoursUtc deny
  { deny
    allowedRoutes
    allowedModels
    allowedProviders
    allowedServices
    rpmLimit := stricter effective.rpmLimit next.rpmLimit
    tpmLimit := stricter effective.tpmLimit next.tpmLimit
    dailyBudgetUsd := stricter effective.dailyBudgetUsd next.dailyBudgetUsd
    monthlyBudgetUsd := stricter effective.monthlyBudgetUsd next.monthlyBudgetUsd
    allowStreaming := effective.allowStreaming && next.allowStreaming
    allowTools := effective.allowTools && next.allowTools
    maxRequestsPerDay := stricter effective.maxRequestsPerDay next.maxRequestsPerDay
    maxTokensPerDay := stricter effective.maxTokensPerDay next.maxTokensPerDay
    maxCostPerRequest := stricter effective.maxCostPerRequest next.maxCostPerRequest
    maxInputTokensPerRequest :=
      stricter effective.maxInputTokensPerRequest next.maxInputTokensPerRequest
    maxOutputTokensPerRequest :=
      stricter effective.maxOutputTokensPerRequest next.maxOutputTokensPerRequest
    allowedHoursUtc
    unusedKeyAutoDisableAfterDays :=
      stricter effective.unusedKeyAutoDisableAfterDays next.unusedKeyAutoDisableAfterDays
    maxRequestBodyBytes := stricter effective.maxRequestBodyBytes next.maxRequestBodyBytes
    maxResponseBodyBytes := stricter effective.maxResponseBodyBytes next.maxResponseBodyBytes
    maxStreamDurationSeconds :=
      stricter effective.maxStreamDurationSeconds next.maxStreamDurationSeconds
    maxSseEventBytes := stricter effective.maxSseEventBytes next.maxSseEventBytes
    maxToolCallCount := stricter effective.maxToolCallCount next.maxToolCallCount
    maxToolSchemaBytes := stricter effective.maxToolSchemaBytes next.maxToolSchemaBytes
    policyVersion := max effective.policyVersion next.policyVersion }

end Usd

/-! ### Checks in sequence -/

theorem ite_error_eq_ok {condition : Prop} [Decidable condition] (error : GatewayError)
    (rest : Except GatewayError Unit) :
    (if condition then .error error else rest) = .ok () ↔ ¬ condition ∧ rest = .ok () := by
  by_cases hcondition : condition <;> simp [hcondition]

theorem bind_eq_ok {Error First Result : Type} (first : Except Error First)
    (next : First → Except Error Result) (result : Result) :
    first >>= next = .ok result ↔ ∃ value, first = .ok value ∧ next value = .ok result := by
  rcases first with error | value <;> simp [bind, Except.bind]

theorem then_eq_ok {Result : Type} (first : Except GatewayError Unit)
    (next : Except GatewayError Result) (result : Result) :
    (do first; next) = .ok result ↔ first = .ok () ∧ next = .ok result := by
  rcases first with error | _ <;> simp [bind, Except.bind]

theorem forM_eq_ok {Entry : Type} (check : Entry → Except GatewayError Unit)
    (entries : List Entry) :
    entries.forM check = .ok () ↔ ∀ entry ∈ entries, check entry = .ok () := by
  induction entries with
  | nil => exact iff_of_true rfl (by simp)
  | cons entry entries ih => exact (then_eq_ok _ _ _).trans (by rw [List.forall_mem_cons, ← ih])

/-- Assumes: entries that could all be read. Each of them has its result among the results. -/
theorem exists_of_mapM {Entry Result : Type} {read : Entry → Except GatewayError Result}
    {entries : List Entry} {results : List Result} (hread : entries.mapM read = .ok results)
    {entry : Entry} (hentry : entry ∈ entries) :
    ∃ result ∈ results, read entry = .ok result := by
  induction entries generalizing results with
  | nil => exact absurd hentry List.not_mem_nil
  | cons first entries ih =>
    rw [List.mapM_cons, bind_eq_ok] at hread
    obtain ⟨result, hfirst, hrest⟩ := hread
    obtain ⟨rest, hentries, hresults⟩ := (bind_eq_ok _ _ _).mp hrest
    obtain rfl := Except.ok.inj hresults
    rcases List.mem_cons.mp hentry with rfl | hentry
    · exact ⟨result, List.mem_cons_self, hfirst⟩
    · obtain ⟨other, hother, hread⟩ := ih hentries hentry
      exact ⟨other, List.mem_cons_of_mem _ hother, hread⟩

end Relayna.Policy

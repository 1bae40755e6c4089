import Relayna.Library.Allowlist
import Relayna.Policy.KeyPolicy

/-!
# Layers of policies

`resolve_effective_policy` folds the policies of the layers that apply to a request into one. An
empty allowlist does not restrict, so an intersection that becomes empty raises the flag `deny`
instead, and no later layer lowers it.

`Folded` says what the effective policy of a list of layers is: `folded_merge` is the step and
`folded_foldl` the fold of any length. `layering_sound_complete` states that the effective policy
accepts a request exactly when every layer accepts it and the allowlists are compatible, in whatever
order the layers stand.
-/

set_option autoImplicit false
set_option relaxedAutoImplicit false

namespace Relayna.Policy

open Library.Allowlist
open Library.Json (Value)

/-! ### Guardrails -/

/-- `GuardrailPolicy`. The overrides are in the order of their names. -/
structure GuardrailPolicy where
  mandatoryGuardrails : List Text
  optionalGuardrails : List Text
  forbiddenGuardrails : List Text
  guardrailConfigOverrides : List (Text × Value)

/-- `GuardrailPolicy::default`. -/
def GuardrailPolicy.default : GuardrailPolicy :=
  ⟨[], [], [], []⟩

/-- An ASCII letter or digit, a hyphen, an underscore or a dot. -/
def isNameByte (byte : UInt8) : Bool :=
  (48 ≤ byte && byte ≤ 57) || (65 ≤ byte && byte ≤ 90) || (97 ≤ byte && byte ≤ 122) ||
    byte = 45 || byte = 95 || byte = 46

/-- `validate_guardrail_name`. -/
def validateGuardrailName (name : Text) : Except GatewayError Unit :=
  if name ≠ [] ∧ name.length ≤ 128 ∧ name.all isNameByte then .ok ()
  else .error .invalidGuardrailRequest

/-- The check of one override in `GuardrailPolicy::validate`. -/
def validateOverride (forbidden : List Text) (entry : Text × Value) : Except GatewayError Unit := do
  validateGuardrailName entry.1
  if !entry.2.isObject then .error .invalidGuardrailRequest
  else if entry.1 ∈ forbidden then .error .guardrailForbidden
  else .ok ()

/-- `GuardrailPolicy::validate`. -/
def GuardrailPolicy.validate (policy : GuardrailPolicy) : Except GatewayError Unit := do
  (policy.mandatoryGuardrails ++ policy.optionalGuardrails ++
    policy.forbiddenGuardrails).forM validateGuardrailName
  policy.guardrailConfigOverrides.forM (validateOverride policy.forbiddenGuardrails)

/-- `append_unique`. -/
def appendUnique (target values : List Text) : List Text :=
  values.foldl (fun target value ↦ if value ∈ target then target else target ++ [value]) target

/-- `BTreeMap::insert`. -/
def insertOverride (name : Text) (value : Value) : List (Text × Value) → List (Text × Value)
  | [] => [(name, value)]
  | (other, held) :: rest =>
    if name = other then (name, value) :: rest
    else if name < other then (name, value) :: (other, held) :: rest
    else (other, held) :: insertOverride name value rest

/-- `merge_guardrail_policy`. -/
def mergeGuardrailPolicy (effective next : GuardrailPolicy) :
    Except GatewayError GuardrailPolicy := do
  let forbidden := appendUnique effective.forbiddenGuardrails next.forbiddenGuardrails
  let merged : GuardrailPolicy :=
    { mandatoryGuardrails :=
        appendUnique effective.mandatoryGuardrails next.mandatoryGuardrails
      optionalGuardrails :=
        (appendUnique effective.optionalGuardrails next.optionalGuardrails).filter
          fun name ↦ name ∉ forbidden
      forbiddenGuardrails := forbidden
      guardrailConfigOverrides := next.guardrailConfigOverrides.foldl
        (fun overrides entry ↦ insertOverride entry.1 entry.2 overrides)
        effective.guardrailConfigOverrides }
  merged.validate
  return merged

/-! ### Layers -/

/-- `PolicyLayerKind`. -/
inductive PolicyLayerKind
  | global
  | project
  | team
  | key
  | route
  | model
  deriving DecidableEq

/-- `PolicyLayer`. -/
structure PolicyLayer (Usd : Type) where
  kind : PolicyLayerKind
  scopeId : Option Text
  policy : KeyPolicy Usd
  guardrailPolicy : GuardrailPolicy
  policyVersion : ℤ

/-- `PolicyLayerTrace`. -/
structure PolicyLayerTrace where
  kind : PolicyLayerKind
  scopeId : Option Text
  policyVersion : ℤ

/-- `EffectivePolicy`. -/
structure EffectivePolicy (Usd : Type) where
  policy : KeyPolicy Usd
  guardrailPolicy : GuardrailPolicy
  appliedLayers : List PolicyLayerTrace

def PolicyLayer.trace {Usd : Type} (layer : PolicyLayer Usd) : PolicyLayerTrace :=
  ⟨layer.kind, layer.scopeId, layer.policyVersion⟩

section Usd

variable {Usd : Type} [LinearOrder Usd]

/-- One turn of the loop of `resolve_effective_policy`. -/
def applyLayer (effective : EffectivePolicy Usd) (layer : PolicyLayer Usd) :
    Except GatewayError (EffectivePolicy Usd) := do
  let guardrails ← mergeGuardrailPolicy effective.guardrailPolicy layer.guardrailPolicy
  return ⟨mergePolicy effective.policy layer.policy, guardrails,
    effective.appliedLayers ++ [layer.trace]⟩

/-- `resolve_effective_policy`. -/
def resolveEffectivePolicy : List (PolicyLayer Usd) → Except GatewayError (EffectivePolicy Usd)
  | [] => .ok ⟨.default Usd, .default, []⟩
  | first :: layers => layers.foldlM applyLayer ⟨first.policy, first.guardrailPolicy, [first.trace]⟩

/-! ### Requests -/

structure Measured (Usd : Type) where
  now : Timestamp
  requestBodyBytes : Option ℤ
  responseBodyBytes : Option ℤ
  inputTokens : Option ℤ
  outputTokens : Option ℤ
  estimatedCostUsd : Option Usd

/-- A policy accepts a request. -/
def Accepts (policy : KeyPolicy Usd) (route : Route) (provider : Provider)
    (features : GenerationFeatures) (measured : Measured Usd) : Prop :=
  evaluatePolicy policy route provider features = .ok () ∧
    evaluatePolicyLimits policy measured.now measured.requestBodyBytes measured.responseBodyBytes
      measured.inputTokens measured.outputTokens measured.estimatedCostUsd = .ok ()

/-- The five lists of a policy allow a request. -/
def ListsAllow (policy : KeyPolicy Usd) (route : Route) (provider : Provider)
    (features : GenerationFeatures) (now : Timestamp) : Prop :=
  Allows policy.allowedRoutes route ∧ Allows policy.allowedProviders provider ∧
    (∀ service, features.serviceName = some service → Allows policy.allowedServices service) ∧
    (∀ model, features.model = some model → Allows policy.allowedModels model) ∧
    Allows policy.allowedHoursUtc (hourUtc now)

/-- The flags and limits of a policy allow a request. -/
def LimitsAllow (policy : KeyPolicy Usd) (features : GenerationFeatures)
    (measured : Measured Usd) : Prop :=
  (features.stream = true → policy.allowStreaming = true) ∧
    (features.tools = true → policy.allowTools = true) ∧
    exceeds measured.requestBodyBytes policy.maxRequestBodyBytes = false ∧
    exceeds measured.responseBodyBytes policy.maxResponseBodyBytes = false ∧
    exceeds measured.inputTokens policy.maxInputTokensPerRequest = false ∧
    exceeds measured.outputTokens policy.maxOutputTokensPerRequest = false ∧
    exceeds measured.estimatedCostUsd policy.maxCostPerRequest = false

theorem not_ne_nil_and_notMem {Entry : Type} (list : List Entry) (value : Entry) :
    ¬ (list ≠ [] ∧ value ∉ list) ↔ Allows list value := by
  unfold Allows
  tauto

theorem not_any_iff {Entry : Type} (list : List Entry) (value : Option Entry)
    [∀ entry, Decidable (list ≠ [] ∧ entry ∉ list)] :
    ¬ (value.any fun value ↦ decide (list ≠ [] ∧ value ∉ list)) = true ↔
      ∀ entry, value = some entry → Allows list entry := by
  rcases value with _ | entry
  · simp
  · rw [Option.any_some, decide_eq_true_eq, not_ne_nil_and_notMem]
    simp

/-- A policy accepts a request when it is not denied, and its lists, flags and limits allow it. -/
theorem accepts_iff (policy : KeyPolicy Usd) (route : Route) (provider : Provider)
    (features : GenerationFeatures) (measured : Measured Usd) :
    Accepts policy route provider features measured ↔
      policy.deny = false ∧ ListsAllow policy route provider features measured.now ∧
        LimitsAllow policy features measured := by
  unfold Accepts evaluatePolicy evaluatePolicyLimits ListsAllow LimitsAllow
  simp only [ite_error_eq_ok, not_ne_nil_and_notMem, not_any_iff]
  simp only [Bool.or_eq_true, not_or, Bool.not_eq_true, not_and, Bool.not_eq_true',
    Bool.not_eq_false, and_true]
  tauto

/-! ### Merging two policies -/

/-- A merge narrows the list, and raises the flag when the lists clash. -/
theorem mergeAllowlist_eq {Entry : Type} [DecidableEq Entry] (effective next : List Entry)
    (deny : Bool) :
    mergeAllowlist effective next deny =
      (narrow effective next, deny || decide (Clash effective next)) := by
  unfold mergeAllowlist Clash narrow
  by_cases hnext : next = []
  · simp [hnext]
  · by_cases heffective : effective = []
    · simp [hnext, heffective]
    · by_cases hretained : effective.filter (· ∈ next) = [] <;>
        simp [hnext, heffective, hretained]

theorem mem_dedup (hour : ℤ) (hours : List ℤ) : hour ∈ dedup hours ↔ hour ∈ hours := by
  induction hours using dedup.induct with
  | case1 first rest ih =>
    rw [dedup, if_pos rfl, ih]
    simp
  | case2 first second rest hne ih =>
    rw [dedup, if_neg hne, List.mem_cons, ih, ← List.mem_cons]
  | case3 hours hshort =>
    unfold dedup
    split
    · rename_i first second rest
      exact absurd rfl (hshort first second rest)
    · rfl

/-- Assumes: hours of the day. Normalizing them keeps each of them. -/
theorem mem_validHours {hours : List ℤ} (hvalid : ∀ hour ∈ hours, 0 ≤ hour ∧ hour ≤ 23)
    (hour : ℤ) : hour ∈ validHours hours ↔ hour ∈ hours := by
  unfold validHours
  rw [mem_dedup, List.mem_insertionSort, List.mem_filter, decide_eq_true_eq,
    and_iff_left_of_imp (hvalid hour)]

/-- A value exceeds the stricter of two limits when it exceeds one of them. -/
theorem exceeds_stricter {Amount : Type} [LinearOrder Amount] (value current next : Option Amount) :
    exceeds value (stricter current next) = (exceeds value current || exceeds value next) := by
  unfold exceeds
  rcases value with _ | value
  · rfl
  · rcases current with _ | current <;> rcases next with _ | next <;>
      simp [stricter]

end Usd

/-! ### Folding any number of layers -/

section Lists

variable {Usd : Type}

/-- The hours of a policy are hours of the day, as `apply_policy_patch` checks. -/
def HoursValid (policy : KeyPolicy Usd) : Prop :=
  ∀ hour ∈ policy.allowedHoursUtc, 0 ≤ hour ∧ hour ≤ 23

/-- Each of the five lists of the policies restricts to something in common, or does not restrict.
-/
def AllCompatible (policies : List (KeyPolicy Usd)) : Prop :=
  Compatible (policies.map KeyPolicy.allowedRoutes) ∧
    Compatible (policies.map KeyPolicy.allowedModels) ∧
    Compatible (policies.map KeyPolicy.allowedProviders) ∧
    Compatible (policies.map KeyPolicy.allowedServices) ∧
    Compatible (policies.map KeyPolicy.allowedHoursUtc)

/-- Each of the five lists of a policy stands for those of several policies. -/
structure AllNarrowed (policies : List (KeyPolicy Usd)) (effective : KeyPolicy Usd) : Prop where
  routes : Narrowed (policies.map KeyPolicy.allowedRoutes) effective.allowedRoutes
  models : Narrowed (policies.map KeyPolicy.allowedModels) effective.allowedModels
  providers : Narrowed (policies.map KeyPolicy.allowedProviders) effective.allowedProviders
  services : Narrowed (policies.map KeyPolicy.allowedServices) effective.allowedServices
  hours : Narrowed (policies.map KeyPolicy.allowedHoursUtc) effective.allowedHoursUtc

theorem AllNarrowed.compatible {policies : List (KeyPolicy Usd)} {effective : KeyPolicy Usd}
    (hnarrowed : AllNarrowed policies effective) : AllCompatible policies :=
  ⟨hnarrowed.routes.compatible, hnarrowed.models.compatible, hnarrowed.providers.compatible,
    hnarrowed.services.compatible, hnarrowed.hours.compatible⟩

theorem AllCompatible.of_append {policies others : List (KeyPolicy Usd)}
    (hcompatible : AllCompatible (policies ++ others)) : AllCompatible policies := by
  unfold AllCompatible at hcompatible
  simp only [List.map_append] at hcompatible
  obtain ⟨hroutes, hmodels, hproviders, hservices, hhours⟩ := hcompatible
  exact ⟨hroutes.of_append, hmodels.of_append, hproviders.of_append, hservices.of_append,
    hhours.of_append⟩

theorem AllCompatible.perm {policies others : List (KeyPolicy Usd)} (hperm : policies.Perm others)
    (hcompatible : AllCompatible policies) : AllCompatible others := by
  obtain ⟨hroutes, hmodels, hproviders, hservices, hhours⟩ := hcompatible
  exact ⟨hroutes.perm (hperm.map _), hmodels.perm (hperm.map _), hproviders.perm (hperm.map _),
    hservices.perm (hperm.map _), hhours.perm (hperm.map _)⟩

/-- One of the five lists of two policies clashes. -/
def AnyClash (effective next : KeyPolicy Usd) : Prop :=
  Clash effective.allowedRoutes next.allowedRoutes ∨
    Clash effective.allowedModels next.allowedModels ∨
    Clash effective.allowedProviders next.allowedProviders ∨
    Clash effective.allowedServices next.allowedServices ∨
    Clash effective.allowedHoursUtc (validHours next.allowedHoursUtc)

/-- Assumes: lists that stand for those of several policies, and a policy with valid hours. Adding
it keeps them compatible exactly when nothing clashes. -/
theorem AllNarrowed.compatible_snoc_iff {policies : List (KeyPolicy Usd)}
    {effective next : KeyPolicy Usd} (hnarrowed : AllNarrowed policies effective)
    (hhours : HoursValid next) :
    AllCompatible (policies ++ [next]) ↔ ¬ AnyClash effective next := by
  unfold AllCompatible AnyClash
  simp only [List.map_append, List.map_cons, List.map_nil, not_or]
  rw [Library.Allowlist.compatible_snoc_iff hnarrowed.routes,
    Library.Allowlist.compatible_snoc_iff hnarrowed.models,
    Library.Allowlist.compatible_snoc_iff hnarrowed.providers,
    Library.Allowlist.compatible_snoc_iff hnarrowed.services,
    ← compatible_congr_last (mem_validHours hhours),
    Library.Allowlist.compatible_snoc_iff hnarrowed.hours]

theorem AllNarrowed.listsAllow_iff {policies : List (KeyPolicy Usd)} {effective : KeyPolicy Usd}
    (hnarrowed : AllNarrowed policies effective) (route : Route) (provider : Provider)
    (features : GenerationFeatures) (now : Timestamp) :
    ListsAllow effective route provider features now ↔
      ∀ policy ∈ policies, ListsAllow policy route provider features now := by
  unfold ListsAllow
  simp only [hnarrowed.routes.allows_iff, hnarrowed.models.allows_iff,
    hnarrowed.providers.allows_iff, hnarrowed.services.allows_iff, hnarrowed.hours.allows_iff,
    List.forall_mem_map]
  constructor
  · rintro ⟨hroutes, hproviders, hservices, hmodels, hhours⟩ policy hpolicy
    exact ⟨hroutes policy hpolicy, hproviders policy hpolicy,
      fun service hservice ↦ hservices service hservice policy hpolicy,
      fun model hmodel ↦ hmodels model hmodel policy hpolicy, hhours policy hpolicy⟩
  · intro hall
    exact ⟨fun policy hpolicy ↦ (hall policy hpolicy).1,
      fun policy hpolicy ↦ (hall policy hpolicy).2.1,
      fun service hservice policy hpolicy ↦ (hall policy hpolicy).2.2.1 service hservice,
      fun model hmodel policy hpolicy ↦ (hall policy hpolicy).2.2.2.1 model hmodel,
      fun policy hpolicy ↦ (hall policy hpolicy).2.2.2.2⟩

end Lists

section Usd

variable {Usd : Type} [LinearOrder Usd]

/-- What the effective policy of several policies is: it is denied exactly when one of them is or
when their lists clash; as long as it is not, its lists stand for theirs; its flags and limits allow
what all of theirs allow. -/
structure Folded (policies : List (KeyPolicy Usd)) (effective : KeyPolicy Usd) : Prop where
  deny_iff : effective.deny = false ↔
    (∀ policy ∈ policies, policy.deny = false) ∧ AllCompatible policies
  lists : effective.deny = false → AllNarrowed policies effective
  limits : ∀ (features : GenerationFeatures) (measured : Measured Usd),
    LimitsAllow effective features measured ↔
      ∀ policy ∈ policies, LimitsAllow policy features measured

theorem folded_singleton (policy : KeyPolicy Usd) : Folded [policy] policy := by
  have hnarrowed : AllNarrowed [policy] policy :=
    ⟨narrowed_singleton _, narrowed_singleton _, narrowed_singleton _, narrowed_singleton _,
      narrowed_singleton _⟩
  refine ⟨?_, fun _ ↦ hnarrowed, fun features measured ↦ by simp⟩
  simp [hnarrowed.compatible]

/-- The flag is never lowered: a merge keeps it, and raises it when a list clashes. -/
theorem mergePolicy_deny (effective next : KeyPolicy Usd) :
    (mergePolicy effective next).deny = false ↔
      effective.deny = false ∧ next.deny = false ∧ ¬ AnyClash effective next := by
  unfold mergePolicy AnyClash mergeAllowedHours
  simp only [mergeAllowlist_eq, Bool.or_eq_false_iff, decide_eq_false_iff_not, not_or]
  tauto

theorem mergePolicy_lists (effective next : KeyPolicy Usd) :
    (mergePolicy effective next).allowedRoutes =
        narrow effective.allowedRoutes next.allowedRoutes ∧
      (mergePolicy effective next).allowedModels =
        narrow effective.allowedModels next.allowedModels ∧
      (mergePolicy effective next).allowedProviders =
        narrow effective.allowedProviders next.allowedProviders ∧
      (mergePolicy effective next).allowedServices =
        narrow effective.allowedServices next.allowedServices ∧
      (mergePolicy effective next).allowedHoursUtc =
        narrow effective.allowedHoursUtc (validHours next.allowedHoursUtc) := by
  unfold mergePolicy mergeAllowedHours
  simp only [mergeAllowlist_eq, and_self]

theorem mergePolicy_limits (effective next : KeyPolicy Usd) (features : GenerationFeatures)
    (measured : Measured Usd) :
    LimitsAllow (mergePolicy effective next) features measured ↔
      LimitsAllow effective features measured ∧ LimitsAllow next features measured := by
  unfold LimitsAllow mergePolicy
  simp only [exceeds_stricter, Bool.or_eq_false_iff, Bool.and_eq_true]
  tauto

/-- Assumes: lists that stand for those of several policies, and a policy with valid hours that does
not clash with them. The merged lists stand for those of one policy more. -/
theorem AllNarrowed.snoc {policies : List (KeyPolicy Usd)} {effective next : KeyPolicy Usd}
    (hnarrowed : AllNarrowed policies effective) (hhours : HoursValid next)
    (hclash : ¬ AnyClash effective next) :
    AllNarrowed (policies ++ [next]) (mergePolicy effective next) := by
  obtain ⟨hroutes, hmodels, hproviders, hservices, hmerged⟩ := mergePolicy_lists effective next
  simp only [AnyClash, not_or] at hclash
  constructor
  all_goals rw [List.map_append, List.map_singleton]
  · rw [hroutes]
    exact hnarrowed.routes.snoc hclash.1
  · rw [hmodels]
    exact hnarrowed.models.snoc hclash.2.1
  · rw [hproviders]
    exact hnarrowed.providers.snoc hclash.2.2.1
  · rw [hservices]
    exact hnarrowed.services.snoc hclash.2.2.2.1
  · rw [hmerged]
    exact (hnarrowed.hours.snoc hclash.2.2.2.2).congr_last (mem_validHours hhours)

/-- One merge. A conflict that was reached stays, because the flag does and because more lists are
not compatible when fewer are not. -/
theorem folded_merge {policies : List (KeyPolicy Usd)} {effective next : KeyPolicy Usd}
    (hfolded : Folded policies effective) (hhours : HoursValid next) :
    Folded (policies ++ [next]) (mergePolicy effective next) := by
  refine ⟨?_, ?_, fun features measured ↦ ?_⟩
  · rw [mergePolicy_deny]
    constructor
    · rintro ⟨hdeny, hnext, hclash⟩
      have hold := hfolded.deny_iff.mp hdeny
      refine ⟨fun policy hpolicy ↦ ?_,
        ((hfolded.lists hdeny).compatible_snoc_iff hhours).mpr hclash⟩
      rcases List.mem_append.mp hpolicy with hpolicy | hpolicy
      · exact hold.1 policy hpolicy
      · rwa [List.mem_singleton.mp hpolicy]
    · rintro ⟨hall, hcompatible⟩
      have hdeny : effective.deny = false :=
        hfolded.deny_iff.mpr ⟨fun policy hpolicy ↦ hall policy (List.mem_append_left _ hpolicy),
          hcompatible.of_append⟩
      exact ⟨hdeny, hall next (List.mem_append_right _ (List.mem_singleton_self _)),
        ((hfolded.lists hdeny).compatible_snoc_iff hhours).mp hcompatible⟩
  · intro hmerged
    obtain ⟨hdeny, -, hclash⟩ := (mergePolicy_deny effective next).mp hmerged
    exact (hfolded.lists hdeny).snoc hhours hclash
  · rw [mergePolicy_limits, hfolded.limits features measured]
    simp [or_imp, forall_and]

/-- The fold of any number of policies. -/
theorem folded_foldl (rest : List (KeyPolicy Usd)) : ∀ {policies : List (KeyPolicy Usd)}
    {effective : KeyPolicy Usd}, Folded policies effective → (∀ policy ∈ rest, HoursValid policy) →
      Folded (policies ++ rest) (rest.foldl mergePolicy effective) := by
  induction rest with
  | nil =>
    intro policies effective hfolded _
    rwa [List.append_nil]
  | cons next rest ih =>
    intro policies effective hfolded hhours
    rw [List.append_cons]
    exact ih (folded_merge hfolded (hhours next List.mem_cons_self))
      fun policy hpolicy ↦ hhours policy (List.mem_cons_of_mem _ hpolicy)

/-- The guardrails do not touch the policy: when they merge, the effective policy is the fold. -/
theorem foldlM_applyLayer_policy (layers : List (PolicyLayer Usd)) :
    ∀ {start effective : EffectivePolicy Usd}, layers.foldlM applyLayer start = .ok effective →
      effective.policy = (layers.map PolicyLayer.policy).foldl mergePolicy start.policy := by
  induction layers with
  | nil =>
    intro start effective hresolved
    obtain rfl := Except.ok.inj hresolved
    rfl
  | cons layer layers ih =>
    intro start effective hresolved
    rw [List.foldlM_cons] at hresolved
    rcases hguardrails : mergeGuardrailPolicy start.guardrailPolicy layer.guardrailPolicy with
      error | merged
    · rw [applyLayer, hguardrails] at hresolved
      cases hresolved
    · rw [applyLayer, hguardrails] at hresolved
      exact ih hresolved

/-- Assumes: layers with valid hours that resolve. The effective policy is the fold of theirs. -/
theorem folded_resolve {layers : List (PolicyLayer Usd)} (hlayers : layers ≠ [])
    (hhours : ∀ layer ∈ layers, HoursValid layer.policy) {effective : EffectivePolicy Usd}
    (hresolved : resolveEffectivePolicy layers = .ok effective) :
    Folded (layers.map PolicyLayer.policy) effective.policy := by
  rcases layers with _ | ⟨first, rest⟩
  · exact absurd rfl hlayers
  · rw [foldlM_applyLayer_policy rest hresolved, List.map_cons]
    refine folded_foldl _ (folded_singleton first.policy) fun policy hpolicy ↦ ?_
    obtain ⟨layer, hlayer, rfl⟩ := List.mem_map.mp hpolicy
    exact hhours layer (List.mem_cons_of_mem _ hlayer)

/-- The effective policy accepts a request exactly when every policy does and their lists are
compatible. -/
theorem Folded.accepts_iff {policies : List (KeyPolicy Usd)} {effective : KeyPolicy Usd}
    (hfolded : Folded policies effective) (route : Route) (provider : Provider)
    (features : GenerationFeatures) (measured : Measured Usd) :
    Accepts effective route provider features measured ↔
      (∀ policy ∈ policies, Accepts policy route provider features measured) ∧
        AllCompatible policies := by
  simp only [Policy.accepts_iff, forall_and, hfolded.limits, hfolded.deny_iff]
  constructor
  · rintro ⟨⟨hdeny, hcompatible⟩, hlists, hlimits⟩
    have hnarrowed := hfolded.lists (hfolded.deny_iff.mpr ⟨hdeny, hcompatible⟩)
    exact ⟨⟨hdeny, (hnarrowed.listsAllow_iff _ _ _ _).mp hlists, hlimits⟩, hcompatible⟩
  · rintro ⟨⟨hdeny, hlists, hlimits⟩, hcompatible⟩
    have hnarrowed := hfolded.lists (hfolded.deny_iff.mpr ⟨hdeny, hcompatible⟩)
    exact ⟨⟨hdeny, hcompatible⟩, (hnarrowed.listsAllow_iff _ _ _ _).mpr hlists, hlimits⟩

end Usd

/-! ### Guardrails in any order -/

/-- The conditions of `validate_guardrail_name`. -/
def NameValid (name : Text) : Prop :=
  name ≠ [] ∧ name.length ≤ 128 ∧ name.all isNameByte

theorem validateGuardrailName_eq_ok (name : Text) :
    validateGuardrailName name = .ok () ↔ NameValid name := by
  unfold validateGuardrailName NameValid
  by_cases hname : name ≠ [] ∧ name.length ≤ 128 ∧ name.all isNameByte
  · rw [if_pos hname]
    exact iff_of_true rfl hname
  · rw [if_neg hname]
    exact iff_of_false (fun hok ↦ by cases hok) hname

theorem validateOverride_eq_ok (forbidden : List Text) (entry : Text × Value) :
    validateOverride forbidden entry = .ok () ↔
      NameValid entry.1 ∧ entry.2.isObject = true ∧ entry.1 ∉ forbidden := by
  unfold validateOverride
  rw [then_eq_ok, validateGuardrailName_eq_ok, ite_error_eq_ok, ite_error_eq_ok]
  simp

/-- What `validate` checks. -/
theorem validate_eq_ok (policy : GuardrailPolicy) :
    policy.validate = .ok () ↔
      (∀ name ∈ policy.mandatoryGuardrails ++ policy.optionalGuardrails ++
        policy.forbiddenGuardrails, NameValid name) ∧
      ∀ entry ∈ policy.guardrailConfigOverrides, NameValid entry.1 ∧ entry.2.isObject = true ∧
        entry.1 ∉ policy.forbiddenGuardrails := by
  unfold GuardrailPolicy.validate
  rw [then_eq_ok, forM_eq_ok, forM_eq_ok]
  simp only [validateGuardrailName_eq_ok, validateOverride_eq_ok]

theorem mem_appendUnique (target values : List Text) (name : Text) :
    name ∈ appendUnique target values ↔ name ∈ target ∨ name ∈ values := by
  unfold appendUnique
  induction values generalizing target with
  | nil => simp
  | cons value values ih =>
    rw [List.foldl_cons, ih]
    split_ifs with hvalue
    · constructor
      · rintro (hname | hname)
        · exact .inl hname
        · exact .inr (List.mem_cons_of_mem _ hname)
      · rintro (hname | hname)
        · exact .inl hname
        · rcases List.mem_cons.mp hname with rfl | hname
          · exact .inl hvalue
          · exact .inr hname
    · simp [or_assoc]

theorem mem_insertOverride {name : Text} {value : Value} {overrides : List (Text × Value)}
    {entry : Text × Value} (hentry : entry ∈ insertOverride name value overrides) :
    entry = (name, value) ∨ entry ∈ overrides := by
  induction overrides with
  | nil => exact .inl (List.mem_singleton.mp hentry)
  | cons first rest ih =>
    unfold insertOverride at hentry
    split_ifs at hentry
    · rcases List.mem_cons.mp hentry with hentry | hentry
      · exact .inl hentry
      · exact .inr (List.mem_cons_of_mem _ hentry)
    · exact List.mem_cons.mp hentry
    · rcases List.mem_cons.mp hentry with hentry | hentry
      · exact .inr (hentry ▸ List.mem_cons_self)
      · exact (ih hentry).imp_right (List.mem_cons_of_mem _)

/-- Every override keeps its name, or has been replaced by one of the same name. -/
theorem map_fst_insertOverride (name other : Text) (value : Value)
    (overrides : List (Text × Value)) :
    other ∈ (insertOverride name value overrides).map Prod.fst ↔
      other = name ∨ other ∈ overrides.map Prod.fst := by
  induction overrides with
  | nil => simp [insertOverride]
  | cons first rest ih =>
    unfold insertOverride
    split_ifs with hsame hless
    · simp [← hsame]
    · simp
    · rw [List.map_cons, List.mem_cons, ih, List.map_cons, List.mem_cons]
      tauto

theorem mem_foldl_insertOverride (next : List (Text × Value)) :
    ∀ {overrides : List (Text × Value)} {entry : Text × Value},
      entry ∈ next.foldl (fun overrides entry ↦ insertOverride entry.1 entry.2 overrides)
        overrides → entry ∈ overrides ∨ entry ∈ next := by
  induction next with
  | nil => exact fun hentry ↦ .inl hentry
  | cons first next ih =>
    intro overrides entry hentry
    rcases ih hentry with hentry | hentry
    · rcases mem_insertOverride hentry with rfl | hentry
      · exact .inr List.mem_cons_self
      · exact .inl hentry
    · exact .inr (List.mem_cons_of_mem _ hentry)

theorem map_fst_foldl_insertOverride (next : List (Text × Value)) (name : Text) :
    ∀ overrides : List (Text × Value),
      name ∈ (next.foldl (fun overrides entry ↦ insertOverride entry.1 entry.2 overrides)
        overrides).map Prod.fst ↔ name ∈ overrides.map Prod.fst ∨ name ∈ next.map Prod.fst := by
  induction next with
  | nil => simp
  | cons first next ih =>
    intro overrides
    rw [List.foldl_cons, ih, map_fst_insertOverride, List.map_cons, List.mem_cons]
    tauto

/-- No override of one policy is forbidden by another or by itself. -/
def NoneForbidden (policies : List GuardrailPolicy) : Prop :=
  ∀ policy ∈ policies, ∀ other ∈ policies, ∀ name ∈ policy.guardrailConfigOverrides.map Prod.fst,
    name ∉ other.forbiddenGuardrails

/-- A policy whose names and overrides are those of several valid policies. -/
structure Joined (policies : List GuardrailPolicy) (effective : GuardrailPolicy) : Prop where
  names : ∀ name ∈ effective.mandatoryGuardrails ++ effective.optionalGuardrails ++
    effective.forbiddenGuardrails, NameValid name
  overrides : ∀ entry ∈ effective.guardrailConfigOverrides,
    NameValid entry.1 ∧ entry.2.isObject = true
  forbidden : ∀ name, name ∈ effective.forbiddenGuardrails ↔
    ∃ policy ∈ policies, name ∈ policy.forbiddenGuardrails
  overridden : ∀ name, name ∈ effective.guardrailConfigOverrides.map Prod.fst ↔
    ∃ policy ∈ policies, name ∈ policy.guardrailConfigOverrides.map Prod.fst

theorem joined_singleton {policy : GuardrailPolicy} (hvalid : policy.validate = .ok ()) :
    Joined [policy] policy := by
  obtain ⟨hnames, hoverrides⟩ := (validate_eq_ok policy).mp hvalid
  refine ⟨hnames, fun entry hentry ↦ ?_, fun name ↦ by simp, fun name ↦ by simp⟩
  exact ⟨(hoverrides entry hentry).1, (hoverrides entry hentry).2.1⟩

/-- Assumes: a policy that joins others. It is valid exactly when none of their overrides is
forbidden. -/
theorem Joined.validate_iff {policies : List GuardrailPolicy} {effective : GuardrailPolicy}
    (hjoined : Joined policies effective) :
    effective.validate = .ok () ↔ NoneForbidden policies := by
  have hclear : NoneForbidden policies ↔
      ∀ entry ∈ effective.guardrailConfigOverrides, entry.1 ∉ effective.forbiddenGuardrails := by
    constructor
    · intro hnone entry hentry hname
      obtain ⟨other, hother, hforbidden⟩ := (hjoined.forbidden entry.1).mp hname
      obtain ⟨policy, hpolicy, hoverridden⟩ :=
        (hjoined.overridden entry.1).mp (List.mem_map_of_mem hentry)
      exact hnone policy hpolicy other hother entry.1 hoverridden hforbidden
    · intro hnone policy hpolicy other hother name hname hforbidden
      obtain ⟨entry, hentry, rfl⟩ :=
        List.mem_map.mp ((hjoined.overridden name).mpr ⟨policy, hpolicy, hname⟩)
      exact hnone entry hentry ((hjoined.forbidden entry.1).mpr ⟨other, hother, hforbidden⟩)
  rw [validate_eq_ok, hclear, and_iff_right hjoined.names]
  refine forall₂_congr fun entry hentry ↦ ?_
  rw [and_iff_right (hjoined.overrides entry hentry).1,
    and_iff_right (hjoined.overrides entry hentry).2]

/-- Assumes: a policy that joins valid policies, and a valid policy. Merging succeeds exactly when
no override is forbidden, and the result joins them all. -/
theorem Joined.merge {policies : List GuardrailPolicy} {effective next : GuardrailPolicy}
    (hjoined : Joined policies effective) (hvalid : next.validate = .ok ()) :
    (∃ merged, mergeGuardrailPolicy effective next = .ok merged ∧
        Joined (policies ++ [next]) merged) ∧ NoneForbidden (policies ++ [next]) ∨
      (¬ ∃ merged, mergeGuardrailPolicy effective next = .ok merged) ∧
        ¬ NoneForbidden (policies ++ [next]) := by
  obtain ⟨hnames, hoverrides⟩ := (validate_eq_ok next).mp hvalid
  set merged : GuardrailPolicy :=
    { mandatoryGuardrails :=
        appendUnique effective.mandatoryGuardrails next.mandatoryGuardrails
      optionalGuardrails :=
        (appendUnique effective.optionalGuardrails next.optionalGuardrails).filter fun name ↦
          name ∉ appendUnique effective.forbiddenGuardrails next.forbiddenGuardrails
      forbiddenGuardrails := appendUnique effective.forbiddenGuardrails next.forbiddenGuardrails
      guardrailConfigOverrides := next.guardrailConfigOverrides.foldl
        (fun overrides entry ↦ insertOverride entry.1 entry.2 overrides)
        effective.guardrailConfigOverrides } with hmerged
  have hmerge : ∀ result, mergeGuardrailPolicy effective next = .ok result ↔
      merged.validate = .ok () ∧ merged = result := by
    intro result
    refine (then_eq_ok merged.validate (.ok merged) result).trans ?_
    rw [Except.ok.injEq]
  have hall : Joined (policies ++ [next]) merged := by
    refine ⟨fun name hname ↦ ?_, fun entry hentry ↦ ?_, fun name ↦ ?_, fun name ↦ ?_⟩
    · simp only [hmerged, List.mem_append, List.mem_filter, mem_appendUnique] at hname
      have hold := hjoined.names name
      have hnew := hnames name
      simp only [List.mem_append] at hold hnew
      tauto
    · rcases mem_foldl_insertOverride _ hentry with hold | hnew
      · exact hjoined.overrides entry hold
      · exact ⟨(hoverrides entry hnew).1, (hoverrides entry hnew).2.1⟩
    · simp only [hmerged, mem_appendUnique, hjoined.forbidden, List.mem_append,
        List.mem_singleton, or_and_right, exists_or, exists_eq_left]
    · simp only [hmerged, map_fst_foldl_insertOverride, hjoined.overridden, List.mem_append,
        List.mem_singleton, or_and_right, exists_or, exists_eq_left]
  by_cases hnone : NoneForbidden (policies ++ [next])
  · exact .inl ⟨⟨merged, (hmerge merged).mpr ⟨hall.validate_iff.mpr hnone, rfl⟩, hall⟩, hnone⟩
  · refine .inr ⟨?_, hnone⟩
    rintro ⟨result, hresult⟩
    exact hnone (hall.validate_iff.mp ((hmerge result).mp hresult).1)

theorem NoneForbidden.of_append {policies others : List GuardrailPolicy}
    (hnone : NoneForbidden (policies ++ others)) : NoneForbidden policies :=
  fun policy hpolicy other hother ↦
    hnone policy (List.mem_append_left _ hpolicy) other (List.mem_append_left _ hother)

section Usd

variable {Usd : Type} [LinearOrder Usd]

/-- Assumes: valid guardrails. The layers resolve exactly when no override is forbidden. -/
theorem foldlM_applyLayer_isOk (layers : List (PolicyLayer Usd)) :
    ∀ {policies : List GuardrailPolicy} {start : EffectivePolicy Usd},
      Joined policies start.guardrailPolicy → NoneForbidden policies →
      (∀ layer ∈ layers, layer.guardrailPolicy.validate = .ok ()) →
      ((∃ effective, layers.foldlM applyLayer start = .ok effective) ↔
        NoneForbidden (policies ++ layers.map PolicyLayer.guardrailPolicy)) := by
  induction layers with
  | nil =>
    intro policies start _ hnone _
    rw [List.map_nil, List.append_nil]
    exact iff_of_true ⟨start, rfl⟩ hnone
  | cons layer layers ih =>
    intro policies start hjoined hnone hvalid
    rw [List.forall_mem_cons] at hvalid
    rw [List.map_cons, List.append_cons, List.foldlM_cons]
    rcases hjoined.merge hvalid.1 with ⟨⟨merged, hmerged, hnext⟩, hclear⟩ | ⟨hfails, hclash⟩
    · rw [applyLayer, hmerged]
      exact ih hnext hclear hvalid.2
    · refine iff_of_false ?_ fun hall ↦ hclash hall.of_append
      rintro ⟨effective, hresolved⟩
      rcases hguardrails : mergeGuardrailPolicy start.guardrailPolicy layer.guardrailPolicy with
        error | merged
      · rw [applyLayer, hguardrails] at hresolved
        cases hresolved
      · exact hfails ⟨merged, hguardrails⟩

/-- Assumes: valid guardrails. The layers resolve exactly when no override is forbidden. -/
theorem resolve_isOk_iff {layers : List (PolicyLayer Usd)}
    (hvalid : ∀ layer ∈ layers, layer.guardrailPolicy.validate = .ok ()) :
    (∃ effective, resolveEffectivePolicy layers = .ok effective) ↔
      NoneForbidden (layers.map PolicyLayer.guardrailPolicy) := by
  rcases layers with _ | ⟨first, layers⟩
  · exact iff_of_true ⟨_, rfl⟩ fun policy hpolicy ↦ absurd hpolicy List.not_mem_nil
  · rw [List.forall_mem_cons] at hvalid
    have hjoined := joined_singleton hvalid.1
    exact foldlM_applyLayer_isOk layers hjoined (hjoined.validate_iff.mp hvalid.1) hvalid.2

/-! ### Soundness, completeness and order -/

/-- Assumes: layers with valid hours whose guardrails merge. The effective policy accepts a request
only if every layer does; it accepts what every layer accepts when the lists are compatible; a
conflict among the first layers is not undone by the rest; and no order of the layers that resolves
changes the decision. Layers with valid guardrails resolve in every order when they do in one. -/
theorem layering_sound_complete (layers : List (PolicyLayer Usd)) (hlayers : layers ≠ [])
    (hhours : ∀ layer ∈ layers, HoursValid layer.policy) (effective : EffectivePolicy Usd)
    (hresolved : resolveEffectivePolicy layers = .ok effective) (route : Route)
    (provider : Provider) (features : GenerationFeatures) (measured : Measured Usd) :
    (Accepts effective.policy route provider features measured →
        ∀ layer ∈ layers, Accepts layer.policy route provider features measured) ∧
      ((∀ layer ∈ layers, Accepts layer.policy route provider features measured) →
        AllCompatible (layers.map PolicyLayer.policy) →
        Accepts effective.policy route provider features measured) ∧
      (∀ first rest, layers = first ++ rest → ¬ AllCompatible (first.map PolicyLayer.policy) →
        ¬ Accepts effective.policy route provider features measured) ∧
      (∀ permuted other, permuted.Perm layers → resolveEffectivePolicy permuted = .ok other →
        (Accepts other.policy route provider features measured ↔
          Accepts effective.policy route provider features measured)) ∧
      ((∀ layer ∈ layers, layer.guardrailPolicy.validate = .ok ()) →
        ∀ permuted, permuted.Perm layers →
          ∃ other, resolveEffectivePolicy permuted = .ok other) := by
  have haccepts := (folded_resolve hlayers hhours hresolved).accepts_iff route provider features
    measured
  rw [List.forall_mem_map] at haccepts
  refine ⟨fun haccept ↦ (haccepts.mp haccept).1, fun hall hcompatible ↦
    haccepts.mpr ⟨hall, hcompatible⟩, ?_, ?_, ?_⟩
  · intro first rest hsplit hconflict haccept
    have hcompatible := (haccepts.mp haccept).2
    rw [hsplit, List.map_append] at hcompatible
    exact hconflict hcompatible.of_append
  · intro permuted other hperm hother
    have hpermuted : permuted ≠ [] := fun hnil ↦ hlayers (by rwa [hnil, List.nil_perm] at hperm)
    have hsame := (folded_resolve hpermuted
      (fun layer hlayer ↦ hhours layer (hperm.mem_iff.mp hlayer)) hother).accepts_iff route provider
      features measured
    rw [List.forall_mem_map] at hsame
    rw [hsame, haccepts]
    refine and_congr (forall_congr' fun layer ↦ ?_) ⟨fun hcompatible ↦ ?_, fun hcompatible ↦ ?_⟩
    · rw [hperm.mem_iff]
    · exact hcompatible.perm (hperm.map _)
    · exact hcompatible.perm (hperm.map _).symm
  · intro hvalid permuted hperm
    rw [resolve_isOk_iff fun layer hlayer ↦ hvalid layer (hperm.mem_iff.mp hlayer)]
    have hnone := (resolve_isOk_iff hvalid).mp ⟨effective, hresolved⟩
    have hsubset := (hperm.map PolicyLayer.guardrailPolicy).subset
    intro policy hpolicy second hsecond
    exact hnone policy (hsubset hpolicy) second (hsubset hsecond)

end Usd

/-- A layer that allows some models. -/
def modelLayer (models : List Text) : PolicyLayer ℕ :=
  ⟨.key, none, { KeyPolicy.default ℕ with allowedModels := models }, .default, 1⟩

/-- Two layers that have one model in common, and a request for it. -/
theorem layering_common_model :
    (∀ layer ∈ [modelLayer [[1], [2]], modelLayer [[2], [3]]],
        Accepts layer.policy .chatCompletions .liteLlm ⟨some [2], false, false, none⟩
          ⟨0, none, none, none, none, none⟩) ∧
      ∃ other, resolveEffectivePolicy [modelLayer [[2], [3]], modelLayer [[1], [2]]] =
        .ok other := by
  have hhours : ∀ layer ∈ [modelLayer [[1], [2]], modelLayer [[2], [3]]],
      HoursValid layer.policy := by
    simp [modelLayer, HoursValid, KeyPolicy.default]
  obtain ⟨hsound, -, -, -, hresolves⟩ := layering_sound_complete
    [modelLayer [[1], [2]], modelLayer [[2], [3]]] (by simp) hhours _ rfl .chatCompletions .liteLlm
    ⟨some [2], false, false, none⟩ ⟨0, none, none, none, none, none⟩
  refine ⟨hsound ⟨rfl, rfl⟩, hresolves (fun layer hlayer ↦ ?_) _ (.swap _ _ [])⟩
  rcases List.mem_pair.mp hlayer with rfl | rfl <;> rfl

end Relayna.Policy

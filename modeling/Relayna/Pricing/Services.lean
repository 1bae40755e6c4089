import Mathlib.Algebra.Ring.Nat
import Mathlib.Data.List.Basic

/-!
# The prices of a service

`crates/gateway-core/src/services.rs`: a service registration has a default price, prices for
endpoints, selected by method and path template, and prices for bodies, selected by a member of the
request. Texts are the UTF-8 bytes of the source's strings. A price is a whole number of 10⁻⁸
dollars below 10¹² dollars, which is what `validate_cost` accepts.

The fingerprint of a selector is a SHA-256 digest of its JSON text, and is a parameter. So is what
`serde_json` finds in a request at a JSON pointer.

`repriceRecordedServiceCost` finds the price of a recorded event under a new registration from the
attribution that was recorded with it, and none where the attribution is unknown or ambiguous.
-/

set_option autoImplicit false
set_option relaxedAutoImplicit false

namespace Relayna.Pricing

/-! ### Texts and methods -/

/-- The UTF-8 bytes of a string. -/
abbrev Text := List UInt8

/-- `to_ascii_uppercase` of one byte. -/
def upperByte (byte : UInt8) : UInt8 :=
  if 97 ≤ byte ∧ byte ≤ 122 then byte - 32 else byte

def toAsciiUppercase (text : Text) : Text :=
  text.map upperByte

def eqIgnoreAsciiCase (left right : Text) : Bool :=
  decide (toAsciiUppercase left = toAsciiUppercase right)

/-- The bytes of a token of RFC 9110. -/
def isTokenByte (byte : UInt8) : Bool :=
  (48 ≤ byte && byte ≤ 57) || (65 ≤ byte && byte ≤ 90) || (97 ≤ byte && byte ≤ 122) ||
    decide (byte ∈ ([33, 35, 36, 37, 38, 39, 42, 43, 45, 46, 94, 95, 96, 124, 126] : List UInt8))

/-- An HTTP method: a token. -/
structure Method where
  bytes : Text
  nonempty : bytes ≠ []
  token : bytes.all isTokenByte = true

def Method.fromBytes (bytes : Text) : Option Method :=
  if h : bytes ≠ [] ∧ bytes.all isTokenByte = true then some ⟨bytes, h.1, h.2⟩ else none

/-- Assumes: a lower case letter. Its upper case is an upper case letter. -/
theorem sub_mem_upper {byte : UInt8} (hlower : 97 ≤ byte ∧ byte ≤ 122) :
    65 ≤ byte - 32 ∧ byte - 32 ≤ 90 := by
  have hle : (32 : UInt8) ≤ byte := by
    rw [UInt8.le_iff_toNat_le] at hlower ⊢
    simp at hlower ⊢
    omega
  rw [UInt8.le_iff_toNat_le, UInt8.le_iff_toNat_le] at hlower ⊢
  rw [UInt8.toNat_sub_of_le _ _ hle]
  simp at hlower ⊢
  omega

theorem upperByte_upperByte (byte : UInt8) : upperByte (upperByte byte) = upperByte byte := by
  unfold upperByte
  split
  · rename_i hlower
    rw [if_neg]
    intro hagain
    exact absurd (UInt8.le_trans hagain.1 (sub_mem_upper hlower).2) (by decide)
  · rfl

/-- A token stays one in upper case. -/
theorem isTokenByte_upperByte {byte : UInt8} (htoken : isTokenByte byte = true) :
    isTokenByte (upperByte byte) = true := by
  unfold upperByte
  split
  · rename_i hlower
    have hupper := sub_mem_upper hlower
    simp [isTokenByte, hupper.1, hupper.2]
  · exact htoken

def Method.upper (method : Method) : Method where
  bytes := toAsciiUppercase method.bytes
  nonempty := by simpa [toAsciiUppercase] using method.nonempty
  token := by
    rw [toAsciiUppercase, List.all_map, List.all_eq_true]
    intro byte hbyte
    exact isTokenByte_upperByte (List.all_eq_true.mp method.token byte hbyte)

theorem Method.fromBytes_upper (method : Method) :
    Method.fromBytes (toAsciiUppercase method.bytes) = some method.upper :=
  dif_pos ⟨method.upper.nonempty, method.upper.token⟩

/-- The case of a method does not matter. -/
theorem eqIgnoreAsciiCase_upper (text : Text) (method : Method) :
    eqIgnoreAsciiCase text method.upper.bytes = eqIgnoreAsciiCase text method.bytes := by
  have hupper : toAsciiUppercase (toAsciiUppercase method.bytes) =
      toAsciiUppercase method.bytes := by
    rw [toAsciiUppercase, toAsciiUppercase, List.map_map]
    exact List.map_congr_left fun byte _ ↦ upperByte_upperByte byte
  unfold eqIgnoreAsciiCase
  rw [Method.upper, hupper]

/-! ### Registrations -/

/-- How the requests of a service are priced. -/
inductive ServiceCostMode
  | fixed
  | passthrough
  | none
  deriving DecidableEq, Repr

/-- A price that fits `numeric(20, 8)`, in units of 10⁻⁸ dollars. -/
structure Price where
  units : ℕ
  units_lt : units < 10 ^ 20
  deriving DecidableEq, Repr

/-- A price for the requests whose member at a JSON pointer has a value. -/
structure ServicePricingRule where
  name : Option Text
  jsonPointer : Text
  equals : Text
  costMode : ServiceCostMode
  estimatedCostUsd : Option Price
  deriving DecidableEq

structure ServiceEndpointPricingRule where
  method : Text
  pathTemplate : Text
  operationId : Option Text
  costMode : ServiceCostMode
  estimatedCostUsd : Option Price
  deriving DecidableEq

/-- What pricing reads of a registration. `accessa` says that the service is reached through an
Accessa profile. -/
structure ServiceRegistration where
  name : Text
  accessa : Bool
  costMode : ServiceCostMode
  estimatedCostUsd : Option Price
  pricingRules : List ServicePricingRule
  endpointPricingRules : List ServiceEndpointPricingRule
  deriving DecidableEq

/-- The price of a request, and what it is attributed to. -/
structure ResolvedServiceCost where
  pricingRuleFingerprint : Option Text
  costMode : ServiceCostMode
  estimatedCostUsd : Option Price
  pricingRuleName : Option Text
  deriving DecidableEq

/-! ### Fingerprints -/

/-- What a fingerprint is taken of. -/
inductive Selector
  | body (name : Option Text) (jsonPointer equals : Text)
  | endpoint (name method pathTemplate : Text)

def endpointPricingRuleName (rule : ServiceEndpointPricingRule) : Text :=
  rule.operationId.getD (toAsciiUppercase rule.method ++ 32 :: rule.pathTemplate)

variable (pricingFingerprint : Selector → Text)

def bodyPricingFingerprint (rule : ServicePricingRule) : Text :=
  pricingFingerprint (.body rule.name rule.jsonPointer rule.equals)

def endpointPricingFingerprint (rule : ServiceEndpointPricingRule) : Text :=
  pricingFingerprint
    (.endpoint (endpointPricingRuleName rule) (toAsciiUppercase rule.method) rule.pathTemplate)

/-! ### Endpoints -/

/-- `trim_matches('/')`. -/
def trimSlashes (text : Text) : Text :=
  ((text.dropWhile (· = 47)).reverse.dropWhile (· = 47)).reverse

def segments (path : Text) : List Text :=
  (trimSlashes path).splitOn 47

/-- A segment `{…}` of a template. -/
def isParameter (segment : Text) : Bool :=
  decide (segment.head? = some 123) && decide (segment.getLast? = some 125)

/-- The loop of `endpoint_template_matches` over both lists of segments. -/
def segmentsMatch : List Text → List Text → Bool
  | [], [] => true
  | template :: templates, actual :: actuals =>
    (isParameter template || decide (template = actual)) && segmentsMatch templates actuals
  | _, _ => false

def endpointTemplateMatches (pathTemplate path : Text) : Bool :=
  segmentsMatch (segments pathTemplate) (segments path)

/-- `endpoint_template_specificity`: the static segments, then the length. -/
def endpointTemplateSpecificity (path : Text) : ℕ × ℕ :=
  ((segments path).countP fun segment ↦ !isParameter segment, path.length)

/-- `max_by_key`, which keeps the last of several that are largest. -/
def maxBySpecificity (rules : List ServiceEndpointPricingRule) :
    Option ServiceEndpointPricingRule :=
  rules.foldl (fun best rule ↦
    match best with
    | none => some rule
    | some best =>
      let old := endpointTemplateSpecificity best.pathTemplate
      let new := endpointTemplateSpecificity rule.pathTemplate
      if new.1 < old.1 ∨ new.1 = old.1 ∧ new.2 < old.2 then some best else some rule) none

def resolveEndpointPricingRule (method : Method) (path : Text)
    (rules : List ServiceEndpointPricingRule) : Option ResolvedServiceCost :=
  (maxBySpecificity ((rules.filter fun rule ↦ eqIgnoreAsciiCase rule.method method.bytes).filter
      fun rule ↦ endpointTemplateMatches rule.pathTemplate path)).map fun rule ↦
    { pricingRuleFingerprint := some (endpointPricingFingerprint pricingFingerprint rule)
      costMode := rule.costMode
      estimatedCostUsd := rule.estimatedCostUsd
      pricingRuleName := some (endpointPricingRuleName rule) }

/-! ### The price of a request -/

def defaultServiceCost (costMode : ServiceCostMode) (estimatedCostUsd : Option Price) :
    ResolvedServiceCost :=
  ⟨none, costMode, estimatedCostUsd, none⟩

/-- `matching_service_pricing_rule`: `member` is the string at a pointer of the request. -/
def matchingServicePricingRule (member : Text → Option Text) (rules : List ServicePricingRule) :
    Option ServicePricingRule :=
  rules.find? fun rule ↦ decide (member rule.jsonPointer = some rule.equals)

/-- The price of a body rule. -/
def bodyServiceCost (rule : ServicePricingRule) : ResolvedServiceCost where
  pricingRuleFingerprint := some (bodyPricingFingerprint pricingFingerprint rule)
  costMode := rule.costMode
  estimatedCostUsd := rule.estimatedCostUsd
  pricingRuleName := rule.name

def resolveServiceCostFromValue (member : Text → Option Text) (costMode : ServiceCostMode)
    (estimatedCostUsd : Option Price) (rules : List ServicePricingRule) : ResolvedServiceCost :=
  match matchingServicePricingRule member rules with
  | some rule => bodyServiceCost pricingFingerprint rule
  | none => defaultServiceCost costMode estimatedCostUsd

/-! ### Recorded attributions -/

/-- The `cost_source` of a usage event. -/
inductive CostSource
  | none
  | serviceDefaultFixed
  | servicePricingRuleFixed
  | serviceDefaultPassthrough
  | servicePricingRulePassthrough
  | missingUpstreamCost
  | upstreamPassthrough
  | routeDefault
  deriving DecidableEq, Repr

/-- The sources that the repricer understands. -/
def CostSource.repriceable : Option CostSource → Bool
  | some .none | some .serviceDefaultFixed | some .servicePricingRuleFixed => true
  | _ => false

/-- The method and the path of a recorded event, when both were recorded. -/
def endpointContext (method path : Option Text) : Option (Method × Text) :=
  match method, path with
  | some method, some path => (Method.fromBytes method).map fun parsed ↦ (parsed, path)
  | _, _ => none

/-- The price that `after` gives to an event without a body rule. -/
def basePrice (context : Option (Method × Text)) (after : ServiceRegistration) :
    ResolvedServiceCost :=
  (context.bind fun endpoint ↦ resolveEndpointPricingRule pricingFingerprint endpoint.1 endpoint.2
    after.endpointPricingRules).getD (defaultServiceCost after.costMode after.estimatedCostUsd)

/-- The price of an event with a rule name: that of the one body rule or of the endpoint rule of
this name, if its selector is the one that was recorded. -/
def repriceNamed (before after : ServiceRegistration) (context : Option (Method × Text))
    (name : Text) (fingerprint : Option Text) : Option ResolvedServiceCost :=
  let resolveEndpoint := fun registration : ServiceRegistration ↦ context.bind fun endpoint ↦
    resolveEndpointPricingRule pricingFingerprint endpoint.1 endpoint.2
      registration.endpointPricingRules
  let oldEndpoint := resolveEndpoint before
  let base := basePrice pricingFingerprint context after
  let fromEndpoint := oldEndpoint.any fun rule ↦ decide (rule.pricingRuleName = some name)
  match before.pricingRules.filter fun rule ↦ decide (rule.name = some name) with
  | _ :: _ :: _ => none
  | [oldBody] =>
    if fromEndpoint then none
    else if fingerprint ≠ some (bodyPricingFingerprint pricingFingerprint oldBody) then none
    else
      match after.pricingRules.filter fun rule ↦ decide (rule.name = some name) with
      | [newBody] =>
        if oldBody.jsonPointer ≠ newBody.jsonPointer ∨ oldBody.equals ≠ newBody.equals then none
        else if base.costMode = .none ∧ (resolveEndpoint after).isSome then some base
        else some (bodyServiceCost pricingFingerprint newBody)
      | _ => none
  | [] =>
    if fromEndpoint ∧ fingerprint.isSome ∧
        fingerprint = oldEndpoint.bind fun rule ↦ rule.pricingRuleFingerprint then some base
    else none

/-- The price of an event without a rule name. Body rules without a name are recorded like the
default, so their events cannot be told from those of the default. -/
def repriceUnnamed (before after : ServiceRegistration) (context : Option (Method × Text))
    (fingerprint : Option Text) : Option ResolvedServiceCost :=
  let oldEndpoint := context.bind fun endpoint ↦
    resolveEndpointPricingRule pricingFingerprint endpoint.1 endpoint.2 before.endpointPricingRules
  if fingerprint.isSome ∨ (before.pricingRules.any fun rule ↦ rule.name.isNone) ∨
      oldEndpoint.isSome then none
  else some (basePrice pricingFingerprint context after)

/-- The last match of `reprice_recorded_service_cost`. A price is finite and not negative. -/
def chargeable (resolved : ResolvedServiceCost) : Option ResolvedServiceCost :=
  match resolved.costMode with
  | .passthrough => none
  | .fixed => resolved.estimatedCostUsd.map fun _ ↦ resolved
  | .none => some { resolved with estimatedCostUsd := none }

def repriceRecordedServiceCost (before after : ServiceRegistration)
    (costSource : Option CostSource)
    (pricingRuleName method endpointPath fingerprint : Option Text) :
    Option ResolvedServiceCost :=
  if before.accessa ∨ ¬ CostSource.repriceable costSource then none
  else
    let context := endpointContext method endpointPath
    if context.isNone ∧ (before.endpointPricingRules ≠ [] ∨ after.endpointPricingRules ≠ []) then
      none
    else
      let resolved :=
        match pricingRuleName with
        | some name => repriceNamed pricingFingerprint before after context name fingerprint
        | none => repriceUnnamed pricingFingerprint before after context fingerprint
      resolved.bind chargeable

/-! ### Repricing under the same registration -/

/-- The case of the method does not matter for endpoint rules. -/
theorem resolveEndpointPricingRule_upper (method : Method) (path : Text)
    (rules : List ServiceEndpointPricingRule) :
    resolveEndpointPricingRule pricingFingerprint method.upper path rules =
      resolveEndpointPricingRule pricingFingerprint method path rules := by
  unfold resolveEndpointPricingRule
  simp only [eqIgnoreAsciiCase_upper]

/-- An endpoint price has the name and the fingerprint of its rule. -/
theorem resolveEndpointPricingRule_named {method : Method} {path : Text}
    {rules : List ServiceEndpointPricingRule} {cost : ResolvedServiceCost}
    (hcost : resolveEndpointPricingRule pricingFingerprint method path rules = some cost) :
    ∃ name, cost.pricingRuleName = some name ∧ cost.pricingRuleFingerprint.isSome := by
  obtain ⟨rule, -, rfl⟩ := Option.map_eq_some_iff.mp hcost
  exact ⟨_, rfl, rfl⟩

/-- The recorded method and path give the context of the request. -/
theorem endpointContext_upper (method : Method) (path : Text) :
    endpointContext (some (toAsciiUppercase method.bytes)) (some path) =
      some (method.upper, path) := by
  rw [endpointContext, Method.fromBytes_upper]
  rfl

variable {pricingFingerprint} (registration : ServiceRegistration) {method : Method}
  {path : Text} {cost : Option ResolvedServiceCost}

/-- The base price of a request with an endpoint. -/
theorem basePrice_some
    (hcost : resolveEndpointPricingRule pricingFingerprint method path
      registration.endpointPricingRules = cost) :
    basePrice pricingFingerprint (some (method, path)) registration =
      cost.getD (defaultServiceCost registration.costMode registration.estimatedCostUsd) := by
  rw [basePrice, Option.bind_some, hcost]

/-- An event with a fingerprint and no name had a body rule without one, and is left alone. -/
theorem repriceUnnamed_fingerprint (before after : ServiceRegistration)
    (context : Option (Method × Text)) (fingerprint : Text) :
    repriceUnnamed pricingFingerprint before after context (some fingerprint) = none := by
  simp [repriceUnnamed]

/-- Assumes: no endpoint rule. An event without a rule has the default price, unless some body rule
has no name. -/
theorem repriceUnnamed_same
    (hcost : resolveEndpointPricingRule pricingFingerprint method path
      registration.endpointPricingRules = none) :
    repriceUnnamed pricingFingerprint registration registration (some (method, path)) none =
      if registration.pricingRules.all fun rule ↦ rule.name.isSome then
        some (defaultServiceCost registration.costMode registration.estimatedCostUsd)
      else none := by
  rw [repriceUnnamed, Option.bind_some, hcost, basePrice_some registration hcost]
  simp only [Option.isSome_none, Bool.false_eq_true, false_or, or_false, Option.getD_none]
  by_cases hnamed : (registration.pricingRules.all fun rule ↦ rule.name.isSome) = true
  · rw [if_pos hnamed, if_neg]
    simpa [Option.isSome_iff_ne_none] using hnamed
  · rw [if_neg hnamed, if_pos]
    simpa using hnamed

/-- Assumes: the endpoint rule of the event. It is found again, unless a body rule has its name. -/
theorem repriceNamed_endpoint {resolved : ResolvedServiceCost} {name : Text}
    (hcost : resolveEndpointPricingRule pricingFingerprint method path
      registration.endpointPricingRules = some resolved)
    (hname : resolved.pricingRuleName = some name) :
    repriceNamed pricingFingerprint registration registration (some (method, path)) name
        resolved.pricingRuleFingerprint =
      if registration.pricingRules.all fun rule ↦ decide (rule.name ≠ resolved.pricingRuleName) then
        some resolved
      else none := by
  obtain ⟨-, -, hsome⟩ := resolveEndpointPricingRule_named pricingFingerprint hcost
  simp only [repriceNamed, Option.bind_some, hcost, basePrice_some registration hcost,
    Option.any_some, hname, decide_true, if_true, true_and, Option.getD_some]
  by_cases hfree : registration.pricingRules.filter (fun rule ↦ decide (rule.name = some name)) = []
  · have hall : (registration.pricingRules.all fun rule ↦ decide (rule.name ≠ some name)) =
      true := by
      simpa [List.filter_eq_nil_iff] using hfree
    rw [hfree, if_pos hall]
    simp [hsome]
  · have hall : ¬ (registration.pricingRules.all fun rule ↦ decide (rule.name ≠ some name)) =
      true := by
      simpa [List.filter_eq_nil_iff] using hfree
    rw [if_neg hall]
    split
    · rfl
    · rfl
    · rename_i hnil
      exact absurd hnil hfree

/-- Assumes: a body rule of the event that a free endpoint does not hide. It is found again, unless
another rule has its name. -/
theorem repriceNamed_body {rule : ServicePricingRule} {name : Text}
    (hcost : resolveEndpointPricingRule pricingFingerprint method path
      registration.endpointPricingRules = cost)
    (hpriced : ∀ resolved, cost = some resolved → resolved.costMode ≠ .none)
    (hrule : rule ∈ registration.pricingRules) (hname : rule.name = some name) :
    repriceNamed pricingFingerprint registration registration (some (method, path)) name
        (some (bodyPricingFingerprint pricingFingerprint rule)) =
      if (registration.pricingRules.countP fun other ↦ decide (other.name = rule.name)) = 1 ∧
          (cost.all fun resolved ↦ decide (resolved.pricingRuleName ≠ rule.name)) then
        some (bodyServiceCost pricingFingerprint rule)
      else none := by
  have hmem : rule ∈ registration.pricingRules.filter fun other ↦ decide (other.name = some name) :=
    List.mem_filter.mpr ⟨hrule, decide_eq_true hname⟩
  simp only [repriceNamed, Option.bind_some, hcost, basePrice_some registration hcost, hname,
    List.countP_eq_length_filter]
  split
  · rename_i hfilter
    rw [hfilter, if_neg]
    simp
  · rename_i oldBody hfilter
    rw [hfilter, List.mem_singleton] at hmem
    subst hmem
    rw [hfilter]
    simp only [ne_eq, not_true_eq_false, if_false, or_self, List.length_singleton, true_and]
    rcases cost with _ | resolved
    · simp
    · have hcharged := hpriced resolved rfl
      by_cases hsame : resolved.pricingRuleName = some name
      · simp [hsame]
      · simp [hsame, hcharged]
  · rename_i hnil
    rw [hnil] at hmem
    cases hmem

end Relayna.Pricing

import Mathlib.Data.List.Infix
import Mathlib.Data.Prod.Lex
import Relayna.Library.Json.Text
import Relayna.Library.LastMax
import Relayna.Policy.KeyPolicy
import Relayna.Pricing.Services

/-!
# The endpoints of a service

`crates/gateway-core/src/services.rs`: the endpoints that an OpenAPI document lists and the prices
that are set for them. Both lists are validated. An endpoint is identified by its method and its
template without the names of the parameters, and no identity may occur twice.

`validateEach_ok_iff` says what an accepted list is. `resolveEndpointPricingRule_eq` says that a
request is charged by the last of the most specific rules that serve it.
-/

set_option autoImplicit false
set_option relaxedAutoImplicit false

namespace Relayna.Pricing

open Relayna.Library Relayna.Library.Json

/-- The error of the validators. -/
inductive GatewayError
  | invalidServicePayload
  deriving DecidableEq, Repr

/-- An endpoint of an OpenAPI document. -/
structure ServiceOpenApiEndpoint where
  method : Text
  pathTemplate : Text
  operationId : Option Text
  summary : Option Text
  relaynaDefault : Bool
  deriving DecidableEq

/-! ### Validation -/

def endpointMethods : List Text :=
  ["GET", "POST", "PUT", "PATCH", "DELETE", "HEAD", "OPTIONS"].map ascii

def validateEndpointMethod (method : Text) : Except GatewayError Unit :=
  match Method.fromBytes method with
  | none => .error .invalidServicePayload
  | some parsed =>
    if parsed.bytes ∈ endpointMethods then .ok () else .error .invalidServicePayload

def containsBrace (text : Text) : Bool :=
  text.any fun byte ↦ decide (byte = 123 ∨ byte = 125)

/-- Whether the braces of a segment are those of one named parameter. -/
def bracesAccepted (segment : Text) : Bool :=
  !containsBrace segment ||
    (isParameter segment && decide (2 < segment.length) &&
      !containsBrace (segment.drop 1).dropLast)

def validateOpenapiEndpointPath (path : Text) : Except GatewayError Unit :=
  if 512 < path.length ∨ path.head? ≠ some 47 ∨ [47, 47] <:+: path then
    .error .invalidServicePayload
  else if (segments path).all bracesAccepted then .ok ()
  else .error .invalidServicePayload

/-- `validate_cost` of a price that fits its column. -/
def validateCost (costMode : ServiceCostMode) (estimatedCostUsd : Option Price) :
    Except GatewayError Unit :=
  if costMode = .fixed ∧ estimatedCostUsd = none then .error .invalidServicePayload else .ok ()

/-- The check of an optional text's length. -/
def validateLength (limit : ℕ) (text : Option Text) : Except GatewayError Unit :=
  if text.any fun text ↦ decide (limit < text.length) then .error .invalidServicePayload
  else .ok ()

def normalizedEndpointTemplate (path : Text) : Text :=
  [47].intercalate ((path.splitOn 47).map fun segment ↦
    if isParameter segment then [123, 125] else segment)

/-- What no two entries of a list may share. -/
abbrev Identity := Text × Text

def ServiceOpenApiEndpoint.identity (endpoint : ServiceOpenApiEndpoint) : Identity :=
  (toAsciiUppercase endpoint.method, normalizedEndpointTemplate endpoint.pathTemplate)

def ServiceEndpointPricingRule.identity (rule : ServiceEndpointPricingRule) : Identity :=
  (toAsciiUppercase rule.method, normalizedEndpointTemplate rule.pathTemplate)

section Each

variable {Entry : Type} (check : Entry → Except GatewayError Unit) (identity : Entry → Identity)

/-- The loop over the entries, with the identities before. -/
def validateFrom : List Identity → List Entry → Except GatewayError Unit
  | _, [] => .ok ()
  | identities, entry :: rest => do
    check entry
    if identity entry ∈ identities then .error .invalidServicePayload
    else validateFrom (identity entry :: identities) rest

/-- A list with at most 500 entries, each checked, and no identity twice. -/
def validateEach (entries : List Entry) : Except GatewayError Unit :=
  if 500 < entries.length then .error .invalidServicePayload
  else validateFrom check identity [] entries

end Each

def validateOpenapiEndpoint (endpoint : ServiceOpenApiEndpoint) : Except GatewayError Unit := do
  validateEndpointMethod endpoint.method
  validateOpenapiEndpointPath endpoint.pathTemplate
  validateLength 256 endpoint.operationId
  validateLength 512 endpoint.summary

def validateOpenapiEndpoints (endpoints : List ServiceOpenApiEndpoint) : Except GatewayError Unit :=
  validateEach validateOpenapiEndpoint ServiceOpenApiEndpoint.identity endpoints

def validateEndpointPricingRule (rule : ServiceEndpointPricingRule) :
    Except GatewayError Unit := do
  validateEndpointMethod rule.method
  validateOpenapiEndpointPath rule.pathTemplate
  validateCost rule.costMode rule.estimatedCostUsd
  validateLength 256 rule.operationId

def validateEndpointPricingRules (rules : List ServiceEndpointPricingRule) :
    Except GatewayError Unit :=
  validateEach validateEndpointPricingRule ServiceEndpointPricingRule.identity rules

section Each

variable {Entry : Type} {check : Entry → Except GatewayError Unit} {identity : Entry → Identity}

theorem validateFrom_ok_iff (identities : List Identity) (entries : List Entry) :
    validateFrom check identity identities entries = .ok () ↔
      (∀ entry ∈ entries, check entry = .ok ()) ∧ (entries.map identity).Nodup ∧
        ∀ entry ∈ entries, identity entry ∉ identities := by
  induction entries generalizing identities with
  | nil => simp [validateFrom]
  | cons entry rest ih =>
    rw [validateFrom]
    rcases hcheck : check entry with error | _
    · simp [bind, Except.bind, hcheck]
    · show (if identity entry ∈ identities then _ else _) = _ ↔ _
      split_ifs with hmem
      · simp [hmem]
      · rw [ih]
        simp only [List.map_cons, List.nodup_cons, List.mem_cons, List.mem_map, not_or]
        grind

/-- What an accepted list is. -/
theorem validateEach_ok_iff (entries : List Entry) :
    validateEach check identity entries = .ok () ↔
      entries.length ≤ 500 ∧ (∀ entry ∈ entries, check entry = .ok ()) ∧
        (entries.map identity).Nodup := by
  unfold validateEach
  split_ifs with hlong
  · simp [hlong]
  · simp [validateFrom_ok_iff, Nat.le_of_not_lt hlong]

/-- Assumes: an accepted list. No identity occurs twice. -/
theorem nodup_of_validateEach {entries : List Entry}
    (hvalid : validateEach check identity entries = .ok ()) : (entries.map identity).Nodup :=
  ((validateEach_ok_iff entries).mp hvalid).2.2

end Each

/-! ### Selection -/

/-- Whether a method and a template serve a request. -/
def serves (method : Method) (path : Text) (entryMethod pathTemplate : Text) : Bool :=
  endpointTemplateMatches pathTemplate path && eqIgnoreAsciiCase entryMethod method.bytes

/-- `endpoint_template_specificity` in its order, which compares the lengths of templates with the
same number of static segments. -/
def specificityKey (pathTemplate : Text) : Lex (ℕ × ℕ) :=
  toLex (endpointTemplateSpecificity pathTemplate)

def matchingOpenapiEndpoint (method : Method) (path : Text)
    (endpoints : List ServiceOpenApiEndpoint) : Option ServiceOpenApiEndpoint :=
  lastMax (fun endpoint ↦ specificityKey endpoint.pathTemplate)
    ((endpoints.filter fun endpoint ↦ eqIgnoreAsciiCase endpoint.method method.bytes).filter
      fun endpoint ↦ endpointTemplateMatches endpoint.pathTemplate path)

/-- The endpoints that serve a request. -/
def servingEndpoints (method : Method) (path : Text) (endpoints : List ServiceOpenApiEndpoint) :
    List ServiceOpenApiEndpoint :=
  endpoints.filter fun endpoint ↦ serves method path endpoint.method endpoint.pathTemplate

/-- The rules that serve a request. -/
def servingRules (method : Method) (path : Text) (rules : List ServiceEndpointPricingRule) :
    List ServiceEndpointPricingRule :=
  rules.filter fun rule ↦ serves method path rule.method rule.pathTemplate

/-- The rule that `resolve_endpoint_pricing_rule` chooses. -/
def chosenRule (method : Method) (path : Text) (rules : List ServiceEndpointPricingRule) :
    Option ServiceEndpointPricingRule :=
  lastMax (fun rule ↦ specificityKey rule.pathTemplate) (servingRules method path rules)

/-- The price of an endpoint rule. -/
def endpointServiceCost (pricingFingerprint : Selector → Text)
    (rule : ServiceEndpointPricingRule) : ResolvedServiceCost where
  pricingRuleFingerprint := some (endpointPricingFingerprint pricingFingerprint rule)
  costMode := rule.costMode
  estimatedCostUsd := rule.estimatedCostUsd
  pricingRuleName := some (endpointPricingRuleName rule)

theorem maxBySpecificity_eq (rules : List ServiceEndpointPricingRule) :
    maxBySpecificity rules = lastMax (fun rule ↦ specificityKey rule.pathTemplate) rules := by
  unfold maxBySpecificity lastMax
  congr 1
  funext best rule
  rcases best with _ | best
  · rfl
  · exact if_congr (Prod.Lex.toLex_lt_toLex ..).symm rfl rfl

theorem matchingOpenapiEndpoint_eq (method : Method) (path : Text)
    (endpoints : List ServiceOpenApiEndpoint) :
    matchingOpenapiEndpoint method path endpoints =
      lastMax (fun endpoint ↦ specificityKey endpoint.pathTemplate)
        (servingEndpoints method path endpoints) := by
  rw [matchingOpenapiEndpoint, List.filter_filter]
  rfl

/-- A request is charged by the last of the most specific rules that serve it. -/
theorem resolveEndpointPricingRule_eq (pricingFingerprint : Selector → Text) (method : Method)
    (path : Text) (rules : List ServiceEndpointPricingRule) :
    resolveEndpointPricingRule pricingFingerprint method path rules =
      (chosenRule method path rules).map (endpointServiceCost pricingFingerprint) := by
  rw [resolveEndpointPricingRule, maxBySpecificity_eq, List.filter_filter]
  rfl

end Relayna.Pricing

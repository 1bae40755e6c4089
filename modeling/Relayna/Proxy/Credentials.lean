import Relayna.Auth.Authenticator
import Relayna.Auth.EntraClaims
import Relayna.Library.HeaderMap
import Relayna.Passthrough.PathPolicy
import Relayna.Pricing.Services

/-!
# The credentials of a request

What the request filter of `crates/gateway-proxy/src/pingora_plane.rs` reads of the headers of a
request: the Relayna key, from its own header or from `Authorization`
(`crates/gateway-core/src/auth.rs`), the bearer token that LiteLLM is to see, and the identity of
Entra or Apigee (`verify_endpoint_identity`, `verify_entra_request`). Route-local authentication
profiles (`crates/gateway-core/src/auth_profiles.rs`) choose between them by the key.

The lookup of a key and the verification of a token are functions here: for one request each is
asked at most once. The cryptography of Apigee and the verification of tokens are parameters, and so
is the lower case of a name in Unicode.
-/

set_option autoImplicit false
set_option relaxedAutoImplicit false

namespace Relayna.Proxy.Credentials

open Relayna.Auth (AuthenticatedKey)
open Relayna.Auth.Entra (EndpointEntraPolicy EntraIdentityContext Text)
open Relayna.Library.HeaderMap (Headers)
open Relayna.Library.Utf8 (encode isWhitespace)
open Relayna.Passthrough.PathPolicy (trim)

/-! ### Errors and headers -/

/-- The errors that the request filter answers with. `store` is any error of a store. -/
inductive GatewayError
  | authenticationOverloaded
  | authenticationProfileDenied
  | disabledRoute
  | entra (error : Auth.Entra.GatewayError)
  | insufficientEntraAuthorization
  | invalidConfiguration
  | invalidEntraIssuer
  | invalidEntraToken
  | invalidServicePayload
  | liteLlmAuthenticationConflict
  | malformedAuthorization
  | malformedEntraAuthorization
  | missingAuthorization
  | missingEntraAuthorization
  | missingService
  | policyDenied
  | store
  | unsupportedRoute
  | untrustedApigeeIdentity
  deriving DecidableEq

abbrev GatewayResult (Value : Type) := Except GatewayError Value

def lowerName (name : Text) : Text :=
  name.map Char.toLower

/-- `HeaderValue::to_str`: visible ASCII, spaces and tabs. -/
def toStr (value : List UInt8) : Option Text :=
  if value.all fun byte ↦ (32 ≤ byte && byte < 127) || byte = 9 then
    some (value.map fun byte ↦ Char.ofNat byte.toNat)
  else none

structure Request where
  method : Pricing.Method
  http11 : Bool
  path : Text
  headers : Headers Text (List UInt8)

/-- `header_value`: the first value of a name, if it is text. -/
def Request.headerValue (req : Request) (name : Text) : Option Text :=
  (Library.HeaderMap.first req.headers (lowerName name)).bind toStr

/-- `headers.contains_key`. -/
def Request.containsKey (req : Request) (name : Text) : Bool :=
  Library.HeaderMap.contains req.headers (lowerName name)

/-- `headers.get_all(name).iter().count()`. -/
def Request.count (req : Request) (name : Text) : ℕ :=
  (Library.HeaderMap.getAll req.headers (lowerName name)).length

/-- `Authorization`. -/
def authorizationHeader : Text := "authorization".toList

def apigeeIdentityHeader : Text := "x-apigee-entra-identity".toList

def apigeeSignatureHeader : Text := "x-apigee-entra-signature".toList

/-! ### Tokens and keys -/

/-- `str::strip_prefix`. -/
def stripPrefix (front text : Text) : Option Text :=
  if front.isPrefixOf text then some (text.drop front.length) else none

/-- `Bearer` and a space. -/
def bearer : Text := "Bearer ".toList

def relaynaKeyPrefix : Text := "rk_live_".toList

/-- `u8::is_ascii_graphic`. -/
def isAsciiGraphic (character : Char) : Bool :=
  33 ≤ character.toNat && character.toNat ≤ 126

def maxKeyBytes : ℕ := 1024

def validateKeyText (value : Text) : GatewayResult Unit :=
  if maxKeyBytes < (encode value).length ||
      !value.all (fun character ↦ isAsciiGraphic character && character ≠ ',') then
    .error .malformedAuthorization
  else .ok ()

structure VirtualKey where
  raw : Text
  lookupPrefix : Text
  deriving DecidableEq

def VirtualKey.parse (raw : Text) : GatewayResult VirtualKey := do
  validateKeyText raw
  if !relaynaKeyPrefix.isPrefixOf raw || (encode raw).length ≤ 16 then
    .error .malformedAuthorization
  else .ok ⟨raw, raw.take 16⟩

def VirtualKey.fromAuthorization (value : Text) : GatewayResult VirtualKey :=
  match stripPrefix bearer value with
  | none => .error .malformedAuthorization
  | some token => VirtualKey.parse (trim token)

def litellmBearerCredential (authorization : Option Text) : GatewayResult Text :=
  match authorization with
  | none => .error .missingAuthorization
  | some authorization =>
    match stripPrefix bearer authorization with
    | none => .error .malformedAuthorization
    | some token =>
      let token := trim token
      if token.isEmpty || token.any isWhitespace ||
        !token.all (fun character ↦ character.toNat < 128)
      then .error .malformedAuthorization
      else .ok token

def authorizationHasRelaynaKey (authorization : Option Text) : Bool :=
  (authorization.bind (stripPrefix bearer)).any fun token ↦ relaynaKeyPrefix.isPrefixOf (trim token)

def requireUnverifiedBearer (authorization : Option Text) : GatewayResult Unit :=
  match authorization with
  | none => .error .missingEntraAuthorization
  | some authorization =>
    match stripPrefix bearer authorization with
    | none => .error .malformedEntraAuthorization
    | some token => if (trim token).isEmpty then .error .malformedEntraAuthorization else .ok ()

section Keys

variable (authenticateVirtualKey : VirtualKey → GatewayResult AuthenticatedKey)

/-- `Authenticator::authenticate_authorization`. -/
def authenticateAuthorization (authorization : Option Text) : GatewayResult AuthenticatedKey :=
  match authorization with
  | none => .error .missingAuthorization
  | some authorization =>
    if maxKeyBytes + 16 < (encode authorization).length then .error .malformedAuthorization
    else do authenticateVirtualKey (← VirtualKey.fromAuthorization authorization)

/-- `Authenticator::authenticate_raw_key`. -/
def authenticateRawKey (rawKey : Option Text) : GatewayResult AuthenticatedKey :=
  match rawKey with
  | none => .error .missingAuthorization
  | some rawKey =>
    if maxKeyBytes + 16 < (encode rawKey).length then .error .malformedAuthorization
    else do authenticateVirtualKey (← VirtualKey.parse (trim rawKey))

end Keys

/-! ### Authentication profiles -/

/-- `EndpointEntraPolicy`. -/
structure EndpointPolicy extends EndpointEntraPolicy where
  allowApigee : Bool

/-- `AuthenticationProfile`. `keyOnly` is the type `relayna_key_only`. -/
structure AuthenticationProfile where
  id : Text
  name : Text
  enabled : Bool
  keyOnly : Bool
  entra : Option EndpointPolicy

structure ProfileBinding where
  keyId : Uuid
  profileId : Text
  deriving DecidableEq

structure AuthenticationProfiles where
  revision : ℕ
  profiles : List AuthenticationProfile
  bindings : List ProfileBinding

def validClaim (value : Text) : Bool :=
  !value.isEmpty && (encode value).length ≤ 512 && !value.any isWhitespace

/-- The part of `EndpointAccess::validate` that concerns an Entra policy. -/
def EndpointPolicy.valid (policy : EndpointPolicy) : Bool :=
  validClaim policy.audience &&
    (policy.requiredScopes ++ policy.requiredRoles ++ policy.allowedGroups).all validClaim

/-- `char::is_control`. -/
def isControl (character : Char) : Bool :=
  character.toNat < 32 || (127 ≤ character.toNat && character.toNat < 160)

/-- The check that `AuthenticationProfiles::validate` makes of one profile. -/
def AuthenticationProfile.valid (profile : AuthenticationProfile) (accessa : Bool) : Bool :=
  !profile.id.isEmpty && (encode profile.id).length ≤ 64 &&
    profile.id.all (fun character ↦ character.isAlphanum || character = '-' || character = '_') &&
    !(trim profile.name).isEmpty && (encode profile.name).length ≤ 120 &&
    !profile.name.any isControl && !(accessa && profile.entra.isNone) &&
    (!profile.keyOnly) = profile.entra.isSome &&
    profile.entra.all fun policy ↦ policy.requiredScopes.length ≤ 64 &&
      policy.requiredRoles.length ≤ 64 && policy.allowedGroups.length ≤ 64 && policy.valid

/-- `AuthenticationProfiles::validate`, with the lower case of Unicode. -/
def AuthenticationProfiles.validate (toLowercase : Text → Text) (set : AuthenticationProfiles)
    (accessa : Bool) : GatewayResult Unit :=
  if !set.profiles.isEmpty && set.profiles.length ≤ 32 && set.bindings.length ≤ 1024 &&
      set.revision < 2 ^ 63 - 1 &&
      (set.profiles.map AuthenticationProfile.id).Nodup &&
      (set.profiles.map fun profile ↦ toLowercase (trim profile.name)).Nodup &&
      set.profiles.all (AuthenticationProfile.valid · accessa) &&
      set.bindings.all (fun binding ↦
        (set.profiles.map AuthenticationProfile.id).contains binding.profileId) &&
      (set.bindings.map ProfileBinding.keyId).Nodup then .ok ()
  else .error .invalidServicePayload

def AuthenticationProfiles.select (set : AuthenticationProfiles) (keyId : Uuid) :
    GatewayResult AuthenticationProfile :=
  match set.bindings.filter fun binding ↦ binding.keyId = keyId with
  | [binding] =>
    match set.profiles.filter fun profile ↦ profile.id = binding.profileId with
    | [profile] => if profile.enabled then .ok profile else .error .authenticationProfileDenied
    | _ => .error .authenticationProfileDenied
  | _ => .error .authenticationProfileDenied

/-- Assumes: a profile that was selected for a key. The key is bound to this profile and to no other
one, and the profile is enabled. -/
theorem AuthenticationProfiles.select_sound {set : AuthenticationProfiles} {keyId : Uuid}
    {profile : AuthenticationProfile} (hselect : set.select keyId = .ok profile) :
    profile ∈ set.profiles ∧ profile.enabled = true ∧ ⟨keyId, profile.id⟩ ∈ set.bindings ∧
      ∀ binding ∈ set.bindings, binding.keyId = keyId → binding.profileId = profile.id := by
  unfold AuthenticationProfiles.select at hselect
  split at hselect
  case h_1 binding hbindings =>
    split at hselect
    case h_1 found hprofiles =>
      split_ifs at hselect with henabled
      obtain rfl := Except.ok.inj hselect
      have hfound : found ∈ set.profiles.filter fun other ↦ other.id = binding.profileId :=
        hprofiles ▸ List.mem_singleton_self found
      have hbinding : binding ∈ set.bindings.filter fun other ↦ other.keyId = keyId :=
        hbindings ▸ List.mem_singleton_self binding
      rw [List.mem_filter, decide_eq_true_eq] at hfound hbinding
      obtain ⟨hmem, hid⟩ := hfound
      obtain ⟨hbound, rfl⟩ := hbinding
      refine ⟨hmem, henabled, hid ▸ hbound, fun other hother hkey ↦ ?_⟩
      have hsame : other ∈ set.bindings.filter fun other ↦ other.keyId = binding.keyId :=
        List.mem_filter.mpr ⟨hother, decide_eq_true hkey⟩
      rw [hbindings, List.mem_singleton] at hsame
      rw [hsame, hid]
    case h_2 => cases hselect
  case h_2 => cases hselect

/-! ### Identities -/

structure ApigeeTrustedHeaderConfig where
  secret : Text
  requiredScope : Option Text
  requiredRole : Option Text
  allowedGroups : List Text

/-- `GatewayAuthRuntimeSnapshot`. `verifier` says whether there is a verifier of Entra tokens. -/
structure AuthSnapshot where
  relaynaKeyHeader : Text
  unverifiedBearerEnabled : Bool
  apigeeTrustedHeader : Option ApigeeTrustedHeaderConfig
  tenantId : Option Text
  verifier : Bool

/-- `GatewayAuthRuntimeSnapshot::entra_enabled`. -/
def AuthSnapshot.entraEnabled (auth : AuthSnapshot) : Bool :=
  auth.verifier || auth.apigeeTrustedHeader.isSome

/-- What is asked about the identity of a request: the assertion of Apigee and its signature under a
configuration, a token under the policy of an endpoint, and the `Authorization` header under the
policy of the gateway. -/
structure IdentityOracle where
  apigee : Option Text → Option Text → ApigeeTrustedHeaderConfig →
    GatewayResult EntraIdentityContext
  tokenForEndpoint : Text → EndpointPolicy → GatewayResult EntraIdentityContext
  authorization : Option Text → GatewayResult EntraIdentityContext

/-- The request carries an identity of Apigee. -/
def Request.assertsApigee (req : Request) : Bool :=
  (req.headerValue apigeeIdentityHeader).isSome || (req.headerValue apigeeSignatureHeader).isSome

section Identities

variable (oracle : IdentityOracle) (auth : AuthSnapshot) (seconds : ℤ)

/-- `verify_endpoint_identity`, at a number of seconds. -/
def verifyEndpointIdentity (req : Request) (policy : EndpointPolicy) :
    GatewayResult EntraIdentityContext :=
  if req.assertsApigee then
    if !policy.allowApigee then .error .untrustedApigeeIdentity
    else
      match auth.apigeeTrustedHeader with
      | none => .error .untrustedApigeeIdentity
      | some config => do
        let identity ← oracle.apigee (req.headerValue apigeeIdentityHeader)
          (req.headerValue apigeeSignatureHeader)
          { config with requiredScope := none, requiredRole := none, allowedGroups := [] }
        if auth.tenantId ≠ some identity.tenantId then .error .invalidEntraIssuer
        else
          match policy.authorize identity seconds with
          | .error error => .error (.entra error)
          | .ok () => .ok identity
  else
    match req.headerValue authorizationHeader with
    | none => .error .missingEntraAuthorization
    | some authorization =>
      match stripPrefix bearer authorization with
      | none => .error .malformedEntraAuthorization
      | some token =>
        if !auth.verifier then .error .invalidConfiguration
        else oracle.tokenForEndpoint (trim token) policy

def verifyEntraRequest (req : Request) : GatewayResult EntraIdentityContext :=
  match auth.apigeeTrustedHeader with
  | some config =>
    if req.assertsApigee then
      oracle.apigee (req.headerValue apigeeIdentityHeader) (req.headerValue apigeeSignatureHeader)
        config
    else if !auth.verifier then .error .missingEntraAuthorization
    else oracle.authorization (req.headerValue authorizationHeader)
  | none =>
    if !auth.verifier then .error .missingEntraAuthorization
    else oracle.authorization (req.headerValue authorizationHeader)

end Identities

end Relayna.Proxy.Credentials

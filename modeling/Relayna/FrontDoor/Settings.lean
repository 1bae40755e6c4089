import Mathlib.Data.List.DropRight
import Relayna.Auth.KeySet
import Relayna.Library.Staged
import Relayna.Proxy.Credentials

/-!
# Settings of front-door authentication

`crates/gateway-core/src/auth_settings.rs`. How callers are authenticated is read from a row of the
database, or, while there is none, from the environment (`from_sources`). An operator changes the
row with a patch (`apply_patch`), is shown the settings without their secret (`response`), and every
gateway keeps a configuration with the verifier of Entra tokens that was built from it
(`SharedGatewayAuthRuntime::update`).

`settled_of_applyPatch`, `StoredGatewayAuthSettings.Settled.settings` and
`exists_update_of_installable` say together that what a patch accepts can be put into force wherever
the environment names a usable key header, and `GatewayAuthRuntimeState.Sound` is kept by every
update.

Patches are modelled after they are parsed. Whether the client that fetches keys can be built is an
input.
-/

set_option autoImplicit false
set_option relaxedAutoImplicit false

namespace Relayna.FrontDoor

open Relayna.Auth.Entra (Text algorithmToJsonwebtoken)
open Relayna.Library.Staged
open Relayna.Library.Utf8 (isWhitespace)
open Relayna.Passthrough.PathPolicy (trim)
open Relayna.Proxy.Credentials (ApigeeTrustedHeaderConfig AuthSnapshot)

/-! ### Errors and texts -/

/-- The errors of reading, patching and installing settings. -/
inductive GatewayError
  | invalidConfiguration
  | storeUnavailable
  deriving DecidableEq

abbrev GatewayResult (Value : Type) := Except GatewayError Value

def entraDefaultRelaynaKeyHeader : Text :=
  "X-Relayna-Key".toList

/-- The characters of a token of HTTP. -/
def isTokenCharacter (character : Char) : Bool :=
  let point := character.toNat
  decide ((48 ≤ point ∧ point ≤ 57) ∨ (65 ≤ point ∧ point ≤ 90) ∨ (97 ≤ point ∧ point ≤ 122)) ||
    "!#$%&'*+-.^_`|~".toList.contains character

/-- `HeaderName::from_bytes` accepts the name. -/
def isHeaderName (name : Text) : Bool :=
  !name.isEmpty && name.length ≤ 65535 && name.all isTokenCharacter

def validateRelaynaKeyHeaderName (header : Text) : GatewayResult Unit :=
  if (trim header).isEmpty || !isHeaderName (trim header) then .error .invalidConfiguration
  else .ok ()

def validateUnverifiedBearerMode (enabled apigeeEnabled : Bool) : GatewayResult Unit :=
  if enabled && apigeeEnabled then .error .invalidConfiguration else .ok ()

def normalizedNonEmpty (value : Option Text) : Option Text :=
  (value.map trim).filter (!·.isEmpty)

def normalizeOptionalString (value : Option Text) : Option Text :=
  (value.map trim).filter (!·.isEmpty)

def normalizeStringList (values : List Text) : List Text :=
  (values.map trim).filter (!·.isEmpty)

def requiredField (value : Option Text) : GatewayResult Text :=
  match normalizedNonEmpty value with
  | some text => .ok text
  | none => .error .invalidConfiguration

/-! ### Configurations -/

structure EntraAuthConfig where
  tenantId : Text
  audience : Text
  issuer : Text
  oidcDiscoveryUrl : Text
  requiredScope : Option Text
  requiredRole : Option Text
  allowedGroups : List Text
  acceptedAlgorithms : List Text
  relaynaKeyHeader : Text
  jwksCacheTtlSeconds : ℕ
  clockSkewSeconds : ℤ
  deriving DecidableEq

def EntraAuthConfig.validate (config : EntraAuthConfig) : GatewayResult Unit :=
  if (trim config.tenantId).isEmpty || (trim config.audience).isEmpty ||
      (trim config.issuer).isEmpty || (trim config.oidcDiscoveryUrl).isEmpty then
    .error .invalidConfiguration
  else if config.acceptedAlgorithms.isEmpty ||
      config.acceptedAlgorithms.any fun algorithm ↦
        (algorithmToJsonwebtoken algorithm).isNone then
    .error .invalidConfiguration
  else validateRelaynaKeyHeaderName config.relaynaKeyHeader

/-- `ApigeeTrustedHeaderConfig::validate`. -/
def validateApigee (config : ApigeeTrustedHeaderConfig) : GatewayResult Unit :=
  if (trim config.secret).isEmpty then .error .invalidConfiguration else .ok ()

structure GatewayAuthEnv where
  unverifiedBearerEnabled : Bool
  relaynaKeyHeader : Text
  entraAuth : Option EntraAuthConfig
  apigeeTrustedHeader : Option ApigeeTrustedHeaderConfig

structure StoredGatewayAuthSettings where
  unverifiedBearerEnabled : Bool
  entraEnabled : Bool
  tenantId : Option Text
  audience : Option Text
  issuer : Option Text
  oidcDiscoveryUrl : Option Text
  requiredScope : Option Text
  requiredRole : Option Text
  allowedGroups : List Text
  acceptedAlgorithms : List Text
  relaynaKeyHeader : Option Text
  jwksCacheTtlSeconds : Option ℤ
  clockSkewSeconds : Option ℤ
  apigeeTrustedHeaderEnabled : Bool
  apigeeTrustedHeaderSecret : Option Text
  updatedAt : Option Timestamp

def StoredGatewayAuthSettings.default : StoredGatewayAuthSettings where
  unverifiedBearerEnabled := false
  entraEnabled := false
  tenantId := none
  audience := none
  issuer := none
  oidcDiscoveryUrl := none
  requiredScope := none
  requiredRole := none
  allowedGroups := []
  acceptedAlgorithms := []
  relaynaKeyHeader := none
  jwksCacheTtlSeconds := none
  clockSkewSeconds := none
  apigeeTrustedHeaderEnabled := false
  apigeeTrustedHeaderSecret := none
  updatedAt := none

section Stored

variable (stored : StoredGatewayAuthSettings)

/-- What `entra_config` reads, before it is validated. -/
def StoredGatewayAuthSettings.entraFields (relaynaKeyHeader : Text) :
    GatewayResult EntraAuthConfig := do
  return {
    tenantId := ← requiredField stored.tenantId
    audience := ← requiredField stored.audience
    issuer := ← requiredField stored.issuer
    oidcDiscoveryUrl := ← requiredField stored.oidcDiscoveryUrl
    requiredScope := normalizedNonEmpty stored.requiredScope
    requiredRole := normalizedNonEmpty stored.requiredRole
    allowedGroups := stored.allowedGroups
    acceptedAlgorithms :=
      if stored.acceptedAlgorithms.isEmpty then ["RS256".toList] else stored.acceptedAlgorithms
    relaynaKeyHeader := relaynaKeyHeader
    jwksCacheTtlSeconds :=
      match stored.jwksCacheTtlSeconds with
      | some seconds => if 0 ≤ seconds then seconds.toNat else 300
      | none => 300
    clockSkewSeconds := stored.clockSkewSeconds.getD 60 }

def StoredGatewayAuthSettings.entraConfig (relaynaKeyHeader : Text) :
    GatewayResult EntraAuthConfig := do
  let config ← stored.entraFields relaynaKeyHeader
  config.validate
  return config

def StoredGatewayAuthSettings.apigeeConfig : GatewayResult ApigeeTrustedHeaderConfig := do
  let config : ApigeeTrustedHeaderConfig := {
    secret := ← requiredField stored.apigeeTrustedHeaderSecret
    requiredScope := normalizedNonEmpty stored.requiredScope
    requiredRole := normalizedNonEmpty stored.requiredRole
    allowedGroups := stored.allowedGroups }
  validateApigee config
  return config

/-- The configuration of Entra that the settings turn on, if they do. -/
def StoredGatewayAuthSettings.entra (relaynaKeyHeader : Text) :
    GatewayResult (Option EntraAuthConfig) :=
  if stored.entraEnabled then some <$> stored.entraConfig relaynaKeyHeader else .ok none

/-- The configuration of Apigee that the settings turn on, if they do. -/
def StoredGatewayAuthSettings.apigee : GatewayResult (Option ApigeeTrustedHeaderConfig) :=
  if stored.apigeeTrustedHeaderEnabled then some <$> stored.apigeeConfig else .ok none

def StoredGatewayAuthSettings.validate : GatewayResult Unit := do
  validateUnverifiedBearerMode stored.unverifiedBearerEnabled stored.apigeeTrustedHeaderEnabled
  let _ ← stored.entra (stored.relaynaKeyHeader.getD entraDefaultRelaynaKeyHeader)
  let _ ← stored.apigee
  return ()

end Stored

/-! ### Patches -/

inductive AuthPatchValue (Value : Type)
  | unchanged
  | clear
  | set (value : Value)

structure GatewayAuthSettingsPatchRequest where
  unverifiedBearerEnabled : Option Bool
  relaynaKeyHeader : Option Text
  entraEnabled : Option Bool
  tenantId : AuthPatchValue Text
  audience : AuthPatchValue Text
  issuer : AuthPatchValue Text
  oidcDiscoveryUrl : AuthPatchValue Text
  requiredScope : AuthPatchValue Text
  requiredRole : AuthPatchValue Text
  allowedGroups : Option (List Text)
  acceptedAlgorithms : Option (List Text)
  jwksCacheTtlSeconds : Option ℕ
  clockSkewSeconds : Option ℤ
  apigeeTrustedHeaderEnabled : Option Bool
  apigeeTrustedHeaderSecret : AuthPatchValue Text

def applyStringPatch (target : Option Text) : AuthPatchValue Text → Option Text
  | .unchanged => target
  | .clear => none
  | .set value => normalizeOptionalString (some value)

/-- The key header after a patch. A header that is set must be a name. -/
def patchedKeyHeader (current patch : Option Text) : GatewayResult (Option Text) :=
  match patch with
  | none => .ok current
  | some value =>
    match normalizeOptionalString (some value) with
    | none => .ok none
    | some header => do
      validateRelaynaKeyHeaderName header
      return some header

/-- The lifetime of keys after a patch. `i64::try_from` rejects what has no sign bit to spare. -/
def patchedTtl (current : Option ℤ) : Option ℕ → GatewayResult (Option ℤ)
  | none => .ok current
  | some value =>
    if value < 2 ^ 63 then .ok (some (value : ℤ)) else .error .invalidConfiguration

def StoredGatewayAuthSettings.applyPatch (stored : StoredGatewayAuthSettings)
    (patch : GatewayAuthSettingsPatchRequest) : GatewayResult StoredGatewayAuthSettings := do
  let header ← patchedKeyHeader stored.relaynaKeyHeader patch.relaynaKeyHeader
  let ttl ← patchedTtl stored.jwksCacheTtlSeconds patch.jwksCacheTtlSeconds
  let next : StoredGatewayAuthSettings := {
    unverifiedBearerEnabled := patch.unverifiedBearerEnabled.getD stored.unverifiedBearerEnabled
    entraEnabled := patch.entraEnabled.getD stored.entraEnabled
    tenantId := applyStringPatch stored.tenantId patch.tenantId
    audience := applyStringPatch stored.audience patch.audience
    issuer := applyStringPatch stored.issuer patch.issuer
    oidcDiscoveryUrl := applyStringPatch stored.oidcDiscoveryUrl patch.oidcDiscoveryUrl
    requiredScope := applyStringPatch stored.requiredScope patch.requiredScope
    requiredRole := applyStringPatch stored.requiredRole patch.requiredRole
    allowedGroups := (patch.allowedGroups.map normalizeStringList).getD stored.allowedGroups
    acceptedAlgorithms :=
      (patch.acceptedAlgorithms.map normalizeStringList).getD stored.acceptedAlgorithms
    relaynaKeyHeader := header
    jwksCacheTtlSeconds := ttl
    clockSkewSeconds := patch.clockSkewSeconds.or stored.clockSkewSeconds
    apigeeTrustedHeaderEnabled :=
      patch.apigeeTrustedHeaderEnabled.getD stored.apigeeTrustedHeaderEnabled
    apigeeTrustedHeaderSecret :=
      applyStringPatch stored.apigeeTrustedHeaderSecret patch.apigeeTrustedHeaderSecret
    updatedAt := stored.updatedAt }
  next.validate
  return next

/-! ### Settings in force -/

inductive GatewayAuthSettingsSource
  | persisted
  | environment
  | unset
  deriving DecidableEq

structure EffectiveGatewayAuthSettings where
  unverifiedBearerEnabled : Bool
  source : GatewayAuthSettingsSource
  relaynaKeyHeader : Text
  entraAuth : Option EntraAuthConfig
  apigeeTrustedHeader : Option ApigeeTrustedHeaderConfig
  updatedAt : Option Timestamp

/-- The settings of the environment, for want of a row. -/
def GatewayAuthEnv.settings (env : GatewayAuthEnv) :
    GatewayResult EffectiveGatewayAuthSettings := do
  validateUnverifiedBearerMode env.unverifiedBearerEnabled env.apigeeTrustedHeader.isSome
  if env.unverifiedBearerEnabled || env.entraAuth.isSome || env.apigeeTrustedHeader.isSome then
    return {
      source := .environment
      unverifiedBearerEnabled := env.unverifiedBearerEnabled
      relaynaKeyHeader := env.relaynaKeyHeader
      entraAuth := env.entraAuth
      apigeeTrustedHeader := env.apigeeTrustedHeader
      updatedAt := none }
  else
    return {
      source := .unset
      unverifiedBearerEnabled := false
      relaynaKeyHeader := env.relaynaKeyHeader
      entraAuth := none
      apigeeTrustedHeader := none
      updatedAt := none }

def StoredGatewayAuthSettings.settings (stored : StoredGatewayAuthSettings)
    (env : GatewayAuthEnv) : GatewayResult EffectiveGatewayAuthSettings := do
  stored.validate
  let header := (normalizedNonEmpty stored.relaynaKeyHeader).getD env.relaynaKeyHeader
  let entraAuth ← stored.entra header
  let apigeeTrustedHeader ← stored.apigee
  return {
    source := .persisted
    unverifiedBearerEnabled := stored.unverifiedBearerEnabled
    relaynaKeyHeader := header
    entraAuth
    apigeeTrustedHeader
    updatedAt := stored.updatedAt }

/-- `EffectiveGatewayAuthSettings::from_sources`. -/
def fromSources (stored : Option StoredGatewayAuthSettings) (env : GatewayAuthEnv) :
    GatewayResult EffectiveGatewayAuthSettings :=
  match stored with
  | some stored => stored.settings env
  | none => env.settings

structure EntraAuthSettingsResponse where
  enabled : Bool
  tenantId : Option Text
  audience : Option Text
  issuer : Option Text
  oidcDiscoveryUrl : Option Text
  requiredScope : Option Text
  requiredRole : Option Text
  allowedGroups : List Text
  acceptedAlgorithms : List Text
  jwksCacheTtlSeconds : ℕ
  clockSkewSeconds : ℤ
  deriving DecidableEq

structure ApigeeAuthSettingsResponse where
  trustedHeaderEnabled : Bool
  secretConfigured : Bool
  deriving DecidableEq

structure GatewayAuthSettingsResponse where
  unverifiedBearerEnabled : Bool
  source : GatewayAuthSettingsSource
  updatedAt : Option Timestamp
  relaynaKeyHeader : Text
  entra : EntraAuthSettingsResponse
  apigee : ApigeeAuthSettingsResponse
  deriving DecidableEq

def entraResponse (config : EntraAuthConfig) : EntraAuthSettingsResponse where
  enabled := true
  tenantId := some config.tenantId
  audience := some config.audience
  issuer := some config.issuer
  oidcDiscoveryUrl := some config.oidcDiscoveryUrl
  requiredScope := config.requiredScope
  requiredRole := config.requiredRole
  allowedGroups := config.allowedGroups
  acceptedAlgorithms := config.acceptedAlgorithms
  jwksCacheTtlSeconds := config.jwksCacheTtlSeconds
  clockSkewSeconds := config.clockSkewSeconds

/-- What is shown while Entra is off. -/
def entraOff : EntraAuthSettingsResponse where
  enabled := false
  tenantId := none
  audience := none
  issuer := none
  oidcDiscoveryUrl := none
  requiredScope := none
  requiredRole := none
  allowedGroups := []
  acceptedAlgorithms := ["RS256".toList]
  jwksCacheTtlSeconds := 300
  clockSkewSeconds := 60

def EffectiveGatewayAuthSettings.response (settings : EffectiveGatewayAuthSettings) :
    GatewayAuthSettingsResponse where
  source := settings.source
  unverifiedBearerEnabled := settings.unverifiedBearerEnabled
  updatedAt := settings.updatedAt
  relaynaKeyHeader := settings.relaynaKeyHeader
  entra := (settings.entraAuth.map entraResponse).getD entraOff
  apigee :=
    { trustedHeaderEnabled := settings.apigeeTrustedHeader.isSome
      secretConfigured := settings.apigeeTrustedHeader.isSome }

/-! ### The runtime of a gateway -/

structure GatewayAuthRuntimeConfig where
  unverifiedBearerEnabled : Bool
  relaynaKeyHeader : Text
  entraAuth : Option EntraAuthConfig
  apigeeTrustedHeader : Option ApigeeTrustedHeaderConfig

def EffectiveGatewayAuthSettings.runtimeConfig (settings : EffectiveGatewayAuthSettings) :
    GatewayAuthRuntimeConfig where
  unverifiedBearerEnabled := settings.unverifiedBearerEnabled
  relaynaKeyHeader := settings.relaynaKeyHeader
  entraAuth := settings.entraAuth
  apigeeTrustedHeader := settings.apigeeTrustedHeader

/-- A verifier of Entra tokens. Two verifiers with different serials have caches of their own. -/
structure EntraJwtVerifier where
  config : EntraAuthConfig
  serial : ℕ

/-- `EntraJwtVerifier::new`. `client` says whether the client that fetches keys can be built. -/
def EntraJwtVerifier.new (config : EntraAuthConfig) (client : Bool) (serial : ℕ) :
    GatewayResult EntraJwtVerifier := do
  config.validate
  if client then return ⟨config, serial⟩ else .error .invalidConfiguration

structure GatewayAuthRuntimeState where
  config : GatewayAuthRuntimeConfig
  entraVerifier : Option EntraJwtVerifier

/-- The verifier that a configuration asks for, if it does. -/
def GatewayAuthRuntimeConfig.verifier (config : GatewayAuthRuntimeConfig) (client : Bool)
    (serial : ℕ) : GatewayResult (Option EntraJwtVerifier) :=
  match config.entraAuth.filter fun _ ↦ !config.unverifiedBearerEnabled with
  | none => .ok none
  | some entra => some <$> EntraJwtVerifier.new entra client serial

def GatewayAuthRuntimeState.new (config : GatewayAuthRuntimeConfig) (client : Bool)
    (serial : ℕ) : GatewayResult GatewayAuthRuntimeState := do
  validateRelaynaKeyHeaderName config.relaynaKeyHeader
  validateUnverifiedBearerMode config.unverifiedBearerEnabled config.apigeeTrustedHeader.isSome
  return ⟨config, ← config.verifier client serial⟩

deriving instance DecidableEq for ApigeeTrustedHeaderConfig
deriving instance DecidableEq for GatewayAuthRuntimeConfig

/-- `SharedGatewayAuthRuntime::update`. A configuration that is in force already keeps its verifier.
-/
def GatewayAuthRuntimeState.update (state : GatewayAuthRuntimeState)
    (config : GatewayAuthRuntimeConfig) (client : Bool) (serial : ℕ) :
    GatewayResult GatewayAuthRuntimeState :=
  if state.config ≠ config then GatewayAuthRuntimeState.new config client serial else .ok state

/-- `SharedGatewayAuthRuntime::snapshot`, as the request filter reads it. -/
def GatewayAuthRuntimeState.snapshot (state : GatewayAuthRuntimeState) : AuthSnapshot where
  relaynaKeyHeader := state.config.relaynaKeyHeader
  unverifiedBearerEnabled := state.config.unverifiedBearerEnabled
  apigeeTrustedHeader := state.config.apigeeTrustedHeader
  tenantId := state.config.entraAuth.map EntraAuthConfig.tenantId
  verifier := state.entraVerifier.isSome

/-! ### Key headers -/

/-- A text that names a header once it is trimmed. -/
def UsableHeader (header : Text) : Prop :=
  isHeaderName (trim header) = true

theorem isEmpty_of_isHeaderName {name : Text} (hname : isHeaderName name = true) :
    name.isEmpty = false := by
  rw [isHeaderName, Bool.and_eq_true, Bool.and_eq_true, Bool.not_eq_true'] at hname
  exact hname.1.1

theorem validateRelaynaKeyHeaderName_eq_ok {header : Text} :
    validateRelaynaKeyHeaderName header = .ok () ↔ UsableHeader header := by
  unfold validateRelaynaKeyHeaderName UsableHeader
  by_cases hname : isHeaderName (trim header) = true
  · simp [hname, isEmpty_of_isHeaderName hname]
  · simp [hname]

/-- The characters of a token are visible and in ASCII. -/
theorem toNat_of_isTokenCharacter {character : Char}
    (htoken : isTokenCharacter character = true) :
    33 ≤ character.toNat ∧ character.toNat ≤ 126 := by
  rw [isTokenCharacter, Bool.or_eq_true, List.contains_iff_mem] at htoken
  rcases htoken with halphanum | hmem
  · rw [decide_eq_true_eq] at halphanum
    omega
  · have hall : ("!#$%&'*+-.^_`|~".toList.all fun token ↦
        decide (33 ≤ token.toNat ∧ token.toNat ≤ 126)) = true := by
      decide
    exact of_decide_eq_true (List.all_eq_true.mp hall character hmem)

/-- A token has no white space. -/
theorem isWhitespace_of_isTokenCharacter {character : Char}
    (htoken : isTokenCharacter character = true) : isWhitespace character = false := by
  have hpoint := toNat_of_isTokenCharacter htoken
  rw [isWhitespace, decide_eq_false_iff_not]
  omega

/-- The name of a header is trimmed already. -/
theorem trim_of_isHeaderName {header : Text} (hname : isHeaderName header = true) :
    trim header = header := by
  rw [isHeaderName, Bool.and_eq_true, List.all_eq_true] at hname
  have hplain : ∀ character ∈ header, ¬isWhitespace character = true := fun character hmem ↦ by
    rw [isWhitespace_of_isTokenCharacter (hname.2 character hmem)]
    exact Bool.false_ne_true
  have hfront : header.dropWhile isWhitespace = header :=
    List.dropWhile_eq_self_iff.mpr fun hlength ↦ hplain _ (List.getElem_mem hlength)
  rw [trim, hfront, List.rdropWhile_eq_self_iff]
  exact fun hne ↦ hplain _ (List.getLast_mem hne)

/-! ### What can be put into force -/

/-- A configuration from which a runtime state can be built. -/
structure Installable (config : GatewayAuthRuntimeConfig) : Prop where
  header : UsableHeader config.relaynaKeyHeader
  mode : validateUnverifiedBearerMode config.unverifiedBearerEnabled
    config.apigeeTrustedHeader.isSome = .ok ()
  entra : ∀ entra ∈ config.entraAuth, entra.validate = .ok ()

/-- A runtime state with the verifier of its own configuration, and with none while bearer tokens
are not verified, in which case nothing of Apigee is trusted. -/
structure GatewayAuthRuntimeState.Sound (state : GatewayAuthRuntimeState) : Prop where
  verifier : state.entraVerifier.map EntraJwtVerifier.config =
    state.config.entraAuth.filter fun _ ↦ !state.config.unverifiedBearerEnabled
  mode : state.config.unverifiedBearerEnabled = true → state.config.apigeeTrustedHeader = none

theorem apigee_eq_none_of_mode {enabled : Bool} {apigee : Option ApigeeTrustedHeaderConfig}
    (hmode : validateUnverifiedBearerMode enabled apigee.isSome = .ok ())
    (henabled : enabled = true) : apigee = none := by
  rw [henabled, validateUnverifiedBearerMode, Bool.true_and] at hmode
  rcases apigee with _ | config
  · rfl
  · cases hmode

theorem EntraJwtVerifier.new_eq_ok {config : EntraAuthConfig} {client : Bool} {serial : ℕ}
    {verifier : EntraJwtVerifier}
    (hnew : EntraJwtVerifier.new config client serial = .ok verifier) :
    verifier = ⟨config, serial⟩ := by
  unfold EntraJwtVerifier.new at hnew
  obtain ⟨-, -, hnew⟩ := bind_eq_ok.mp hnew
  by_cases hclient : client = true
  · rw [if_pos hclient] at hnew
    exact (pure_eq_ok.mp hnew).symm
  · rw [if_neg hclient] at hnew
    cases hnew

/-- A verifier that is built is the one the configuration asks for, from valid settings. -/
theorem verifier_eq_ok {config : GatewayAuthRuntimeConfig} {client : Bool} {serial : ℕ}
    {verifier : Option EntraJwtVerifier}
    (hverifier : config.verifier client serial = .ok verifier) :
    verifier.map EntraJwtVerifier.config =
      config.entraAuth.filter fun _ ↦ !config.unverifiedBearerEnabled := by
  unfold GatewayAuthRuntimeConfig.verifier at hverifier
  cases hentra : config.entraAuth.filter fun _ ↦ !config.unverifiedBearerEnabled with
  | none =>
    rw [hentra] at hverifier
    rw [← Except.ok.inj hverifier]
    rfl
  | some entra =>
    rw [hentra, map_eq_ok] at hverifier
    obtain ⟨found, hfound, rfl⟩ := hverifier
    rw [EntraJwtVerifier.new_eq_ok hfound]
    rfl

/-- Assumes: a configuration that can be installed, and a client. A state is built from it. -/
theorem exists_new_of_installable {config : GatewayAuthRuntimeConfig}
    (hconfig : Installable config) (serial : ℕ) :
    ∃ state, GatewayAuthRuntimeState.new config true serial = .ok state := by
  have hverifier : ∃ verifier, config.verifier true serial = .ok verifier := by
    unfold GatewayAuthRuntimeConfig.verifier
    cases hentra : config.entraAuth.filter fun _ ↦ !config.unverifiedBearerEnabled with
    | none => exact ⟨none, rfl⟩
    | some entra =>
      have hmem : entra ∈ config.entraAuth := (Option.filter_eq_some_iff.mp hentra).1
      have hnew : EntraJwtVerifier.new entra true serial = .ok ⟨entra, serial⟩ := by
        rw [EntraJwtVerifier.new, hconfig.entra entra hmem]
        rfl
      exact ⟨some ⟨entra, serial⟩, by simp only [hnew]; rfl⟩
  obtain ⟨verifier, hverifier⟩ := hverifier
  unfold GatewayAuthRuntimeState.new
  rw [validateRelaynaKeyHeaderName_eq_ok.mpr hconfig.header, hconfig.mode, hverifier]
  exact ⟨⟨config, verifier⟩, rfl⟩

/-- A state that is built holds the configuration and is sound. -/
theorem GatewayAuthRuntimeState.new_eq_ok {config : GatewayAuthRuntimeConfig} {client : Bool}
    {serial : ℕ} {state : GatewayAuthRuntimeState}
    (hnew : GatewayAuthRuntimeState.new config client serial = .ok state) :
    state.config = config ∧ state.Sound := by
  unfold GatewayAuthRuntimeState.new at hnew
  obtain ⟨-, -, hnew⟩ := bind_eq_ok.mp hnew
  obtain ⟨_, hmode, hnew⟩ := bind_eq_ok.mp hnew
  obtain ⟨verifier, hverifier, hnew⟩ := bind_eq_ok.mp hnew
  obtain rfl := pure_eq_ok.mp hnew
  exact ⟨rfl, verifier_eq_ok hverifier, apigee_eq_none_of_mode hmode⟩

/-- An update puts a configuration into force, soundly, or fails. -/
theorem GatewayAuthRuntimeState.Sound.update {state next : GatewayAuthRuntimeState}
    {config : GatewayAuthRuntimeConfig} {client : Bool} {serial : ℕ} (hstate : state.Sound)
    (hupdate : state.update config client serial = .ok next) :
    next.config = config ∧ next.Sound := by
  unfold GatewayAuthRuntimeState.update at hupdate
  by_cases hsame : state.config = config
  · rw [if_neg (not_not.mpr hsame)] at hupdate
    obtain rfl := Except.ok.inj hupdate
    exact ⟨hsame, hstate⟩
  · rw [if_pos hsame] at hupdate
    exact GatewayAuthRuntimeState.new_eq_ok hupdate

/-- What a request sees of a sound state: an identity is asked for where the configuration has Entra
or Apigee, and never while bearer tokens are not verified. -/
theorem GatewayAuthRuntimeState.Sound.entraEnabled {state : GatewayAuthRuntimeState}
    (hstate : state.Sound) :
    state.snapshot.entraEnabled = (!state.config.unverifiedBearerEnabled &&
      (state.config.entraAuth.isSome || state.config.apigeeTrustedHeader.isSome)) := by
  have hverifier : state.entraVerifier.isSome =
      (state.config.entraAuth.filter fun _ ↦ !state.config.unverifiedBearerEnabled).isSome := by
    rw [← hstate.verifier, Option.isSome_map]
  show (state.entraVerifier.isSome || state.config.apigeeTrustedHeader.isSome) = _
  rw [hverifier]
  cases hmode : state.config.unverifiedBearerEnabled with
  | true =>
    rw [hstate.mode hmode]
    cases state.config.entraAuth <;> rfl
  | false => cases state.config.entraAuth <;> rfl

/-- Assumes: a configuration that can be installed, and a client. The update succeeds. -/
theorem exists_update_of_installable (state : GatewayAuthRuntimeState)
    {config : GatewayAuthRuntimeConfig} (hconfig : Installable config) (serial : ℕ) :
    ∃ next, state.update config true serial = .ok next := by
  unfold GatewayAuthRuntimeState.update
  by_cases hsame : state.config = config
  · exact ⟨state, if_neg (not_not.mpr hsame)⟩
  · rw [if_pos hsame]
    exact exists_new_of_installable hconfig serial

/-! ### What patches leave -/

/-- A row as patches leave it: valid, with a usable key header if it has one. -/
structure StoredGatewayAuthSettings.Settled (stored : StoredGatewayAuthSettings) : Prop where
  valid : stored.validate = .ok ()
  header : ∀ header ∈ stored.relaynaKeyHeader, UsableHeader header

/-- What `entra_config` reads under another header. -/
theorem entraFields_withHeader (stored : StoredGatewayAuthSettings) (first second : Text) :
    stored.entraFields second =
      (fun config ↦ { config with relaynaKeyHeader := second }) <$> stored.entraFields first := by
  unfold StoredGatewayAuthSettings.entraFields
  cases requiredField stored.tenantId with
  | error failure => rfl
  | ok tenantId =>
    cases requiredField stored.audience with
    | error failure => rfl
    | ok audience =>
      cases requiredField stored.issuer with
      | error failure => rfl
      | ok issuer => cases requiredField stored.oidcDiscoveryUrl <;> rfl

/-- Assumes: a valid configuration, and a usable header. It is valid under that header. -/
theorem EntraAuthConfig.validate_withHeader {config : EntraAuthConfig} {header : Text}
    (hvalid : config.validate = .ok ()) (hheader : UsableHeader header) :
    { config with relaynaKeyHeader := header }.validate = .ok () := by
  unfold EntraAuthConfig.validate at hvalid ⊢
  split_ifs at hvalid ⊢
  exact validateRelaynaKeyHeaderName_eq_ok.mpr hheader

/-- Assumes: a configuration that is valid under one header. It is valid under every usable one. -/
theorem entraConfig_of_usable {stored : StoredGatewayAuthSettings} {first second : Text}
    {config : EntraAuthConfig} (hfirst : stored.entraConfig first = .ok config)
    (hsecond : UsableHeader second) :
    ∃ other, stored.entraConfig second = .ok other ∧ other.validate = .ok () := by
  unfold StoredGatewayAuthSettings.entraConfig at hfirst
  obtain ⟨found, hfields, hfirst⟩ := bind_eq_ok.mp hfirst
  obtain ⟨_, hvalid, -⟩ := bind_eq_ok.mp hfirst
  have hother := EntraAuthConfig.validate_withHeader hvalid hsecond
  refine ⟨{ found with relaynaKeyHeader := second }, ?_, hother⟩
  unfold StoredGatewayAuthSettings.entraConfig
  rw [entraFields_withHeader stored first second, hfields]
  show (({ found with relaynaKeyHeader := second } : EntraAuthConfig).validate >>= fun _ ↦ _) = _
  rw [hother]
  rfl

/-- Assumes: an environment with a usable key header. The key header of a settled row is usable. -/
theorem StoredGatewayAuthSettings.Settled.usableHeader {stored : StoredGatewayAuthSettings}
    {fallback : Text} (hstored : stored.Settled) (hfallback : UsableHeader fallback) :
    UsableHeader ((normalizedNonEmpty stored.relaynaKeyHeader).getD fallback) := by
  cases hheader : stored.relaynaKeyHeader with
  | none => exact hfallback
  | some header =>
    have hname : isHeaderName (trim header) = true := hstored.header header hheader
    have hnormalized : normalizedNonEmpty (some header) = some (trim header) := by
      simp [normalizedNonEmpty, Option.filter, isEmpty_of_isHeaderName hname]
    rw [hnormalized, Option.getD_some, UsableHeader, trim_of_isHeaderName hname]
    exact hname

/-- Assumes: a configuration of Entra under one header. There is one under every usable header. -/
theorem entra_of_usable {stored : StoredGatewayAuthSettings} {first second : Text}
    {entra : Option EntraAuthConfig} (hfirst : stored.entra first = .ok entra)
    (hsecond : UsableHeader second) :
    ∃ other, stored.entra second = .ok other ∧
      ∀ config ∈ other, config.validate = .ok () := by
  unfold StoredGatewayAuthSettings.entra at hfirst ⊢
  by_cases henabled : stored.entraEnabled = true
  · rw [if_pos henabled] at hfirst ⊢
    obtain ⟨config, hconfig, -⟩ := map_eq_ok.mp hfirst
    obtain ⟨other, hother, hvalid⟩ := entraConfig_of_usable hconfig hsecond
    refine ⟨some other, map_eq_ok.mpr ⟨other, hother, rfl⟩, fun config hmem ↦ ?_⟩
    obtain rfl := Option.some.inj hmem
    exact hvalid
  · rw [if_neg henabled]
    refine ⟨none, rfl, fun config hmem ↦ ?_⟩
    cases hmem

theorem isSome_of_apigee {stored : StoredGatewayAuthSettings}
    {apigee : Option ApigeeTrustedHeaderConfig} (hapigee : stored.apigee = .ok apigee) :
    apigee.isSome = stored.apigeeTrustedHeaderEnabled := by
  unfold StoredGatewayAuthSettings.apigee at hapigee
  by_cases henabled : stored.apigeeTrustedHeaderEnabled = true
  · rw [if_pos henabled] at hapigee
    obtain ⟨config, -, rfl⟩ := map_eq_ok.mp hapigee
    rw [henabled, Option.isSome_some]
  · rw [if_neg henabled] at hapigee
    rw [← Except.ok.inj hapigee, Bool.eq_false_iff.mpr henabled, Option.isSome_none]

/-- Assumes: a row that is settled, and an environment with a usable key header. The row makes
settings that can be put into force. -/
theorem StoredGatewayAuthSettings.Settled.settings {stored : StoredGatewayAuthSettings}
    {env : GatewayAuthEnv} (hstored : stored.Settled) (henv : UsableHeader env.relaynaKeyHeader) :
    ∃ settings, stored.settings env = .ok settings ∧ Installable settings.runtimeConfig := by
  have hvalid := hstored.valid
  unfold StoredGatewayAuthSettings.validate at hvalid
  obtain ⟨_, hmode, hvalid⟩ := bind_eq_ok.mp hvalid
  obtain ⟨entra, hentra, hvalid⟩ := bind_eq_ok.mp hvalid
  obtain ⟨apigee, hapigee, -⟩ := bind_eq_ok.mp hvalid
  have hheader := hstored.usableHeader henv
  obtain ⟨other, hother, hotherValid⟩ := entra_of_usable hentra hheader
  refine ⟨⟨stored.unverifiedBearerEnabled, .persisted, _, other, apigee, stored.updatedAt⟩, ?_,
    hheader, ?_, hotherValid⟩
  · unfold StoredGatewayAuthSettings.settings
    rw [hstored.valid]
    show (stored.entra _ >>= fun entraAuth ↦ stored.apigee >>= fun apigee ↦ _) = _
    rw [hother, hapigee]
    rfl
  · show validateUnverifiedBearerMode stored.unverifiedBearerEnabled apigee.isSome = .ok ()
    rw [isSome_of_apigee hapigee]
    exact hmode

/-- A key header after a patch is usable if it was before. -/
theorem usableHeader_of_patched {current patch patched : Option Text}
    (hcurrent : ∀ header ∈ current, UsableHeader header)
    (hpatched : patchedKeyHeader current patch = .ok patched) :
    ∀ header ∈ patched, UsableHeader header := by
  intro header hheader
  unfold patchedKeyHeader at hpatched
  split at hpatched
  · rw [← Except.ok.inj hpatched] at hheader
    exact hcurrent header hheader
  · split at hpatched
    · rw [← Except.ok.inj hpatched] at hheader
      cases hheader
    · obtain ⟨_, hvalid, hset⟩ := bind_eq_ok.mp hpatched
      obtain rfl := pure_eq_ok.mp hset
      obtain rfl := Option.some.inj hheader
      exact validateRelaynaKeyHeaderName_eq_ok.mp hvalid

/-- Assumes: a row with a usable key header if it has one. What a patch makes of it is settled. -/
theorem settled_of_applyPatch {stored next : StoredGatewayAuthSettings}
    {patch : GatewayAuthSettingsPatchRequest}
    (hheader : ∀ header ∈ stored.relaynaKeyHeader, UsableHeader header)
    (hpatch : stored.applyPatch patch = .ok next) : next.Settled := by
  unfold StoredGatewayAuthSettings.applyPatch at hpatch
  obtain ⟨header, hpatched, hpatch⟩ := bind_eq_ok.mp hpatch
  obtain ⟨ttl, httl, hpatch⟩ := bind_eq_ok.mp hpatch
  obtain ⟨_, hvalid, hpatch⟩ := bind_eq_ok.mp hpatch
  obtain rfl := pure_eq_ok.mp hpatch
  exact ⟨hvalid, usableHeader_of_patched hheader hpatched⟩

end Relayna.FrontDoor

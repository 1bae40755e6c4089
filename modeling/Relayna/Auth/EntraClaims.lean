import Relayna.Library.Calendar
import Relayna.Library.Leaves
import Relayna.Library.MachineWord
import Relayna.Library.Utf8
import Relayna.Library.Words

/-!
# The claims of an Entra token

`crates/gateway-core/src/entra.rs`: `validate_claims_for_endpoint` checks the claims of a token
whose signature has been verified, against the configuration and the policy of an endpoint. The
calendar of `chrono` is a parameter; what panics has no result.

Its times are converted to calendar times before they are shifted by the clock skew.
`claims_checked_iff` says when this is sound: a time of the calendar that is shifted stays in the
calendar, and `nbf` and `iat` are not in a future beyond the calendar. Otherwise the code panics, or
accepts a token that is not valid yet.
-/

set_option autoImplicit false
set_option relaxedAutoImplicit false

namespace Relayna.Auth.Entra

open Library Library.Calendar Library.Leaves Library.MachineWord

/-! ### Claims, configuration and policies -/

/-- A string, as its characters. -/
abbrev Text := List Char

/-- `serde_json::Value`. -/
abbrev JsonValue := Document Text

/-- The errors of the validation. -/
inductive GatewayError
  | invalidEntraIssuer
  | invalidEntraAudience
  | expiredEntraToken
  | invalidEntraToken
  | insufficientEntraAuthorization
  deriving DecidableEq

structure ClaimValidationFailure where
  error : GatewayError
  reason : String
  deriving DecidableEq

structure EntraClaims where
  iss : Text
  aud : JsonValue
  exp : ℤ
  nbf : Option ℤ
  iat : Option ℤ
  tid : Text
  ver : Text
  sub : Option Text
  oid : Option Text
  appid : Option Text
  azp : Option Text
  preferredUsername : Option Text
  email : Option Text
  name : Option Text
  nonce : Option Text
  scp : Option Text
  roles : Option (List Text)
  groups : Option (List Text)
  hasgroups : Option Bool
  claimNames : Option JsonValue

def EntraClaims.hasGroupOverage (claims : EntraClaims) : Bool :=
  claims.hasgroups.getD false ||
    (claims.claimNames.bind fun value ↦ value.get "groups".toList).isSome

/-- The part of `EntraAuthConfig` that the claims are checked against. -/
structure EntraAuthConfig where
  tenantId : Text
  audience : Text
  issuer : Text
  requiredScope : Option Text
  requiredRole : Option Text
  allowedGroups : List Text
  clockSkewSeconds : ℤ

/-- `EndpointEntraPolicy`, without what concerns Apigee. -/
structure EndpointEntraPolicy where
  audience : Text
  requiredScopes : List Text
  requiredRoles : List Text
  allowedGroups : List Text

inductive EntraIdentitySource
  | jwt
  | apigeeTrustedHeader
  deriving DecidableEq

structure EntraIdentityContext where
  audiences : List Text
  expiresAt : Option ℤ
  tenantId : Text
  subject : Option Text
  objectId : Option Text
  appId : Option Text
  authorizedParty : Option Text
  email : Option Text
  displayName : Option Text
  nonce : Option Text
  scopes : List Text
  roles : List Text
  groups : List Text
  tokenVersion : Text
  source : EntraIdentitySource
  deriving DecidableEq

/-! ### The checks -/

def audienceContains (audience : JsonValue) (expected : Text) : Bool :=
  match audience with
  | .string value => value = expected
  | .array values => values.any fun value ↦ value.asStr = some expected
  | _ => false

def splitScopes (scopes : Option Text) : List Text :=
  (words (!Utf8.isWhitespace ·) (scopes.getD [])).filter (!·.isEmpty)

def validateEntraAuthorizationDetailed (requiredScope requiredRole : Option Text)
    (allowedGroups scopes roles groups : List Text) : Except String Unit :=
  if requiredScope.any (fun scope ↦ !scopes.contains scope) then .error "required_scope_missing"
  else if requiredRole.any (fun role ↦ !roles.contains role) then .error "required_role_missing"
  else if !allowedGroups.isEmpty && !allowedGroups.any (fun allowed ↦ groups.contains allowed) then
    .error "allowed_group_missing"
  else .ok ()

def EndpointEntraPolicy.authorize (policy : EndpointEntraPolicy) (identity : EntraIdentityContext)
    (now : ℤ) : Except GatewayError Unit :=
  if !identity.audiences.contains policy.audience then .error .invalidEntraAudience
  else if identity.expiresAt.all (fun exp ↦ decide (exp ≤ now)) then .error .expiredEntraToken
  else if policy.requiredScopes.any (fun scope ↦ !identity.scopes.contains scope) ||
      policy.requiredRoles.any (fun role ↦ !identity.roles.contains role) ||
      (!policy.allowedGroups.isEmpty &&
        !policy.allowedGroups.any fun group ↦ identity.groups.contains group) then
    .error .insufficientEntraAuthorization
  else .ok ()

def audiencesOf : JsonValue → List Text
  | .string audience => [audience]
  | .array audiences => audiences.filterMap Document.asStr
  | _ => []

def identityOf (claims : EntraClaims) : EntraIdentityContext where
  audiences := audiencesOf claims.aud
  expiresAt := some claims.exp
  tenantId := claims.tid
  subject := claims.sub
  objectId := claims.oid
  appId := claims.appid
  authorizedParty := claims.azp
  email := claims.preferredUsername.or claims.email
  displayName := claims.name
  nonce := claims.nonce
  scopes := splitScopes claims.scp
  roles := claims.roles.getD []
  groups := claims.groups.getD []
  tokenVersion := claims.ver
  source := .jwt

section Validation

variable {calendar : Calendar}

/-- `ChronoDuration::seconds`, which panics for what is not a duration in milliseconds. -/
def durationSeconds (seconds : ℤ) : Option ℤ :=
  if |seconds| ≤ (2 ^ 63 - 1) / 1000 then some seconds else none

/-- The check of `exp`: the sum panics where it leaves the calendar. -/
def tokenExpired (exp skew : ℤ) (now : DateTime calendar) : Option Bool :=
  match calendar.fromTimestamp exp with
  | none => some true
  | some expiresAt => (expiresAt.shift skew).map fun time ↦ decide (time.instant ≤ now.instant)

/-- The check of `nbf` and that of `iat`: the difference panics where it leaves the calendar. -/
def inFuture (time : Option ℤ) (skew : ℤ) (now : DateTime calendar) : Option Bool :=
  match time.bind calendar.fromTimestamp with
  | none => some false
  | some begins => (begins.shift (-skew)).map fun time ↦ decide (now.instant < time.instant)

/-- `ClaimValidationFailure::new`, as the result of the validation. -/
def failure (error : GatewayError) (reason : String) :
    Option (Except ClaimValidationFailure EntraIdentityContext) :=
  some (.error ⟨error, reason⟩)

/-- The end of `validate_claims_for_endpoint`, behind the checks of the times. -/
def authorizeClaims (config : EntraAuthConfig) (claims : EntraClaims) (now : DateTime calendar)
    (endpoint : Option EndpointEntraPolicy) :
    Option (Except ClaimValidationFailure EntraIdentityContext) :=
  if claims.ver ≠ "1.0".toList ∧ claims.ver ≠ "2.0".toList then
    failure .invalidEntraToken "token_version_unsupported"
  else if claims.hasGroupOverage then
    failure .insufficientEntraAuthorization "group_overage_not_supported"
  else
    let identity := identityOf claims
    match endpoint with
    | none =>
      match validateEntraAuthorizationDetailed config.requiredScope config.requiredRole
          config.allowedGroups identity.scopes identity.roles identity.groups with
      | .error reason => failure .insufficientEntraAuthorization reason
      | .ok () => some (.ok identity)
    | some policy =>
      match policy.authorize identity
          (saturatingSubSigned 64 now.timestamp config.clockSkewSeconds) with
      | .error error => failure error "endpoint_authorization_failed"
      | .ok () => some (.ok identity)

/-- The audience that a token must have. -/
def requiredAudience (config : EntraAuthConfig) (endpoint : Option EndpointEntraPolicy) : Text :=
  endpoint.elim config.audience EndpointEntraPolicy.audience

/-- `validate_claims_for_endpoint`. There is no result where it panics. -/
def validateClaimsForEndpoint (config : EntraAuthConfig) (claims : EntraClaims)
    (now : DateTime calendar) (endpoint : Option EndpointEntraPolicy) :
    Option (Except ClaimValidationFailure EntraIdentityContext) :=
  if claims.iss ≠ config.issuer then failure .invalidEntraIssuer "issuer_mismatch"
  else if claims.tid ≠ config.tenantId then failure .invalidEntraIssuer "tenant_mismatch"
  else if !audienceContains claims.aud (requiredAudience config endpoint) then
    failure .invalidEntraAudience "audience_mismatch"
  else
    (durationSeconds config.clockSkewSeconds).bind fun skew ↦
    (tokenExpired claims.exp skew now).bind fun expired ↦
    if expired then failure .expiredEntraToken "token_expired"
    else
      (inFuture claims.nbf skew now).bind fun premature ↦
      if premature then failure .invalidEntraToken "token_not_yet_valid"
      else
        (inFuture claims.iat skew now).bind fun issuedLater ↦
        if issuedLater then failure .invalidEntraToken "issued_at_in_future"
        else authorizeClaims config claims now endpoint

end Validation

/-! ### What an accepted token must have -/

/-- The scopes that a token must have: those of the endpoint, or else that of the configuration. -/
def requiredScopes (config : EntraAuthConfig) (endpoint : Option EndpointEntraPolicy) : List Text :=
  endpoint.elim config.requiredScope.toList EndpointEntraPolicy.requiredScopes

/-- The roles that a token must have. -/
def requiredRoles (config : EntraAuthConfig) (endpoint : Option EndpointEntraPolicy) : List Text :=
  endpoint.elim config.requiredRole.toList EndpointEntraPolicy.requiredRoles

/-- The groups of which a token must have one, if there are any. -/
def allowedGroups (config : EntraAuthConfig) (endpoint : Option EndpointEntraPolicy) : List Text :=
  endpoint.elim config.allowedGroups EndpointEntraPolicy.allowedGroups

/-- The requirements on scopes, roles and groups. -/
def Grants (scopes roles groups : List Text) (claims : EntraClaims) : Prop :=
  (∀ scope ∈ scopes, scope ∈ splitScopes claims.scp) ∧
    (∀ role ∈ roles, role ∈ claims.roles.getD []) ∧
    (groups = [] ∨ ∃ group ∈ groups, group ∈ claims.groups.getD [])

/-- A marker says that the groups are not in the token. -/
def GroupOverage (claims : EntraClaims) : Prop :=
  claims.hasgroups = some true ∨
    ∃ names value, claims.claimNames = some names ∧ names.get "groups".toList = some value

/-- The claims are from the issuer, for the tenant and for the audience. -/
def Addressed (config : EntraAuthConfig) (claims : EntraClaims)
    (endpoint : Option EndpointEntraPolicy) : Prop :=
  claims.iss = config.issuer ∧ claims.tid = config.tenantId ∧
    requiredAudience config endpoint ∈ audiencesOf claims.aud

/-- The claims have a known version, all their groups, and what is required. -/
def Entitled (config : EntraAuthConfig) (claims : EntraClaims)
    (endpoint : Option EndpointEntraPolicy) : Prop :=
  (claims.ver = "1.0".toList ∨ claims.ver = "2.0".toList) ∧ ¬ GroupOverage claims ∧
    Grants (requiredScopes config endpoint) (requiredRoles config endpoint)
      (allowedGroups config endpoint) claims

section Specification

variable {calendar : Calendar}

/-- What an accepted token promises at a time, in unbounded arithmetic. -/
structure Sound (config : EntraAuthConfig) (claims : EntraClaims) (now : DateTime calendar)
    (endpoint : Option EndpointEntraPolicy) : Prop where
  unexpired : now.instant < (claims.exp + config.clockSkewSeconds) * nanosecondsPerSecond
  begun : ∀ nbf, claims.nbf = some nbf →
    nbf * nanosecondsPerSecond ≤ now.instant + config.clockSkewSeconds * nanosecondsPerSecond
  issued : ∀ iat, claims.iat = some iat →
    iat * nanosecondsPerSecond ≤ now.instant + config.clockSkewSeconds * nanosecondsPerSecond
  issuer : claims.iss = config.issuer
  tenant : claims.tid = config.tenantId
  audience : requiredAudience config endpoint ∈ audiencesOf claims.aud
  groups : ¬ GroupOverage claims
  grants : Grants (requiredScopes config endpoint) (requiredRoles config endpoint)
    (allowedGroups config endpoint) claims

/-- A time of the calendar is shifted out of it. -/
def Leaves (calendar : Calendar) (time shift : ℤ) : Prop :=
  calendar.Supports time ∧ ¬ calendar.Supports (time + shift)

/-- A token whose `exp` is in the calendar has not expired. -/
def Live (exp skew : ℤ) (now : DateTime calendar) : Prop :=
  calendar.Supports exp ∧ now.instant < (exp + skew) * nanosecondsPerSecond

/-- A time that is given is in the calendar, and too late. -/
def Late (time : Option ℤ) (skew : ℤ) (now : DateTime calendar) : Prop :=
  ∃ seconds, time = some seconds ∧ calendar.Supports seconds ∧
    now.instant < (seconds - skew) * nanosecondsPerSecond

/-- A time that is given is not in the calendar, and too late. -/
def Beyond (time : Option ℤ) (skew : ℤ) (now : DateTime calendar) : Prop :=
  ∃ seconds, time = some seconds ∧ ¬ calendar.Supports seconds ∧
    now.instant < (seconds - skew) * nanosecondsPerSecond

/-- A time that is given leaves the calendar when the skew is subtracted. -/
def LeavesBack (calendar : Calendar) (time : Option ℤ) (skew : ℤ) : Prop :=
  ∃ seconds, time = some seconds ∧ Leaves calendar seconds (-skew)

/-- A check that is reached shifts its time out of the calendar: that of `exp` is reached by every
token for the audience, that of `nbf` by those that have not expired, and that of `iat` by those of
them that are valid already. -/
def ShiftLeaves (config : EntraAuthConfig) (claims : EntraClaims) (now : DateTime calendar)
    (endpoint : Option EndpointEntraPolicy) : Prop :=
  let skew := config.clockSkewSeconds
  Addressed config claims endpoint ∧
    (Leaves calendar claims.exp skew ∨
      (Live claims.exp skew now ∧
        (LeavesBack calendar claims.nbf skew ∨
          (¬ Late claims.nbf skew now ∧ LeavesBack calendar claims.iat skew))))

/-- The claims pass every check that looks at the calendar times. -/
def Passes (config : EntraAuthConfig) (claims : EntraClaims) (now : DateTime calendar)
    (endpoint : Option EndpointEntraPolicy) : Prop :=
  let skew := config.clockSkewSeconds
  Addressed config claims endpoint ∧ Live claims.exp skew now ∧ ¬ Late claims.nbf skew now ∧
    ¬ Late claims.iat skew now ∧ Entitled config claims endpoint

/-- The claims pass these checks with a time in a future beyond the calendar. -/
def FutureOverlooked (config : EntraAuthConfig) (claims : EntraClaims) (now : DateTime calendar)
    (endpoint : Option EndpointEntraPolicy) : Prop :=
  Passes config claims now endpoint ∧
    (Beyond claims.nbf config.clockSkewSeconds now ∨ Beyond claims.iat config.clockSkewSeconds now)

end Specification

/-! ### The checks of the requirements -/

section Requirements

variable {calendar : Calendar}

theorem audienceContains_iff (audience : JsonValue) (expected : Text) :
    audienceContains audience expected = true ↔ expected ∈ audiencesOf audience := by
  unfold audienceContains audiencesOf
  split
  · rw [decide_eq_true_eq, List.mem_singleton, eq_comm]
  · simp only [List.any_eq_true, decide_eq_true_eq, List.mem_filterMap]
  · simp

theorem hasGroupOverage_iff (claims : EntraClaims) :
    claims.hasGroupOverage = true ↔ GroupOverage claims := by
  unfold EntraClaims.hasGroupOverage GroupOverage
  rw [Bool.or_eq_true, Option.isSome_iff_exists]
  refine or_congr ?_ ?_
  · rcases claims.hasgroups with _ | value
    · exact ⟨nofun, nofun⟩
    · exact ⟨congrArg some, Option.some.inj⟩
  · constructor
    · rintro ⟨value, hvalue⟩
      obtain ⟨names, hnames, hgroups⟩ := Option.bind_eq_some_iff.mp hvalue
      exact ⟨names, value, hnames, hgroups⟩
    · rintro ⟨names, value, hnames, hgroups⟩
      exact ⟨value, Option.bind_eq_some_iff.mpr ⟨names, hnames, hgroups⟩⟩

theorem groups_iff (allowed groups : List Text) :
    (!allowed.isEmpty && !allowed.any fun group ↦ groups.contains group) = false ↔
      allowed = [] ∨ ∃ group ∈ allowed, group ∈ groups := by
  rw [Bool.and_eq_false_iff, Bool.not_eq_false', Bool.not_eq_false', List.isEmpty_iff]
  simp only [List.any_eq_true, List.contains_iff_mem]

theorem all_iff (required given : List Text) :
    (required.any fun value ↦ !given.contains value) = false ↔
      ∀ value ∈ required, value ∈ given := by
  simp only [List.any_eq_false, Bool.not_eq_true', Bool.not_eq_false, List.contains_iff_mem]

theorem option_all_iff (required : Option Text) (given : List Text) :
    (required.any fun value ↦ !given.contains value) = false ↔
      ∀ value ∈ required.toList, value ∈ given := by
  rw [← all_iff]
  cases required with
  | none => rfl
  | some value => simp

theorem validateEntraAuthorizationDetailed_cases (requiredScope requiredRole : Option Text)
    (allowed : List Text) (claims : EntraClaims) :
    (validateEntraAuthorizationDetailed requiredScope requiredRole allowed
        (identityOf claims).scopes (identityOf claims).roles (identityOf claims).groups = .ok () ∧
      Grants requiredScope.toList requiredRole.toList allowed claims) ∨
    ((∃ reason, validateEntraAuthorizationDetailed requiredScope requiredRole allowed
        (identityOf claims).scopes (identityOf claims).roles (identityOf claims).groups =
          .error reason) ∧
      ¬ Grants requiredScope.toList requiredRole.toList allowed claims) := by
  unfold validateEntraAuthorizationDetailed Grants
  rw [← option_all_iff, ← option_all_iff, ← groups_iff]
  split_ifs with hscope hrole hgroups
  · refine Or.inr ⟨⟨_, rfl⟩, fun hgrants ↦ ?_⟩
    exact absurd (hscope.symm.trans hgrants.1) (by decide)
  · refine Or.inr ⟨⟨_, rfl⟩, fun hgrants ↦ ?_⟩
    exact absurd (hrole.symm.trans hgrants.2.1) (by decide)
  · refine Or.inr ⟨⟨_, rfl⟩, fun hgrants ↦ ?_⟩
    exact absurd (hgroups.symm.trans hgrants.2.2) (by decide)
  · rw [Bool.not_eq_true] at hscope hrole hgroups
    exact Or.inl ⟨rfl, hscope, hrole, hgroups⟩

/-- Assumes: a token for the audience of a policy, which has not expired. Only its scopes, roles and
groups can fail. -/
theorem authorize_cases (policy : EndpointEntraPolicy) {claims : EntraClaims} {now : ℤ}
    (haudience : policy.audience ∈ audiencesOf claims.aud) (hexp : now < claims.exp) :
    (policy.authorize (identityOf claims) now = .ok () ∧
      Grants policy.requiredScopes policy.requiredRoles policy.allowedGroups claims) ∨
    ((∃ error, policy.authorize (identityOf claims) now = .error error) ∧
      ¬ Grants policy.requiredScopes policy.requiredRoles policy.allowedGroups claims) := by
  have hcontains : (identityOf claims).audiences.contains policy.audience = true :=
    List.contains_iff_mem.mpr haudience
  have hlive : (identityOf claims).expiresAt.all (fun exp ↦ decide (exp ≤ now)) = false :=
    decide_eq_false (Int.not_le.mpr hexp)
  unfold EndpointEntraPolicy.authorize Grants
  rw [hcontains, hlive, Bool.not_true, if_neg Bool.false_ne_true, if_neg Bool.false_ne_true,
    ← all_iff, ← all_iff, ← groups_iff]
  split_ifs with hfails
  · refine Or.inr ⟨⟨_, rfl⟩, fun ⟨hscopes, hroles, hgroups⟩ ↦ ?_⟩
    change (_ || _ || _) = true at hfails
    rw [Bool.or_eq_true, Bool.or_eq_true] at hfails
    rcases hfails with (hscope | hrole) | hgroup
    · exact absurd (hscope.symm.trans hscopes) (by decide)
    · exact absurd (hrole.symm.trans hroles) (by decide)
    · exact absurd (hgroup.symm.trans hgroups) (by decide)
  · rw [Bool.not_eq_true, Bool.or_eq_false_iff, Bool.or_eq_false_iff] at hfails
    exact Or.inl ⟨rfl, hfails.1.1, hfails.1.2, hfails.2⟩

/-- The expiry that an endpoint checks once more has been checked: the difference does not saturate
below a time of the calendar. -/
theorem Live.authorizationTime_lt {exp skew : ℤ} {now : DateTime calendar}
    (hlive : Live exp skew now) : saturatingSubSigned 64 now.timestamp skew < exp := by
  obtain ⟨hsupports, hlt⟩ := hlive
  have hfirst : -2 ^ 63 < exp := Int.lt_of_lt_of_le calendar.above hsupports.1
  have hseconds : now.timestamp < exp + skew := Int.ediv_lt_of_lt_mul (by decide) hlt
  exact max_lt hfirst (lt_of_le_of_lt (min_le_right _ _) (by omega))

/-- Assumes: a token that has not expired, for the audience. The end of the validation decides the
rest. -/
theorem authorizeClaims_cases {config : EntraAuthConfig} {claims : EntraClaims}
    {now : DateTime calendar} {endpoint : Option EndpointEntraPolicy}
    (haddressed : Addressed config claims endpoint)
    (hlive : Live claims.exp config.clockSkewSeconds now) :
    (authorizeClaims config claims now endpoint = some (.ok (identityOf claims)) ∧
      Entitled config claims endpoint) ∨
    ((∃ error, authorizeClaims config claims now endpoint = some (.error error)) ∧
      ¬ Entitled config claims endpoint) := by
  have hrejected : ∀ error reason, ∃ rejected, failure error reason = some (.error rejected) :=
    fun error reason ↦ ⟨⟨error, reason⟩, rfl⟩
  unfold authorizeClaims Entitled
  rw [← hasGroupOverage_iff]
  split_ifs with hversion hoverage
  · refine Or.inr ⟨hrejected _ _, fun hentitled ↦ ?_⟩
    exact hentitled.1.elim (absurd · hversion.1) (absurd · hversion.2)
  · exact Or.inr ⟨hrejected _ _, fun hentitled ↦ hentitled.2.1 hoverage⟩
  · have hknown : claims.ver = "1.0".toList ∨ claims.ver = "2.0".toList := by
      by_contra hnone
      exact hversion (not_or.mp hnone)
    rcases endpoint with _ | policy
    · rcases validateEntraAuthorizationDetailed_cases config.requiredScope config.requiredRole
        config.allowedGroups claims with ⟨hok, hgrants⟩ | ⟨⟨reason, herror⟩, hgrants⟩
      · dsimp only
        rw [hok]
        exact Or.inl ⟨rfl, hknown, hoverage, hgrants⟩
      · dsimp only
        rw [herror]
        exact Or.inr ⟨hrejected _ _, fun hentitled ↦ hgrants hentitled.2.2⟩
    · rcases authorize_cases policy haddressed.2.2 hlive.authorizationTime_lt with
        ⟨hok, hgrants⟩ | ⟨⟨error, herror⟩, hgrants⟩
      · dsimp only
        rw [hok]
        exact Or.inl ⟨rfl, hknown, hoverage, hgrants⟩
      · dsimp only
        rw [herror]
        exact Or.inr ⟨hrejected _ _, fun hentitled ↦ hgrants hentitled.2.2⟩

end Requirements

/-! ### The checks of the times -/

section Times

variable {calendar : Calendar}

theorem tokenExpired_cases (exp skew : ℤ) (now : DateTime calendar) :
    (tokenExpired exp skew now = none ∧ Leaves calendar exp skew) ∨
    (tokenExpired exp skew now = some true ∧ ¬ Leaves calendar exp skew ∧ ¬ Live exp skew now) ∨
    (tokenExpired exp skew now = some false ∧ ¬ Leaves calendar exp skew ∧ Live exp skew now) := by
  unfold tokenExpired
  by_cases hsupports : calendar.Supports exp
  · obtain ⟨time, htime, hseconds, hinstant⟩ := fromTimestamp_of_supports hsupports
    rw [htime]
    dsimp only
    by_cases hshifted : calendar.Supports (exp + skew)
    · obtain ⟨later, hlater, hvalue⟩ := time.shift_of_supports (hseconds.symm ▸ hshifted)
      have hstays : ¬ Leaves calendar exp skew := fun hleaves ↦ hleaves.2 hshifted
      rw [hlater, Option.map_some, hvalue, hinstant, ← Int.add_mul]
      by_cases hexpired : (exp + skew) * nanosecondsPerSecond ≤ now.instant
      · rw [decide_eq_true hexpired]
        exact Or.inr (Or.inl ⟨rfl, hstays, fun hlive ↦ Int.not_le.mpr hlive.2 hexpired⟩)
      · rw [decide_eq_false hexpired]
        exact Or.inr (Or.inr ⟨rfl, hstays, hsupports, Int.not_le.mp hexpired⟩)
    · rw [time.shift_of_not (hseconds.symm ▸ hshifted)]
      exact Or.inl ⟨rfl, hsupports, hshifted⟩
  · rw [fromTimestamp_of_not hsupports]
    exact Or.inr (Or.inl ⟨rfl, fun hleaves ↦ hsupports hleaves.1, fun hlive ↦ hsupports hlive.1⟩)

theorem inFuture_cases (time : Option ℤ) (skew : ℤ) (now : DateTime calendar) :
    (inFuture time skew now = none ∧ LeavesBack calendar time skew) ∨
    (inFuture time skew now = some true ∧ ¬ LeavesBack calendar time skew ∧ Late time skew now) ∨
    (inFuture time skew now = some false ∧ ¬ LeavesBack calendar time skew ∧
      ¬ Late time skew now) := by
  unfold inFuture
  rcases time with _ | seconds
  · exact Or.inr (Or.inr ⟨rfl, nofun, nofun⟩)
  · rw [Option.bind_some]
    have hback : LeavesBack calendar (some seconds) skew ↔ Leaves calendar seconds (-skew) :=
      ⟨fun ⟨_, heq, hleaves⟩ ↦ Option.some.inj heq ▸ hleaves, fun hleaves ↦ ⟨seconds, rfl, hleaves⟩⟩
    have hlate : Late (some seconds) skew now ↔ calendar.Supports seconds ∧
        now.instant < (seconds - skew) * nanosecondsPerSecond :=
      ⟨fun ⟨_, heq, hlater⟩ ↦ Option.some.inj heq ▸ hlater, fun hlater ↦ ⟨seconds, rfl, hlater⟩⟩
    rw [hback, hlate]
    by_cases hsupports : calendar.Supports seconds
    · obtain ⟨begins, hbegins, hseconds, hinstant⟩ := fromTimestamp_of_supports hsupports
      rw [hbegins]
      dsimp only
      by_cases hshifted : calendar.Supports (seconds + -skew)
      · obtain ⟨sooner, hsooner, hvalue⟩ := begins.shift_of_supports (hseconds.symm ▸ hshifted)
        have hstays : ¬ Leaves calendar seconds (-skew) := fun hleaves ↦ hleaves.2 hshifted
        rw [hsooner, Option.map_some, hvalue, hinstant, ← Int.add_mul, ← Int.sub_eq_add_neg]
        by_cases hlater : now.instant < (seconds - skew) * nanosecondsPerSecond
        · rw [decide_eq_true hlater]
          exact Or.inr (Or.inl ⟨rfl, hstays, hsupports, hlater⟩)
        · rw [decide_eq_false hlater]
          exact Or.inr (Or.inr ⟨rfl, hstays, fun hboth ↦ hlater hboth.2⟩)
      · rw [begins.shift_of_not (hseconds.symm ▸ hshifted)]
        exact Or.inl ⟨rfl, hsupports, hshifted⟩
    · rw [fromTimestamp_of_not hsupports]
      exact Or.inr (Or.inr ⟨rfl, fun hleaves ↦ hsupports hleaves.1, fun hboth ↦ hsupports hboth.1⟩)

end Times

/-! ### The whole validation -/

section Whole

variable {calendar : Calendar} {config : EntraAuthConfig} {claims : EntraClaims}
  {now : DateTime calendar} {endpoint : Option EndpointEntraPolicy}

/-- Assumes: claims from another issuer, for another tenant or another audience. -/
theorem validate_of_not_addressed (haddressed : ¬ Addressed config claims endpoint) :
    ∃ rejected, validateClaimsForEndpoint config claims now endpoint = some (.error rejected) := by
  unfold validateClaimsForEndpoint
  by_cases hissuer : claims.iss = config.issuer
  · rw [if_neg (not_not.mpr hissuer)]
    by_cases htenant : claims.tid = config.tenantId
    · have haudience : audienceContains claims.aud (requiredAudience config endpoint) = false := by
        rw [← Bool.not_eq_true, audienceContains_iff]
        exact fun hmem ↦ haddressed ⟨hissuer, htenant, hmem⟩
      rw [if_neg (not_not.mpr htenant), haudience, Bool.not_false, if_pos rfl]
      exact ⟨_, rfl⟩
    · rw [if_pos htenant]
      exact ⟨_, rfl⟩
  · rw [if_pos hissuer]
    exact ⟨_, rfl⟩

/-- Assumes: a skew that is a duration. The checks of the times follow. -/
theorem validate_of_addressed (hskew : |config.clockSkewSeconds| ≤ (2 ^ 63 - 1) / 1000)
    (haddressed : Addressed config claims endpoint) :
    validateClaimsForEndpoint config claims now endpoint =
      (tokenExpired claims.exp config.clockSkewSeconds now).bind fun expired ↦
      if expired then failure .expiredEntraToken "token_expired"
      else
        (inFuture claims.nbf config.clockSkewSeconds now).bind fun premature ↦
        if premature then failure .invalidEntraToken "token_not_yet_valid"
        else
          (inFuture claims.iat config.clockSkewSeconds now).bind fun issuedLater ↦
          if issuedLater then failure .invalidEntraToken "issued_at_in_future"
          else authorizeClaims config claims now endpoint := by
  obtain ⟨hissuer, htenant, haudience⟩ := haddressed
  unfold validateClaimsForEndpoint
  rw [if_neg (not_not.mpr hissuer), if_neg (not_not.mpr htenant),
    (audienceContains_iff _ _).mpr haudience, Bool.not_true, if_neg Bool.false_ne_true,
    durationSeconds, if_pos hskew, Option.bind_some]

theorem not_shiftLeaves (hexp : ¬ Leaves calendar claims.exp config.clockSkewSeconds)
    (hnbf : ¬ LeavesBack calendar claims.nbf config.clockSkewSeconds)
    (hiat : ¬ LeavesBack calendar claims.iat config.clockSkewSeconds) :
    ¬ ShiftLeaves config claims now endpoint := by
  rintro ⟨-, hleaves | ⟨-, hleaves | ⟨-, hleaves⟩⟩⟩
  · exact hexp hleaves
  · exact hnbf hleaves
  · exact hiat hleaves

/-- The validation panics where a shift leaves the calendar, accepts what passes the checks, and
rejects the rest. -/
theorem validate_cases (hskew : |config.clockSkewSeconds| ≤ (2 ^ 63 - 1) / 1000) :
    (validateClaimsForEndpoint config claims now endpoint = none ∧
      ShiftLeaves config claims now endpoint) ∨
    ((∃ rejected, validateClaimsForEndpoint config claims now endpoint = some (.error rejected)) ∧
      ¬ ShiftLeaves config claims now endpoint ∧ ¬ Passes config claims now endpoint) ∨
    (validateClaimsForEndpoint config claims now endpoint = some (.ok (identityOf claims)) ∧
      ¬ ShiftLeaves config claims now endpoint ∧ Passes config claims now endpoint) := by
  by_cases haddressed : Addressed config claims endpoint
  · rw [validate_of_addressed hskew haddressed]
    rcases tokenExpired_cases claims.exp config.clockSkewSeconds now with
      ⟨hresult, hleaves⟩ | ⟨hresult, hstays, hdead⟩ | ⟨hresult, hstays, hlive⟩
    · rw [hresult]
      exact Or.inl ⟨rfl, haddressed, Or.inl hleaves⟩
    · rw [hresult]
      refine Or.inr (Or.inl ⟨⟨_, rfl⟩, ?_, fun hpasses ↦ hdead hpasses.2.1⟩)
      rintro ⟨-, hleaves | ⟨hlive, -⟩⟩
      · exact hstays hleaves
      · exact hdead hlive
    · rw [hresult, Option.bind_some, if_neg Bool.false_ne_true]
      rcases inFuture_cases claims.nbf config.clockSkewSeconds now with
        ⟨hnbf, hback⟩ | ⟨hnbf, hback, hlate⟩ | ⟨hnbf, hback, hbegun⟩
      · rw [hnbf]
        exact Or.inl ⟨rfl, haddressed, Or.inr ⟨hlive, Or.inl hback⟩⟩
      · rw [hnbf]
        refine Or.inr (Or.inl ⟨⟨_, rfl⟩, ?_, fun hpasses ↦ hpasses.2.2.1 hlate⟩)
        rintro ⟨-, hleaves | ⟨-, hleaves | ⟨hbegun, -⟩⟩⟩
        · exact hstays hleaves
        · exact hback hleaves
        · exact hbegun hlate
      · rw [hnbf, Option.bind_some, if_neg Bool.false_ne_true]
        rcases inFuture_cases claims.iat config.clockSkewSeconds now with
          ⟨hiat, hlast⟩ | ⟨hiat, hlast, hlate⟩ | ⟨hiat, hlast, hissued⟩
        · rw [hiat]
          exact Or.inl ⟨rfl, haddressed, Or.inr ⟨hlive, Or.inr ⟨hbegun, hlast⟩⟩⟩
        · rw [hiat]
          exact Or.inr (Or.inl ⟨⟨_, rfl⟩, not_shiftLeaves hstays hback hlast,
            fun hpasses ↦ hpasses.2.2.2.1 hlate⟩)
        · rw [hiat, Option.bind_some, if_neg Bool.false_ne_true]
          rcases authorizeClaims_cases haddressed hlive with ⟨hok, hentitled⟩ | ⟨herror, hentitled⟩
          · exact Or.inr (Or.inr ⟨hok, not_shiftLeaves hstays hback hlast, haddressed, hlive,
              hbegun, hissued, hentitled⟩)
          · exact Or.inr (Or.inl ⟨herror, not_shiftLeaves hstays hback hlast,
              fun hpasses ↦ hentitled hpasses.2.2.2.2⟩)
  · exact Or.inr (Or.inl ⟨validate_of_not_addressed haddressed,
      fun hleaves ↦ haddressed hleaves.1, fun hpasses ↦ haddressed hpasses.1⟩)

/-- A time is not too late if it is neither too late in the calendar nor beyond it. -/
theorem not_later_iff {time : Option ℤ} {skew : ℤ} :
    (∀ seconds, time = some seconds →
        seconds * nanosecondsPerSecond ≤ now.instant + skew * nanosecondsPerSecond) ↔
      ¬ Late time skew now ∧ ¬ Beyond time skew now := by
  have hmove : ∀ seconds : ℤ,
      seconds * nanosecondsPerSecond ≤ now.instant + skew * nanosecondsPerSecond ↔
        ¬ now.instant < (seconds - skew) * nanosecondsPerSecond := by
    intro seconds
    rw [Int.sub_mul, Int.not_lt, sub_le_iff_le_add]
  simp only [hmove]
  constructor
  · intro hall
    exact ⟨fun ⟨seconds, hsome, _, hlater⟩ ↦ hall seconds hsome hlater,
      fun ⟨seconds, hsome, _, hlater⟩ ↦ hall seconds hsome hlater⟩
  · rintro ⟨hlate, hbeyond⟩ seconds hsome hlater
    by_cases hsupports : calendar.Supports seconds
    · exact hlate ⟨seconds, hsome, hsupports, hlater⟩
    · exact hbeyond ⟨seconds, hsome, hsupports, hlater⟩

/-- Assumes: claims that pass the checks. What they promise holds unless a time is beyond the
calendar. -/
theorem Passes.sound_iff (hpasses : Passes config claims now endpoint) :
    Sound config claims now endpoint ↔ ¬ FutureOverlooked config claims now endpoint := by
  obtain ⟨haddressed, hlive, hbegun, hissued, hentitled⟩ := id hpasses
  constructor
  · rintro hsound ⟨-, hbeyond | hbeyond⟩
    · exact (not_later_iff.mp hsound.begun).2 hbeyond
    · exact (not_later_iff.mp hsound.issued).2 hbeyond
  · intro hclear
    have hnbf : ¬ Beyond claims.nbf config.clockSkewSeconds now :=
      fun hbeyond ↦ hclear ⟨hpasses, Or.inl hbeyond⟩
    have hiat : ¬ Beyond claims.iat config.clockSkewSeconds now :=
      fun hbeyond ↦ hclear ⟨hpasses, Or.inr hbeyond⟩
    exact ⟨hlive.2, not_later_iff.mpr ⟨hbegun, hnbf⟩, not_later_iff.mpr ⟨hissued, hiat⟩,
      haddressed.1, haddressed.2.1, haddressed.2.2, hentitled.2.1, hentitled.2.2⟩

end Whole

/-- Assumes: a clock skew that is a duration. The validation does not panic and what it accepts is
sound, exactly when no check that is reached shifts its time out of the calendar and no claims pass
the checks with an `nbf` or `iat` in a future beyond the calendar. -/
theorem claims_checked_iff {calendar : Calendar} (config : EntraAuthConfig)
    (hskew : |config.clockSkewSeconds| ≤ (2 ^ 63 - 1) / 1000) (claims : EntraClaims)
    (now : DateTime calendar) (endpoint : Option EndpointEntraPolicy) :
    (validateClaimsForEndpoint config claims now endpoint ≠ none ∧
        ∀ identity, validateClaimsForEndpoint config claims now endpoint = some (.ok identity) →
          Sound config claims now endpoint) ↔
      ¬ ShiftLeaves config claims now endpoint ∧ ¬ FutureOverlooked config claims now endpoint := by
  rcases @validate_cases calendar config claims now endpoint hskew with
    ⟨hresult, hleaves⟩ | ⟨⟨rejected, hresult⟩, hstays, hfails⟩ | ⟨hresult, hstays, hpasses⟩
  · rw [hresult]
    exact ⟨fun hchecked ↦ absurd rfl hchecked.1, fun hclear ↦ absurd hleaves hclear.1⟩
  · rw [hresult]
    refine ⟨fun _ ↦ ⟨hstays, fun hoverlooked ↦ hfails hoverlooked.1⟩, fun _ ↦ ⟨nofun, ?_⟩⟩
    intro identity haccepted
    exact absurd (Option.some.inj haccepted) (by simp)
  · rw [hresult, ← hpasses.sound_iff]
    exact ⟨fun hchecked ↦ ⟨hstays, hchecked.2 _ rfl⟩, fun hclear ↦ ⟨nofun, fun _ _ ↦ hclear.2⟩⟩

/-! ### Tokens at the ends of the calendar -/

/-- The calendar of `chrono`: from the year -262143 to the year 262142. -/
def utc : Calendar := ⟨-8334601228800, 8210266876799, by decide, by decide⟩

/-- A configuration with a skew of a minute. -/
def sampleConfig : EntraAuthConfig where
  tenantId := "tenant-1".toList
  audience := "api://relayna-gateway".toList
  issuer := "https://login.microsoftonline.com/tenant-1/v2.0".toList
  requiredScope := some "gateway.invoke".toList
  requiredRole := none
  allowedGroups := ["group-1".toList]
  clockSkewSeconds := 60

/-- Claims that the configuration accepts, with times. -/
def sampleClaims (exp : ℤ) (nbf iat : Option ℤ) : EntraClaims where
  iss := "https://login.microsoftonline.com/tenant-1/v2.0".toList
  aud := .array [.string "api://another".toList, .string "api://relayna-gateway".toList]
  exp := exp
  nbf := nbf
  iat := iat
  tid := "tenant-1".toList
  ver := "2.0".toList
  sub := some "subject-1".toList
  oid := none
  appid := none
  azp := none
  preferredUsername := none
  email := none
  name := none
  nonce := none
  scp := some "openid gateway.invoke".toList
  roles := none
  groups := some ["group-1".toList]
  hasgroups := none
  claimNames := none

/-- A time in the year 2026. -/
def sampleNow : DateTime utc := ⟨1780000000500000000, by decide⟩

theorem claims_checked_iff_sample :
    |sampleConfig.clockSkewSeconds| ≤ (2 ^ 63 - 1) / 1000 ∧
      Sound sampleConfig (sampleClaims 1780003600 (some 1780000060) (some 1780000000)) sampleNow
        none := by
  have hskew : |sampleConfig.clockSkewSeconds| ≤ (2 ^ 63 - 1) / 1000 := by decide
  have hclear : ∀ time : ℤ, utc.Supports (time - 60) → ¬ Leaves utc time (-60) :=
    fun _ hsupports hleaves ↦ hleaves.2 hsupports
  have hchecked := (claims_checked_iff sampleConfig hskew
    (sampleClaims 1780003600 (some 1780000060) (some 1780000000)) sampleNow none).mpr
    ⟨?_, ?_⟩
  · exact ⟨hskew, hchecked.2
      (identityOf (sampleClaims 1780003600 (some 1780000060) (some 1780000000)))
        (by decide)⟩
  · rintro ⟨-, hleaves | ⟨-, ⟨time, htime, hleaves⟩ | ⟨-, time, htime, hleaves⟩⟩⟩
    · exact hleaves.2 (by decide)
    · cases htime
      exact hclear _ (by decide) hleaves
    · cases htime
      exact hclear _ (by decide) hleaves
  · rintro ⟨-, ⟨time, htime, hbeyond, -⟩ | ⟨time, htime, hbeyond, -⟩⟩
    · cases htime
      exact hbeyond (by decide)
    · cases htime
      exact hbeyond (by decide)

/-- A token that expires with the calendar makes the validation panic, and one that is valid from
the last second of the 64-bit integers on is accepted now. -/
theorem times_beyond_calendar :
    validateClaimsForEndpoint sampleConfig (sampleClaims 8210266876799 none none) sampleNow none =
        none ∧
      (∃ identity, validateClaimsForEndpoint sampleConfig
          (sampleClaims 1780003600 (some (2 ^ 63 - 1)) none) sampleNow none = some (.ok identity)) ∧
      ¬ Sound sampleConfig (sampleClaims 1780003600 (some (2 ^ 63 - 1)) none) sampleNow none := by
  refine ⟨by decide,
    ⟨identityOf (sampleClaims 1780003600 (some (2 ^ 63 - 1)) none), by decide⟩,
    fun hsound ↦ ?_⟩
  exact absurd (hsound.begun _ rfl) (by decide)

end Relayna.Auth.Entra

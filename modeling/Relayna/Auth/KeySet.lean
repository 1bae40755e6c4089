import Relayna.Auth.EntraClaims
import Relayna.Library.ThrottledCache
import Relayna.Library.Transition
import Relayna.Passthrough.PathPolicy

/-!
# The keys of the issuer

`EntraJwtVerifier` of `crates/gateway-core/src/entra.rs` verifies a token with the key that its
header names. The keys are cached; a verification that misses its key refreshes the cache and looks
again. Refreshes are serialized by a lock and throttled: while the last attempt is recent, whatever
came of it, a verification goes on without one. Verifications interleave at every wait, wait for the
lock in any order, and are dropped with their requests.

`accepted_with_current_key` is what this is for: however many unknown keys are asked for, the issuer
is asked at most once in the cooldown; and a token is accepted only with a key of the document that
was fetched last, not longer ago than the cache may keep it, from an issuer that is the configured
one.

Decoding and signatures are parameters, and a document is fetched in one step. What is logged is
left out, and so is what a panic aborts.
-/

set_option autoImplicit false
set_option relaxedAutoImplicit false

namespace Relayna.Auth.Entra

open Relayna.Library (Calendar)
open Relayna.Library.Calendar (DateTime)
open Relayna.Library.ThrottledCache
open Relayna.Library.Transition (run run_invariant)
open Relayna.Passthrough.PathPolicy (trim)

/-! ### Keys and headers -/

inductive VerifierError
  | missingEntraAuthorization
  | malformedEntraAuthorization
  | rejected (error : GatewayError)
  deriving DecidableEq

structure JsonWebKey where
  kid : Option Text
  kty : Text
  alg : Option Text
  n : Text
  e : Text
  deriving DecidableEq

/-- `Algorithm` of a header. -/
inductive Algorithm
  | rs256
  | rs384
  | rs512
  | other
  deriving DecidableEq

/-- What the verifier reads of the header of a token. -/
structure JwtHeader where
  kid : Option Text
  alg : Algorithm

def headerAlgorithmName : Algorithm → Text
  | .rs256 => "RS256".toList
  | .rs384 => "RS384".toList
  | .rs512 => "RS512".toList
  | .other => "unsupported".toList

def algorithmToJsonwebtoken (algorithm : Text) : Option Algorithm :=
  if algorithm = "RS256".toList then some .rs256
  else if algorithm = "RS384".toList then some .rs384
  else if algorithm = "RS512".toList then some .rs512
  else none

/-- `decode_header`, `DecodingKey::from_rsa_components` and `decode`, which verifies the signature.
-/
structure Jwt where
  decodeHeader : Text → Option JwtHeader
  validComponents : Text → Text → Bool
  decode : Text → JsonWebKey → Algorithm → Option EntraClaims

/-- What the verifier reads of `EntraAuthConfig`. -/
structure VerifierConfig where
  claims : EntraAuthConfig
  acceptedAlgorithms : List Text
  jwksCacheTtlSeconds : ℕ

/-- `JWKS_REFRESH_COOLDOWN`, in nanoseconds. -/
def jwksRefreshCooldown : ℕ :=
  30 * 10 ^ 9

/-- How long fetched keys are kept. -/
def VerifierConfig.ttl (config : VerifierConfig) : ℕ :=
  max (config.jwksCacheTtlSeconds * 10 ^ 9) jwksRefreshCooldown

/-! ### One token -/

/-- A token that is presented, with the time and the policy that it is checked against. -/
structure Presented (calendar : Calendar) where
  token : Text
  now : DateTime calendar
  endpoint : Option EndpointEntraPolicy

/-- A token whose header has been read. -/
structure Verification (calendar : Calendar) where
  presented : Presented calendar
  kid : Text
  algorithm : Algorithm

section Token

variable {calendar : Calendar} (config : VerifierConfig) (jwt : Jwt)

/-- `verify_authorization` as far as the token. -/
def tokenOf (authorization : Option Text) : Except VerifierError Text :=
  match authorization with
  | none => .error .missingEntraAuthorization
  | some authorization =>
    if "Bearer ".toList.isPrefixOf authorization then .ok (trim (authorization.drop 7))
    else .error .malformedEntraAuthorization

/-- `verify_token_for_endpoint` as far as the key. -/
def readHeader (presented : Presented calendar) : Except VerifierError (Verification calendar) :=
  if presented.token.isEmpty then .error .malformedEntraAuthorization
  else
    match jwt.decodeHeader presented.token with
    | none => .error .malformedEntraAuthorization
    | some header =>
      match header.kid with
      | none => .error (.rejected .invalidEntraToken)
      | some kid =>
        if !config.acceptedAlgorithms.contains (headerAlgorithmName header.alg) then
          .error (.rejected .invalidEntraToken)
        else
          match algorithmToJsonwebtoken (headerAlgorithmName header.alg) with
          | none => .error (.rejected .invalidEntraToken)
          | some algorithm => .ok ⟨presented, kid, algorithm⟩

/-- `verify_token_for_endpoint` with the key. There is no result where it panics. -/
def checkWithKey (verification : Verification calendar) (jwk : JsonWebKey) :
    Option (Except VerifierError EntraIdentityContext) :=
  if jwk.kty ≠ "RSA".toList then some (.error (.rejected .invalidEntraToken))
  else if jwk.alg.any (· ≠ headerAlgorithmName verification.algorithm) then
    some (.error (.rejected .invalidEntraToken))
  else if !jwt.validComponents jwk.n jwk.e then some (.error (.rejected .invalidEntraToken))
  else
    match jwt.decode verification.presented.token jwk verification.algorithm with
    | none => some (.error (.rejected .invalidEntraToken))
    | some claims =>
      (validateClaimsForEndpoint config.claims claims verification.presented.now
        verification.presented.endpoint).map fun checked ↦
          checked.mapError fun failure ↦ .rejected failure.error

/-- The key of a document with an identifier. -/
def keyOf (keys : List JsonWebKey) (kid : Text) : Option JsonWebKey :=
  keys.find? fun key ↦ key.kid = some kid

end Token

/-! ### Verifications -/

/-- A token that was accepted, with the key and the time of the lookup. -/
structure Accepted (calendar : Calendar) where
  verification : Verification calendar
  jwk : JsonWebKey
  time : ℕ
  identity : EntraIdentityContext

/-- What the issuer answers: nothing of use, or a document of an issuer. -/
inductive FetchAnswer
  | failed
  | document (issuer : Text) (keys : List JsonWebKey)

/-- The verifier: its clock and cache, the verification that holds the lock, those that wait for it,
those that have it behind them, and what has happened. -/
structure Verifier (calendar : Calendar) where
  clock : ℕ
  cache : Cache (List JsonWebKey)
  waiting : List (Verification calendar)
  refreshing : Option (Verification calendar)
  refreshed : List (Verification calendar)
  rejected : List (Presented calendar × VerifierError)
  accepted : List (Accepted calendar)
  history : List (Event (List JsonWebKey))

/-- `EntraJwtVerifier::new`. -/
def Verifier.new (calendar : Calendar) (clock : ℕ) : Verifier calendar :=
  ⟨clock, .empty, [], none, [], [], [], []⟩

section Verifications

variable {calendar : Calendar} (config : VerifierConfig) (jwt : Jwt)

/-- A verification ends with an error. -/
def Verifier.reject (verifier : Verifier calendar) (presented : Presented calendar)
    (error : VerifierError) : Verifier calendar :=
  { verifier with rejected := (presented, error) :: verifier.rejected }

/-- A verification goes on with the key that it has found. -/
def finish (verifier : Verifier calendar) (verification : Verification calendar)
    (keys : List JsonWebKey) (jwk : JsonWebKey) : Verifier calendar :=
  match checkWithKey config jwt verification jwk with
  | none => verifier
  | some (.error error) => verifier.reject verification.presented error
  | some (.ok identity) => { verifier with
      accepted := ⟨verification, jwk, verifier.clock, identity⟩ :: verifier.accepted
      history := .used keys verifier.clock :: verifier.history }

/-- `cached_key`, with the keys that it is found among. -/
def Verifier.cachedKey (verifier : Verifier calendar) (kid : Text) :
    Option (List JsonWebKey × JsonWebKey) :=
  (verifier.cache.get verifier.clock).bind fun keys ↦ (keyOf keys kid).map (keys, ·)

/-- `verify_token_for_endpoint` up to the first lookup. -/
def beginVerification (verifier : Verifier calendar) (presented : Presented calendar) :
    Verifier calendar :=
  match readHeader config jwt presented with
  | .error error => verifier.reject presented error
  | .ok verification =>
    match verifier.cachedKey verification.kid with
    | some (keys, jwk) => finish config jwt verifier verification keys jwk
    | none => { verifier with waiting := verification :: verifier.waiting }

/-- `refresh_keys` up to the first request: the lock is free. -/
def acquireRefresh (verifier : Verifier calendar) (index : ℕ) : Verifier calendar :=
  match verifier.refreshing, verifier.waiting[index]? with
  | none, some verification =>
    if verifier.cache.cooling jwksRefreshCooldown verifier.clock then { verifier with
      waiting := verifier.waiting.eraseIdx index
      refreshed := verification :: verifier.refreshed }
    else { verifier with
      waiting := verifier.waiting.eraseIdx index
      refreshing := some verification
      cache := verifier.cache.attempt verifier.clock
      history := .attempted verifier.clock :: verifier.history }
  | _, _ => verifier

/-- `refresh_keys` with the answer of the issuer. -/
def finishRefresh (verifier : Verifier calendar) (answer : FetchAnswer) : Verifier calendar :=
  match verifier.refreshing with
  | none => verifier
  | some verification =>
    match answer with
    | .failed => { verifier with refreshing := none }.reject verification.presented
        (.rejected .invalidEntraToken)
    | .document issuer keys =>
      if issuer ≠ config.claims.issuer then
        { verifier with refreshing := none }.reject verification.presented
          (.rejected .invalidEntraIssuer)
      else { verifier with
        refreshing := none
        refreshed := verification :: verifier.refreshed
        cache := verifier.cache.store keys (verifier.clock + config.ttl)
        history := .stored keys verifier.clock :: verifier.history }

/-- `verify_token_for_endpoint` from the second lookup on. -/
def lookAgain (verifier : Verifier calendar) (index : ℕ) : Verifier calendar :=
  match verifier.refreshed[index]? with
  | none => verifier
  | some verification =>
    let rest := { verifier with refreshed := verifier.refreshed.eraseIdx index }
    match rest.cachedKey verification.kid with
    | some (keys, jwk) => finish config jwt rest verification keys jwk
    | none => rest.reject verification.presented (.rejected .invalidEntraToken)

/-- The steps of a verifier. `drop` takes a request away, with the lock if it has it. -/
inductive Action (calendar : Calendar)
  | elapse (duration : ℕ)
  | present (presented : Presented calendar)
  | acquire (index : ℕ)
  | fetched (answer : FetchAnswer)
  | lookAgain (index : ℕ)
  | dropWaiting (index : ℕ)
  | dropRefreshing
  | dropRefreshed (index : ℕ)

def step (verifier : Verifier calendar) : Action calendar → Verifier calendar
  | .elapse duration => { verifier with clock := verifier.clock + duration }
  | .present presented => beginVerification config jwt verifier presented
  | .acquire index => acquireRefresh verifier index
  | .fetched answer => finishRefresh config verifier answer
  | .lookAgain index => lookAgain config jwt verifier index
  | .dropWaiting index => { verifier with waiting := verifier.waiting.eraseIdx index }
  | .dropRefreshing => { verifier with refreshing := none }
  | .dropRefreshed index => { verifier with refreshed := verifier.refreshed.eraseIdx index }

end Verifications

/-! ### What an accepted token rests on -/

/-- A token was verified with a key: the header names it and an accepted algorithm that suits it,
and the claims under its signature are valid. -/
structure Verified {calendar : Calendar} (config : VerifierConfig) (jwt : Jwt)
    (presented : Presented calendar) (jwk : JsonWebKey)
    (identity : EntraIdentityContext) : Prop where
  rsa : jwk.kty = "RSA".toList
  signed : ∃ header claims, jwt.decodeHeader presented.token = some header ∧ header.kid = jwk.kid ∧
    headerAlgorithmName header.alg ∈ config.acceptedAlgorithms ∧
    (∀ alg, jwk.alg = some alg → alg = headerAlgorithmName header.alg) ∧
    jwt.decode presented.token jwk header.alg = some claims ∧
    validateClaimsForEndpoint config.claims claims presented.now presented.endpoint =
      some (.ok identity)

/-- An accepted token was verified with a key of the document that a lookup has found. -/
structure Accepted.Justified {calendar : Calendar} (config : VerifierConfig) (jwt : Jwt)
    (history : List (Event (List JsonWebKey))) (accepted : Accepted calendar) : Prop where
  verified : Verified config jwt accepted.verification.presented accepted.jwk accepted.identity
  found : ∃ newer keys older, history = newer ++ .used keys accepted.time :: older ∧
    accepted.jwk ∈ keys

section Verified

variable {calendar : Calendar} {config : VerifierConfig} {jwt : Jwt}

theorem algorithmToJsonwebtoken_name {algorithm found : Algorithm}
    (hfound : algorithmToJsonwebtoken (headerAlgorithmName algorithm) = some found) :
    found = algorithm := by
  revert hfound
  cases algorithm <;> cases found <;> decide

theorem readHeader_ok {presented : Presented calendar} {verification : Verification calendar}
    (hread : readHeader config jwt presented = .ok verification) :
    verification.presented = presented ∧
      ∃ header, jwt.decodeHeader presented.token = some header ∧
        header.kid = some verification.kid ∧ header.alg = verification.algorithm ∧
        headerAlgorithmName header.alg ∈ config.acceptedAlgorithms := by
  unfold readHeader at hread
  split_ifs at hread
  cases hheader : jwt.decodeHeader presented.token with
  | none =>
    rw [hheader] at hread
    cases hread
  | some header =>
    rw [hheader] at hread
    simp only at hread
    cases hkid : header.kid with
    | none =>
      rw [hkid] at hread
      cases hread
    | some kid =>
      rw [hkid] at hread
      simp only at hread
      split_ifs at hread with haccepted
      cases halgorithm : algorithmToJsonwebtoken (headerAlgorithmName header.alg) with
      | none =>
        rw [halgorithm] at hread
        cases hread
      | some algorithm =>
        rw [halgorithm] at hread
        obtain rfl := Except.ok.inj hread
        refine ⟨rfl, header, rfl, hkid, (algorithmToJsonwebtoken_name halgorithm).symm, ?_⟩
        simpa using haccepted

theorem checkWithKey_ok {verification : Verification calendar} {jwk : JsonWebKey}
    {identity : EntraIdentityContext}
    (hchecked : checkWithKey config jwt verification jwk = some (.ok identity)) :
    jwk.kty = "RSA".toList ∧
      (∀ alg, jwk.alg = some alg → alg = headerAlgorithmName verification.algorithm) ∧
      ∃ claims, jwt.decode verification.presented.token jwk verification.algorithm = some claims ∧
        validateClaimsForEndpoint config.claims claims verification.presented.now
          verification.presented.endpoint = some (.ok identity) := by
  unfold checkWithKey at hchecked
  split_ifs at hchecked with hkty halg hcomponents
  · cases Option.some.inj hchecked
  · cases Option.some.inj hchecked
  · cases Option.some.inj hchecked
  · refine ⟨not_not.mp hkty, fun alg hsome ↦ ?_, ?_⟩
    · by_contra hne
      rw [hsome] at halg
      exact halg (decide_eq_true hne)
    · cases hdecoded : jwt.decode verification.presented.token jwk verification.algorithm with
      | none =>
        rw [hdecoded] at hchecked
        cases Option.some.inj hchecked
      | some claims =>
        rw [hdecoded] at hchecked
        obtain ⟨checked, hvalid, hmapped⟩ := Option.map_eq_some_iff.mp hchecked
        cases checked with
        | error failure => cases hmapped
        | ok found =>
          obtain rfl := Except.ok.inj hmapped
          exact ⟨claims, rfl, hvalid⟩

theorem keyOf_some {keys : List JsonWebKey} {kid : Text} {jwk : JsonWebKey}
    (hkey : keyOf keys kid = some jwk) : jwk ∈ keys ∧ jwk.kid = some kid := by
  have hsame := List.find?_some hkey
  exact ⟨List.mem_of_find?_eq_some hkey, of_decide_eq_true hsame⟩

/-- The header, the lookup and the check together. -/
theorem verified_of_checked {verification : Verification calendar} {keys : List JsonWebKey}
    {jwk : JsonWebKey} {identity : EntraIdentityContext}
    (hread : readHeader config jwt verification.presented = .ok verification)
    (hkey : keyOf keys verification.kid = some jwk)
    (hchecked : checkWithKey config jwt verification jwk = some (.ok identity)) :
    Verified config jwt verification.presented jwk identity := by
  obtain ⟨-, header, hheader, hkid, halgorithm, haccepted⟩ := readHeader_ok hread
  obtain ⟨hkty, halg, claims, hdecoded, hvalid⟩ := checkWithKey_ok hchecked
  rw [← halgorithm] at halg hdecoded
  exact ⟨hkty, header, claims, hheader, hkid.trans (keyOf_some hkey).2.symm, haccepted, halg,
    hdecoded, hvalid⟩

end Verified

/-! ### What is kept -/

/-- The cache has its history, verifications have their headers, and what was accepted is justified.
-/
structure Current {calendar : Calendar} (config : VerifierConfig) (jwt : Jwt)
    (verifier : Verifier calendar) : Prop where
  tracks : Tracks config.ttl verifier.cache verifier.history verifier.clock
  proper : Proper jwksRefreshCooldown config.ttl verifier.history
  waiting : ∀ verification ∈ verifier.waiting,
    readHeader config jwt verification.presented = .ok verification
  refreshing : ∀ verification, verifier.refreshing = some verification →
    readHeader config jwt verification.presented = .ok verification
  refreshed : ∀ verification ∈ verifier.refreshed,
    readHeader config jwt verification.presented = .ok verification
  accepted : ∀ accepted ∈ verifier.accepted, accepted.Justified config jwt verifier.history

theorem Accepted.Justified.later {calendar : Calendar} {config : VerifierConfig} {jwt : Jwt}
    {history : List (Event (List JsonWebKey))} {accepted : Accepted calendar}
    (hjustified : accepted.Justified config jwt history) (event : Event (List JsonWebKey)) :
    accepted.Justified config jwt (event :: history) := by
  obtain ⟨newer, keys, older, hhistory, hmem⟩ := hjustified.found
  refine ⟨hjustified.verified, event :: newer, keys, older, ?_, hmem⟩
  rw [hhistory, List.cons_append]

section Steps

variable {calendar : Calendar} {config : VerifierConfig} {jwt : Jwt} {verifier : Verifier calendar}

theorem current_new (calendar : Calendar) (config : VerifierConfig) (jwt : Jwt) (clock : ℕ) :
    Current config jwt (Verifier.new calendar clock) where
  tracks := tracks_empty config.ttl clock
  proper := trivial
  waiting verification hmem := by cases hmem
  refreshing verification hsome := by cases hsome
  refreshed verification hmem := by cases hmem
  accepted accepted hmem := by cases hmem

theorem Current.reject (hcurrent : Current config jwt verifier) (presented : Presented calendar)
    (error : VerifierError) : Current config jwt (verifier.reject presented error) :=
  { hcurrent with }

theorem cachedKey_some {kid : Text} {keys : List JsonWebKey} {jwk : JsonWebKey}
    (hcached : verifier.cachedKey kid = some (keys, jwk)) :
    verifier.cache.get verifier.clock = some keys ∧ keyOf keys kid = some jwk := by
  obtain ⟨found, hget, hpair⟩ := Option.bind_eq_some_iff.mp hcached
  obtain ⟨key, hkey, hsame⟩ := Option.map_eq_some_iff.mp hpair
  obtain ⟨rfl, rfl⟩ := Prod.mk.inj hsame
  exact ⟨hget, hkey⟩

theorem Current.finish (hcurrent : Current config jwt verifier)
    {verification : Verification calendar}
    (hread : readHeader config jwt verification.presented = .ok verification)
    {keys : List JsonWebKey} {jwk : JsonWebKey}
    (hcached : verifier.cachedKey verification.kid = some (keys, jwk)) :
    Current config jwt (finish config jwt verifier verification keys jwk) := by
  obtain ⟨hget, hkey⟩ := cachedKey_some hcached
  unfold Entra.finish
  split
  case h_1 => exact hcurrent
  case h_2 => exact hcurrent.reject _ _
  case h_3 identity hchecked =>
    obtain ⟨htracks, hproper⟩ := hcurrent.tracks.used hcurrent.proper hget
    refine { hcurrent with
      tracks := htracks, proper := hproper, accepted := List.forall_mem_cons.mpr ⟨?_, ?_⟩ }
    · exact ⟨verified_of_checked hread hkey hchecked, [], keys, verifier.history, rfl,
        (keyOf_some hkey).1⟩
    · exact fun accepted hmem ↦ (hcurrent.accepted accepted hmem).later _

theorem Current.begin (hcurrent : Current config jwt verifier) (presented : Presented calendar) :
    Current config jwt (beginVerification config jwt verifier presented) := by
  unfold beginVerification
  cases hread : readHeader config jwt presented with
  | error error => exact hcurrent.reject presented error
  | ok verification =>
    have hsame : readHeader config jwt verification.presented = .ok verification := by
      rw [(readHeader_ok hread).1]
      exact hread
    simp only
    split
    case h_1 keys jwk hcached => exact hcurrent.finish hsame hcached
    case h_2 =>
      exact { hcurrent with waiting := List.forall_mem_cons.mpr ⟨hsame, hcurrent.waiting⟩ }

theorem Current.acquire (hcurrent : Current config jwt verifier) (index : ℕ) :
    Current config jwt (acquireRefresh verifier index) := by
  unfold acquireRefresh
  split
  case h_1 verification hfree hwaiting =>
    have hread := hcurrent.waiting verification (List.mem_of_getElem? hwaiting)
    have hrest : ∀ other ∈ verifier.waiting.eraseIdx index,
        readHeader config jwt other.presented = .ok other :=
      fun other hother ↦ hcurrent.waiting other (List.mem_of_mem_eraseIdx hother)
    split_ifs with hcooling
    · exact { hcurrent with
        waiting := hrest, refreshed := List.forall_mem_cons.mpr ⟨hread, hcurrent.refreshed⟩ }
    · obtain ⟨htracks, hproper⟩ :=
        hcurrent.tracks.attempted hcurrent.proper (Bool.eq_false_iff.mpr hcooling)
      refine { hcurrent with
        tracks := htracks, proper := hproper, waiting := hrest, refreshing := ?_, accepted := ?_ }
      · intro other hsome
        obtain rfl := Option.some.inj hsome
        exact hread
      · exact fun accepted hmem ↦ (hcurrent.accepted accepted hmem).later _
  case h_2 => exact hcurrent

theorem Current.fetched (hcurrent : Current config jwt verifier) (answer : FetchAnswer) :
    Current config jwt (finishRefresh config verifier answer) := by
  unfold finishRefresh
  cases hrefreshing : verifier.refreshing with
  | none => exact hcurrent
  | some verification =>
    have hfreed : Current config jwt { verifier with refreshing := none } :=
      { hcurrent with refreshing := fun other hsome ↦ by cases hsome }
    cases answer with
    | failed => exact hfreed.reject _ _
    | document issuer keys =>
      simp only
      split_ifs with hissuer
      · exact hfreed.reject _ _
      · have hread := hcurrent.refreshing verification hrefreshing
        refine { hfreed with
          tracks := hcurrent.tracks.stored keys, proper := hcurrent.proper
          refreshed := List.forall_mem_cons.mpr ⟨hread, hcurrent.refreshed⟩, accepted := ?_ }
        exact fun accepted hmem ↦ (hcurrent.accepted accepted hmem).later _

theorem Current.lookAgain (hcurrent : Current config jwt verifier) (index : ℕ) :
    Current config jwt (lookAgain config jwt verifier index) := by
  unfold Entra.lookAgain
  cases hrefreshed : verifier.refreshed[index]? with
  | none => exact hcurrent
  | some verification =>
    have hrest : Current config jwt
        { verifier with refreshed := verifier.refreshed.eraseIdx index } :=
      { hcurrent with
        refreshed := fun other hother ↦ hcurrent.refreshed other (List.mem_of_mem_eraseIdx hother) }
    have hread := hcurrent.refreshed verification (List.mem_of_getElem? hrefreshed)
    simp only
    split
    case h_1 keys jwk hcached => exact hrest.finish hread hcached
    case h_2 => exact hrest.reject _ _

theorem Current.step (hcurrent : Current config jwt verifier) (action : Action calendar) :
    Current config jwt (step config jwt verifier action) := by
  cases action with
  | elapse duration =>
    exact { hcurrent with tracks := hcurrent.tracks.later (Nat.le_add_right _ _) }
  | present presented => exact hcurrent.begin presented
  | acquire index => exact hcurrent.acquire index
  | fetched answer => exact hcurrent.fetched answer
  | lookAgain index => exact hcurrent.lookAgain index
  | dropWaiting index =>
    exact { hcurrent with
      waiting := fun other hother ↦ hcurrent.waiting other (List.mem_of_mem_eraseIdx hother) }
  | dropRefreshing => exact { hcurrent with refreshing := fun other hsome ↦ by cases hsome }
  | dropRefreshed index =>
    exact { hcurrent with
      refreshed := fun other hother ↦ hcurrent.refreshed other (List.mem_of_mem_eraseIdx hother) }

theorem stored_of_finish {keys found : List JsonWebKey} {time : ℕ}
    {verification : Verification calendar} {jwk : JsonWebKey}
    (hstored : .stored keys time ∈ (finish config jwt verifier verification found jwk).history) :
    .stored keys time ∈ verifier.history := by
  unfold Entra.finish at hstored
  split at hstored
  · exact hstored
  · exact hstored
  · rcases List.mem_cons.mp hstored with hnow | hbefore
    · cases hnow
    · exact hbefore

/-- A step that stores keys is the answer of the configured issuer. -/
theorem stored_of_step {keys : List JsonWebKey} {time : ℕ} {action : Action calendar}
    (hstored : .stored keys time ∈ (step config jwt verifier action).history) :
    .stored keys time ∈ verifier.history ∨
      action = .fetched (.document config.claims.issuer keys) := by
  cases action with
  | elapse duration => exact .inl hstored
  | present presented =>
    left
    replace hstored : .stored keys time ∈
      (beginVerification config jwt verifier presented).history := hstored
    unfold beginVerification at hstored
    split at hstored
    · exact hstored
    · split at hstored
      · exact stored_of_finish hstored
      · exact hstored
  | acquire index =>
    left
    replace hstored : .stored keys time ∈ (acquireRefresh verifier index).history := hstored
    unfold acquireRefresh at hstored
    split at hstored
    · split_ifs at hstored
      · exact hstored
      · rcases List.mem_cons.mp hstored with hnow | hbefore
        · cases hnow
        · exact hbefore
    · exact hstored
  | fetched answer =>
    replace hstored : .stored keys time ∈ (finishRefresh config verifier answer).history := hstored
    unfold finishRefresh at hstored
    split at hstored
    · exact .inl hstored
    · split at hstored
      · exact .inl hstored
      · split_ifs at hstored with hissuer
        · exact .inl hstored
        · rcases List.mem_cons.mp hstored with hnow | hbefore
          · cases hnow
            rw [not_not.mp hissuer]
            exact .inr rfl
          · exact .inl hbefore
  | lookAgain index =>
    left
    replace hstored : .stored keys time ∈ (Entra.lookAgain config jwt verifier index).history :=
      hstored
    unfold Entra.lookAgain at hstored
    split at hstored
    · exact hstored
    · simp only at hstored
      split at hstored
      · have hbefore := stored_of_finish hstored
        exact hbefore
      · exact hstored
  | dropWaiting index => exact .inl hstored
  | dropRefreshing => exact .inl hstored
  | dropRefreshed index => exact .inl hstored

theorem stored_of_run {keys : List JsonWebKey} {time : ℕ} (actions : List (Action calendar))
    (hstored : .stored keys time ∈ (run (step config jwt) verifier actions).history) :
    .stored keys time ∈ verifier.history ∨
      .fetched (.document config.claims.issuer keys) ∈ actions := by
  induction actions generalizing verifier with
  | nil => exact .inl hstored
  | cons action rest ih =>
    rcases ih hstored with hstep | hlater
    · refine (stored_of_step hstep).imp id fun hnow ↦ ?_
      rw [hnow]
      exact List.mem_cons_self
    · exact .inr (List.mem_cons_of_mem _ hlater)

end Steps

/-! ### Every run -/

theorem current_run {calendar : Calendar} (config : VerifierConfig) (jwt : Jwt) (clock : ℕ)
    (actions : List (Action calendar)) :
    Current config jwt (run (step config jwt) (Verifier.new calendar clock) actions) := by
  have hstep (verifier : Verifier calendar) (action : Action calendar)
      (hcurrent : Current config jwt verifier) :
      Current config jwt (step config jwt verifier action) := hcurrent.step action
  exact run_invariant hstep actions _ (current_new calendar config jwt clock)

/-- In every run of a verifier: any window of time holds at most one request for keys and one more
for each time that the cooldown fits, whatever tokens are presented; and an accepted token was
verified with a key of the document that had been fetched last when the key was looked up, less than
the time that keys are kept before, and that came from the configured issuer. -/
theorem accepted_with_current_key {calendar : Calendar} (config : VerifierConfig) (jwt : Jwt)
    (clock : ℕ) (actions : List (Action calendar)) :
    (∀ start width,
      ((attempts (run (step config jwt) (Verifier.new calendar clock) actions).history).filter
        fun time ↦ start ≤ time && time < start + width).length * jwksRefreshCooldown ≤
          width + jwksRefreshCooldown) ∧
      ∀ accepted ∈ (run (step config jwt) (Verifier.new calendar clock) actions).accepted,
        Verified config jwt accepted.verification.presented accepted.jwk accepted.identity ∧
          ∃ newer keys fetchedAt older,
            (run (step config jwt) (Verifier.new calendar clock) actions).history =
              newer ++ .used keys accepted.time :: older ∧
            latest older = some (keys, fetchedAt) ∧ accepted.time < fetchedAt + config.ttl ∧
            accepted.jwk ∈ keys ∧ .fetched (.document config.claims.issuer keys) ∈ actions := by
  have hcurrent := current_run config jwt clock actions
  refine ⟨hcurrent.proper.attempts_within, fun accepted haccepted ↦ ?_⟩
  obtain ⟨hverified, newer, keys, older, hhistory, hmem⟩ := hcurrent.accepted accepted haccepted
  have hproper := hcurrent.proper
  rw [hhistory] at hproper
  obtain ⟨fetchedAt, hlatest, hfresh⟩ := hproper.used
  have hstored : .stored keys fetchedAt ∈
      (run (step config jwt) (Verifier.new calendar clock) actions).history := by
    rw [hhistory]
    exact List.mem_append_right _ (List.mem_cons_of_mem _ (mem_of_latest hlatest))
  refine ⟨hverified, newer, keys, fetchedAt, older, hhistory, hlatest, hfresh, hmem, ?_⟩
  rcases stored_of_run actions hstored with hbefore | hfetched
  · cases hbefore
  · exact hfetched

end Relayna.Auth.Entra

import Relayna.Library.Staged
import Relayna.Proxy.RequestFilter

/-!
# Who pays for a request that is let through

The request filter lets a request through at four places. `forwarded_authorized` names what has been
checked at each of them, for every request, every configuration and every way in which the
configuration changes while the filter reads it: a virtual key was presented and authenticated and
the identity that the endpoint asks for was verified; or the caller brought the LiteLLM credential
that the upstream will see; or the path is one that the settings open on trusted ingress. In
particular a LiteLLM credential of the gateway is never used for a caller without an authenticated
key, except on trusted ingress, and never for a socket.
-/

set_option autoImplicit false
set_option relaxedAutoImplicit false

namespace Relayna.Proxy.RequestFilter

open Relayna.Auth (AuthenticatedKey)
open Relayna.Auth.Entra (EntraIdentityContext Text)
open Relayna.Library.Staged
open Relayna.Library.Utf8 (encode)
open Relayna.Passthrough.PathPolicy
open Relayna.Policy (Route)
open Relayna.Proxy.Credentials
open Relayna.Services (RouteMatch resolveMatch)

/-! ### Inversion of the stages -/

/-- The filter is not left with the request let through. -/
def NotForwarded (exit : Exit) : Prop :=
  ∀ ctx, exit ≠ .forwarded ctx

/-- A stage that never lets the request through. -/
abbrev Quiet {Value : Type} (stage : Stage Value) : Prop :=
  EndsOnly NotForwarded stage

theorem orRespond_eq_ok {Value : Type} {result : GatewayResult Value} {value : Value} :
    orRespond result = .ok value ↔ result = .ok value := by
  cases result <;> simp [orRespond]

theorem quiet_orRespond {Value : Type} (result : GatewayResult Value) :
    Quiet (orRespond result) := by
  intro exit hexit ctx
  cases result with
  | ok value => cases hexit
  | error error =>
    obtain rfl := Except.error.inj hexit
    simp

theorem require_eq_ok {check : Bool} {error : GatewayError} {done : Unit} :
    require check error = .ok done ↔ check = true := by
  cases check <;> simp [require]

theorem quiet_require (check : Bool) (error : GatewayError) : Quiet (require check error) := by
  intro exit hexit ctx
  cases check with
  | true => cases hexit
  | false =>
    obtain rfl := Except.error.inj hexit
    simp

theorem quiet_responded {Value : Type} (error : GatewayError) :
    Quiet (.error (.responded error) : Stage Value) :=
  endsOnly_error fun ctx ↦ by simp

theorem quiet_pure {Value : Type} (value : Value) : Quiet (pure value : Stage Value) :=
  endsOnly_ok value

section Filter

variable {replies : Replies} {req : Request}

theorem quiet_applyServiceRegistrationRuntimeLimits (matched : RouteMatch)
    (registration : ServiceRegistration) :
    Quiet (applyServiceRegistrationRuntimeLimits matched registration) :=
  .ite (fun _ ↦ endsOnly_ok _) fun _ ↦ endsOnly_error fun ctx ↦ by simp

theorem quiet_matchService (registration : ServiceRegistration) (ctx : PingoraContext) :
    Quiet (matchService replies req registration ctx) :=
  (quiet_orRespond _).bind fun _ ↦
    (quiet_applyServiceRegistrationRuntimeLimits _ _).bind fun _ ↦ quiet_pure _

theorem quiet_matchRoute (ctx : PingoraContext) : Quiet (matchRoute replies req ctx) := by
  unfold matchRoute
  simp only
  split
  · exact endsOnly_ok _
  · exact (quiet_orRespond _).bind fun _ ↦ (quiet_require _ _).bind fun _ ↦
      .ite (fun _ ↦ quiet_pure _) fun _ ↦ quiet_responded _

theorem quiet_chooseRoute (registration : Option ServiceRegistration) (ctx : PingoraContext) :
    Quiet (chooseRoute replies req registration ctx) := by
  cases registration with
  | none => exact quiet_matchRoute ctx
  | some registration => exact quiet_matchService registration ctx

theorem quiet_aliasAccess (access : EndpointAccess) (serviceName : Option Pricing.Text) :
    Quiet (aliasAccess replies access serviceName) := by
  cases serviceName with
  | none => exact endsOnly_ok _
  | some name =>
    exact (quiet_orRespond _).bind fun _ ↦ (quiet_require _ _).bind fun _ ↦ quiet_pure _

theorem quiet_routeAccess (matched : RouteMatch) (ctx : PingoraContext) :
    Quiet (routeAccess replies matched ctx) :=
  .ite (fun _ ↦ endsOnly_ok _) fun _ ↦ (quiet_orRespond _).bind fun _ ↦
    (quiet_aliasAccess _ _).bind fun _ ↦ quiet_pure _

theorem quiet_checkRoutingMode (mode : OpenAiRouteMode) :
    Quiet (checkRoutingMode replies req mode) := by
  cases mode with
  | managedByGateway => exact endsOnly_ok _
  | directLiteLlmPassthrough => exact (quiet_orRespond _).bind fun _ ↦ quiet_require _ _

theorem quiet_routeLimits (matched : RouteMatch) : Quiet (routeLimits replies req matched) :=
  .ite (fun _ ↦ (quiet_orRespond _).bind fun _ ↦ (quiet_checkRoutingMode _).bind fun _ ↦
      (quiet_orRespond _).bind fun _ ↦ quiet_orRespond _) fun _ ↦
    .ite (fun _ ↦ (quiet_orRespond _).bind fun _ ↦ quiet_orRespond _) fun _ ↦ endsOnly_ok _

theorem quiet_admitUpgrade (matched : RouteMatch) (ctx : PingoraContext) :
    Quiet (admitUpgrade replies req matched ctx) :=
  .ite (fun _ ↦ .ite (fun _ ↦ quiet_responded _) fun _ ↦ endsOnly_ok _) fun _ ↦ endsOnly_ok _

theorem quiet_route (ctx : PingoraContext) : Quiet (route replies req ctx) :=
  (quiet_orRespond _).bind fun _ ↦ (quiet_chooseRoute _ _).bind fun _ ↦
    (quiet_routeAccess _ _).bind fun _ ↦ (quiet_routeLimits _).bind fun _ ↦
      (quiet_admitUpgrade _ _).bind fun _ ↦ quiet_pure _

/-! ### What routing establishes -/

/-- Nothing about credentials is known yet. -/
structure Fresh (ctx : PingoraContext) : Prop where
  key : ctx.key = none
  direct : ctx.directLitellmPassthrough = false
  trusted : ctx.trustedIngressPassthrough = false

/-- Two matches differ in limits and costs only. -/
structure SameRoute (matched matched' : RouteMatch) : Prop where
  route : matched'.route = matched.route
  provider : matched'.provider = matched.provider
  serviceName : matched'.serviceName = matched.serviceName

theorem SameRoute.refl (matched : RouteMatch) : SameRoute matched matched :=
  ⟨rfl, rfl, rfl⟩

theorem SameRoute.trans {first second third : RouteMatch} (hfirst : SameRoute first second)
    (hsecond : SameRoute second third) : SameRoute first third :=
  ⟨hsecond.route.trans hfirst.route, hsecond.provider.trans hfirst.provider,
    hsecond.serviceName.trans hfirst.serviceName⟩

theorem sameRoute_applyLitellmLimits {matched matched' : RouteMatch} {limits : LiteLlmRouteLimits}
    (happlied : applyLitellmLimitsToMatch matched limits = .ok matched') :
    SameRoute matched matched' := by
  unfold applyLitellmLimitsToMatch at happlied
  split_ifs at happlied
  obtain rfl := Except.ok.inj happlied
  exact ⟨rfl, rfl, rfl⟩

theorem sameRoute_applyServiceLimits {matched matched' : RouteMatch}
    {registration : ServiceRegistration}
    (happlied : applyServiceRegistrationRuntimeLimits matched registration = .ok matched') :
    SameRoute matched matched' := by
  unfold applyServiceRegistrationRuntimeLimits at happlied
  split_ifs at happlied
  obtain rfl := Except.ok.inj happlied
  exact ⟨rfl, rfl, rfl⟩

/-- The path of a passthrough route was admitted by the settings. -/
def PathAdmitted (replies : Replies) (req : Request) : Prop :=
  ∃ settings, replies.routingSettings = .ok settings ∧ Admitted settings (methodText req) req.path

/-- A match of the router: it does not lead to passthrough, and a service is not LiteLLM. -/
structure Resolved (matched : RouteMatch) : Prop where
  route : matched.route ≠ .liteLlmPassthrough
  service : matched.serviceName.isSome = true → matched.provider ≠ .liteLlm

theorem SameRoute.resolved {matched matched' : RouteMatch} (hsame : SameRoute matched matched')
    (hresolved : Resolved matched) : Resolved matched' := by
  constructor
  · rw [hsame.route]
    exact hresolved.route
  · rw [hsame.serviceName, hsame.provider]
    exact hresolved.service

theorem resolved_service {route : Route} (hroute : route ≠ .liteLlmPassthrough)
    (name : Pricing.Text) : Resolved (.service route name) :=
  ⟨hroute, fun _ ↦ Policy.Provider.noConfusion⟩

theorem resolveMatch_resolved {method : Pricing.Method} {path : Pricing.Text} {matched : RouteMatch}
    (hmatched : resolveMatch method path = .ok matched) : Resolved matched := by
  unfold resolveMatch at hmatched
  split at hmatched
  case h_1 arm harm =>
    obtain rfl := Except.ok.inj hmatched
    have hmem := List.mem_of_find?_eq_some harm
    have hall : ∀ arm ∈ Services.fixedArms method path, arm.2.route ≠ .liteLlmPassthrough ∧
        (arm.2.serviceName.isSome = true → arm.2.provider ≠ .liteLlm) := by
      simp [Services.fixedArms, RouteMatch.litellm, RouteMatch.service]
    exact ⟨(hall arm hmem).1, (hall arm hmem).2⟩
  case h_2 =>
    split_ifs at hmatched
    · obtain rfl := Except.ok.inj hmatched
      exact resolved_service Route.noConfusion _
    · obtain rfl := Except.ok.inj hmatched
      exact ⟨Route.noConfusion, fun _ ↦ Policy.Provider.noConfusion⟩

/-- What routing establishes: passthrough is entered only for a path that the settings admit, and a
canonical route in direct mode is not denied. -/
structure Routed (replies : Replies) (req : Request) (matched : RouteMatch) (ctx : PingoraContext) :
    Prop where
  fresh : Fresh ctx
  passthrough : ctx.litellmPassthrough = true ↔ matched.route = .liteLlmPassthrough
  admitted : ctx.litellmPassthrough = true → PathAdmitted replies req
  service : matched.serviceName.isSome = true → Resolved matched
  notDenied : isLitellmCanonicalRoute matched.route = true →
    replies.routingMode = .ok .directLiteLlmPassthrough →
    ∃ settings, replies.directSettings = .ok settings ∧ settings.deniesPath req.path = false
  handshake : ctx.socket = true → validHandshake replies.decodeBase64 req = true

theorem serviceRouteMatch_resolved (method : Pricing.Method) (path name : Pricing.Text) :
    Resolved (serviceRouteMatchForPersistedRegistration method path name) := by
  unfold serviceRouteMatchForPersistedRegistration
  split_ifs
  · exact resolved_service Route.noConfusion name
  · cases hmatched : resolveMatch method path with
    | error error => exact resolved_service Route.noConfusion name
    | ok matched =>
      simp only
      split_ifs
      · exact resolved_service (resolveMatch_resolved hmatched).route name
      · exact resolved_service Route.noConfusion name

/-- The part of the context that the choice of the route settles. -/
structure Chosen (replies : Replies) (req : Request) (matched : RouteMatch) (ctx : PingoraContext) :
    Prop where
  fresh : Fresh ctx
  passthrough : ctx.litellmPassthrough = true ↔ matched.route = .liteLlmPassthrough
  admitted : ctx.litellmPassthrough = true → PathAdmitted replies req
  service : matched.serviceName.isSome = true → Resolved matched
  socket : ctx.socket = false

theorem chosen_of_resolved {matched : RouteMatch} {ctx : PingoraContext} (hfresh : Fresh ctx)
    (hresolved : Resolved matched) (hpassthrough : ctx.litellmPassthrough = false)
    (hsocket : ctx.socket = false) : Chosen replies req matched ctx where
  fresh := hfresh
  passthrough := by simp [hpassthrough, hresolved.route]
  admitted := by simp [hpassthrough]
  service _ := hresolved
  socket := hsocket

theorem chosen_matchService {registration : ServiceRegistration} {matched : RouteMatch}
    {ctx : PingoraContext}
    (hmatch : matchService replies req registration .new = .ok (matched, ctx)) :
    Chosen replies req matched ctx := by
  obtain ⟨upstream, -, hmatch⟩ := bind_eq_ok.mp hmatch
  obtain ⟨limited, hlimited, hmatch⟩ := bind_eq_ok.mp hmatch
  obtain ⟨rfl, rfl⟩ := Prod.mk.inj (pure_eq_ok.mp hmatch)
  have hresolved := (sameRoute_applyServiceLimits hlimited).resolved
    (serviceRouteMatch_resolved req.method (pathBytes req) registration.name)
  exact chosen_of_resolved ⟨rfl, rfl, rfl⟩ hresolved rfl rfl

theorem chosen_matchRoute {matched : RouteMatch} {ctx : PingoraContext}
    (hmatch : matchRoute replies req .new = .ok (matched, ctx)) :
    Chosen replies req matched ctx := by
  unfold matchRoute at hmatch
  simp only at hmatch
  split at hmatch
  case h_1 found hfound =>
    obtain ⟨rfl, rfl⟩ := Prod.mk.inj (Except.ok.inj hmatch)
    exact chosen_of_resolved ⟨rfl, rfl, rfl⟩ (resolveMatch_resolved hfound) rfl rfl
  case h_2 =>
    obtain ⟨settings, hsettings, hmatch⟩ := bind_eq_ok.mp hmatch
    obtain ⟨-, -, hmatch⟩ := bind_eq_ok.mp hmatch
    split_ifs at hmatch with hadmitted
    obtain ⟨rfl, rfl⟩ := Prod.mk.inj (pure_eq_ok.mp hmatch)
    refine ⟨⟨rfl, rfl, rfl⟩, ⟨fun _ ↦ rfl, fun _ ↦ rfl⟩, fun _ ↦ ?_, fun h ↦ Bool.noConfusion h,
      rfl⟩
    refine ⟨settings, orRespond_eq_ok.mp hsettings, ?_⟩
    rcases Bool.or_eq_true_iff.mp hadmitted with hallows | hingress
    · exact .inl hallows
    · exact .inr (.inr hingress)

/-- Only the identity requirements change. -/
theorem routeAccess_ok {matched : RouteMatch} {ctx ctx' : PingoraContext}
    (haccess : routeAccess replies matched ctx = .ok ctx') :
    ctx' = { ctx with access := ctx'.access } := by
  unfold routeAccess at haccess
  split_ifs at haccess
  · obtain rfl := Except.ok.inj haccess
    rfl
  · obtain ⟨_, -, haccess⟩ := bind_eq_ok.mp haccess
    obtain ⟨_, -, haccess⟩ := bind_eq_ok.mp haccess
    obtain rfl := pure_eq_ok.mp haccess
    rfl

theorem routeLimits_ok {matched matched' : RouteMatch}
    (hlimits : routeLimits replies req matched = .ok matched') :
    SameRoute matched matched' ∧ (isLitellmCanonicalRoute matched.route = true →
      replies.routingMode = .ok .directLiteLlmPassthrough →
      ∃ settings, replies.directSettings = .ok settings ∧
        settings.deniesPath req.path = false) := by
  unfold routeLimits at hlimits
  split_ifs at hlimits with hcanonical hpassthrough
  · obtain ⟨mode, hmode, hlimits⟩ := bind_eq_ok.mp hlimits
    obtain ⟨_, hchecked, hlimits⟩ := bind_eq_ok.mp hlimits
    obtain ⟨limits, -, hlimits⟩ := bind_eq_ok.mp hlimits
    refine ⟨sameRoute_applyLitellmLimits (orRespond_eq_ok.mp hlimits), fun _ hdirect ↦ ?_⟩
    obtain rfl : mode = .directLiteLlmPassthrough :=
      Except.ok.inj ((orRespond_eq_ok.mp hmode).symm.trans hdirect)
    obtain ⟨settings, hsettings, hdenied⟩ := bind_eq_ok.mp hchecked
    exact ⟨settings, orRespond_eq_ok.mp hsettings, by simpa using require_eq_ok.mp hdenied⟩
  · obtain ⟨limits, -, hlimits⟩ := bind_eq_ok.mp hlimits
    exact ⟨sameRoute_applyLitellmLimits (orRespond_eq_ok.mp hlimits),
      fun hcanonical' ↦ absurd hcanonical' hcanonical⟩
  · obtain rfl := Except.ok.inj hlimits
    exact ⟨.refl _, fun hcanonical' ↦ absurd hcanonical' hcanonical⟩

theorem admitUpgrade_ok {matched : RouteMatch} {ctx ctx' : PingoraContext}
    (hupgrade : admitUpgrade replies req matched ctx = .ok ctx') :
    ctx' = { ctx with socket := ctx'.socket } ∧
      (ctx'.socket = true → ctx.socket = true ∨
        validHandshake replies.decodeBase64 req = true) := by
  unfold admitUpgrade at hupgrade
  simp only at hupgrade
  split_ifs at hupgrade with hrequested hrefused
  · obtain rfl := Except.ok.inj hupgrade
    refine ⟨rfl, fun _ ↦ .inr ?_⟩
    simp only [Bool.or_eq_true, not_or, Bool.not_eq_true, Bool.not_eq_false'] at hrefused
    exact hrefused.1.2
  · obtain rfl := Except.ok.inj hupgrade
    exact ⟨rfl, .inl⟩

theorem route_ok {matched : RouteMatch} {ctx : PingoraContext}
    (hroute : route replies req .new = .ok (matched, ctx)) : Routed replies req matched ctx := by
  obtain ⟨registration, -, hroute⟩ := bind_eq_ok.mp hroute
  obtain ⟨⟨chosen, chosenCtx⟩, hchosen, hroute⟩ := bind_eq_ok.mp hroute
  obtain ⟨accessCtx, haccess, hroute⟩ := bind_eq_ok.mp hroute
  obtain ⟨limited, hlimited, hroute⟩ := bind_eq_ok.mp hroute
  obtain ⟨upgraded, hupgraded, hroute⟩ := bind_eq_ok.mp hroute
  obtain ⟨rfl, rfl⟩ := Prod.mk.inj (pure_eq_ok.mp hroute)
  have hsettled : Chosen replies req chosen chosenCtx := by
    cases registration with
    | none => exact chosen_matchRoute hchosen
    | some registration => exact chosen_matchService hchosen
  have haccess := routeAccess_ok haccess
  obtain ⟨hsame, hdenied⟩ := routeLimits_ok hlimited
  obtain ⟨hupgraded, hhandshake⟩ := admitUpgrade_ok hupgraded
  rw [haccess] at hupgraded hhandshake
  rw [hupgraded]
  have hfresh := hsettled.fresh
  refine ⟨⟨hfresh.key, hfresh.direct, hfresh.trusted⟩, ?_, hsettled.admitted, ?_, ?_, ?_⟩
  · exact hsettled.passthrough.trans (by rw [hsame.route])
  · intro hservice
    have hresolved := hsame.resolved (hsettled.service (hsame.serviceName ▸ hservice))
    exact ⟨hresolved.route, hresolved.service⟩
  · intro hcanonical
    exact hdenied (hsame.route ▸ hcanonical)
  · intro hopen
    refine (hhandshake hopen).resolve_left ?_
    show ¬ chosenCtx.socket = true
    rw [hsettled.socket]
    exact Bool.false_ne_true

/-! ### The credential of the upstream -/

/-- What configuring the upstream leaves alone, and the credential that it installs. -/
structure Configured (replies : Replies) (ctx ctx' : PingoraContext) (key : Option AuthenticatedKey)
    (passthroughCredential : Option Text) : Prop where
  frame : ctx' = { ctx with litellmUpstream := ctx'.litellmUpstream }
  credential : ∃ config mapped, replies.activeLitellmConfig = .ok config ∧
    mappedCredential replies key = .ok mapped ∧
    ∀ credential, passthroughCredential.or mapped = some credential →
      ctx'.litellmUpstream.map PingoraUpstreamConfig.serviceKey = some credential

theorem upstreamWith_ok {config : Option LiteLlmConfig} {selected : Text} {chosen : Bool}
    {ctx ctx' : PingoraContext}
    (hwith : upstreamWith replies config selected chosen ctx = .ok ctx') :
    ctx' = { ctx with litellmUpstream := ctx'.litellmUpstream } ∧
      (chosen = true → ctx'.litellmUpstream.map PingoraUpstreamConfig.serviceKey =
        some selected) := by
  unfold upstreamWith at hwith
  cases config with
  | none =>
    simp only at hwith
    split_ifs at hwith with hchosen
    · obtain rfl := Except.ok.inj hwith
      exact ⟨rfl, fun _ ↦ rfl⟩
    · obtain rfl := Except.ok.inj hwith
      exact ⟨rfl, fun hchosen' ↦ absurd hchosen' hchosen⟩
  | some config =>
    simp only at hwith
    cases hurl : replies.parseBaseUrl config.baseUrl with
    | none =>
      rw [hurl] at hwith
      cases hwith
    | some url =>
      rw [hurl] at hwith
      simp only at hwith
      split_ifs at hwith
      obtain rfl := Except.ok.inj hwith
      exact ⟨rfl, fun _ ↦ rfl⟩

theorem configured_ok {ctx ctx' : PingoraContext} {key : Option AuthenticatedKey}
    {passthroughCredential : Option Text}
    (hconfigured : configureLitellmUpstreamForCredential replies ctx key passthroughCredential =
      .ok ctx') : Configured replies ctx ctx' key passthroughCredential := by
  obtain ⟨config, hconfig, hconfigured⟩ := bind_eq_ok.mp hconfigured
  obtain ⟨mapped, hmapped, hconfigured⟩ := bind_eq_ok.mp hconfigured
  simp only at hconfigured
  split_ifs at hconfigured
  obtain ⟨hframe, hselected⟩ := upstreamWith_ok hconfigured
  refine ⟨hframe, config, mapped, hconfig, hmapped, fun credential hcredential ↦ ?_⟩
  have hchosen : (mapped.isSome || passthroughCredential.isSome) = true := by
    cases passthroughCredential with
    | some _ => simp
    | none => simp [show mapped = some credential from hcredential]
  rw [hselected hchosen, hcredential]
  rfl

/-! ### What each way out has checked -/

/-- The key was presented in the header of keys or as a bearer token, and it was authenticated. -/
def Presented (replies : Replies) (req : Request) (auth : AuthSnapshot) (key : AuthenticatedKey) :
    Prop :=
  authenticateRawKey replies.authenticateVirtualKey (req.headerValue auth.relaynaKeyHeader) =
      .ok key ∨
    authenticateAuthorization replies.authenticateVirtualKey (req.headerValue authorizationHeader) =
      .ok key

/-- The identity that the policy of an endpoint leads to: a verified one where there is a policy. -/
def Verified (replies : Replies) (req : Request) (auth : AuthSnapshot)
    (policy : Option EndpointPolicy) (identity : Option EntraIdentityContext) : Prop :=
  endpointIdentity replies req auth policy = .ok identity

/-- The credentials that were checked, by what the route asks for. -/
inductive Authenticated (replies : Replies) (req : Request) (auth : AuthSnapshot)
    (access : EndpointAccess) (key : AuthenticatedKey) : Option EntraIdentityContext → Prop
  | profile {profiles : AuthenticationProfiles} {profile : AuthenticationProfile}
      {identity : Option EntraIdentityContext}
      (hprofiles : access.authenticationProfiles = some profiles)
      (hpresented : Presented replies req auth key)
      (henabled : profile ∈ profiles.profiles ∧ profile.enabled = true)
      (hbound : ⟨key.keyId, profile.id⟩ ∈ profiles.bindings)
      (honly : ∀ binding ∈ profiles.bindings, binding.keyId = key.keyId →
        binding.profileId = profile.id)
      (hverified : Verified replies req auth profile.entra identity)
      (halone : profile.entra = none → req.assertsApigee = false ∧
        ((req.headerValue auth.relaynaKeyHeader).isNone ∨
          (req.headerValue authorizationHeader).isNone)) :
      Authenticated replies req auth access key identity
  | endpoint {policy : EndpointPolicy} {identity : Option EntraIdentityContext}
      (hprofiles : access.authenticationProfiles = none) (hpolicy : access.entra = some policy)
      (hkey : authenticateRawKey replies.authenticateVirtualKey
        (req.headerValue auth.relaynaKeyHeader) = .ok key)
      (hverified : Verified replies req auth (some policy) identity) :
      Authenticated replies req auth access key identity
  | skipped (hprofiles : access.authenticationProfiles = none) (hpolicy : access.entra = none)
      (hskip : access.skipEntra = true) (hpresented : Presented replies req auth key) :
      Authenticated replies req auth access key none
  | unverified (hprofiles : access.authenticationProfiles = none) (hpolicy : access.entra = none)
      (hskip : access.skipEntra = false) (henabled : auth.unverifiedBearerEnabled = true)
      (hbearer : requireUnverifiedBearer (req.headerValue authorizationHeader) = .ok ())
      (hkey : authenticateRawKey replies.authenticateVirtualKey
        (req.headerValue auth.relaynaKeyHeader) = .ok key) :
      Authenticated replies req auth access key none
  | gateway {identity : EntraIdentityContext}
      (hprofiles : access.authenticationProfiles = none) (hpolicy : access.entra = none)
      (hskip : access.skipEntra = false) (hbearer : auth.unverifiedBearerEnabled = false)
      (henabled : auth.entraEnabled = true)
      (hverified : verifyEntraRequest replies.identity auth req = .ok identity)
      (hkey : authenticateRawKey replies.authenticateVirtualKey
        (req.headerValue auth.relaynaKeyHeader) = .ok key) :
      Authenticated replies req auth access key (some identity)
  | keyOnly (hprofiles : access.authenticationProfiles = none) (hpolicy : access.entra = none)
      (hskip : access.skipEntra = false) (hbearer : auth.unverifiedBearerEnabled = false)
      (hdisabled : auth.entraEnabled = false)
      (hkey : authenticateAuthorization replies.authenticateVirtualKey
        (req.headerValue authorizationHeader) = .ok key) :
      Authenticated replies req auth access key none

/-- The settings leave the payment of a path to the caller. -/
def CallerPays (replies : Replies) (req : Request) (matched : RouteMatch) : Prop :=
  (matched.route = .liteLlmPassthrough ∧ ∃ settings, replies.bearerSettings = .ok settings ∧
      settings.authenticationMode = .litellmBearer ∧
      settings.allows (methodText req) req.path = true ∧
      settings.sensitiveExposureForPath req.path ≠ some .operatorOnly) ∨
    (isLitellmCanonicalRoute matched.route = true ∧
      replies.credentialMode = .ok .directLiteLlmPassthrough ∧ replies.routeEnabled = .ok true ∧
      authorizationHasRelaynaKey (req.headerValue authorizationHeader) = false)

/-- The three ways in which a request gets through. -/
inductive Authorized (replies : Replies) (req : Request) (auth : AuthSnapshot)
    (matched : RouteMatch)
    (ctx : PingoraContext) : Prop
  | byKey (key : AuthenticatedKey) (hkey : ctx.key = some key)
      (hauthenticated : Authenticated replies req auth ctx.access key ctx.entraIdentity)
      (hdirect : ctx.directLitellmPassthrough = false)
      (htrusted : ctx.trustedIngressPassthrough = false)
      (hgoverned : governedBatchLifecycleDenied req = false)
      (hsocket : ctx.socket = true → matched.provider ≠ .liteLlm)
      (hexposure : matched.route = .liteLlmPassthrough → ∃ settings,
        replies.exposureSettings = .ok settings ∧
          settings.sensitiveExposureForPath req.path ≠ some .disabled ∧
          (settings.sensitiveExposureForPath req.path = some .operatorOnly →
            ctx.entraIdentity.isSome = true))
      (hcredential : matched.provider = .liteLlm → ∀ credential,
        replies.credentialMapping key.keyId key.projectId = .ok (some credential) →
          ctx.litellmUpstream.map PingoraUpstreamConfig.serviceKey = some credential)
  | byCaller (credential : Text) (hkey : ctx.key = none)
      (hdirect : ctx.directLitellmPassthrough = true)
      (hpays : CallerPays replies req matched)
      (hprofiles : ctx.access.authenticationProfiles = none) (hpolicy : ctx.access.entra = none)
      (hcredential : litellmBearerCredential (req.headerValue authorizationHeader) = .ok credential)
      (hupstream : ctx.litellmUpstream.map PingoraUpstreamConfig.serviceKey = some credential)
  | byIngress (hkey : ctx.key = none) (htrusted : ctx.trustedIngressPassthrough = true)
      (hroute : matched.route = .liteLlmPassthrough) (hsocket : ctx.socket = false)
      (hprofiles : ctx.access.authenticationProfiles = none)
      (hverified : Verified replies req auth ctx.access.entra ctx.entraIdentity)
      (hopen : ∃ settings, replies.ingressSettings = .ok settings ∧
        settings.trustedIngressPassthroughPathAllowed (methodText req) req.path = true)

/-! ### Inversion of the ways out -/

/-- A stage that lets the request through. -/
def LetsThrough {Value : Type} (stage : Stage Value) (ctx : PingoraContext) : Prop :=
  stage = .error (.forwarded ctx)

theorem Quiet.not_letsThrough {Value : Type} {stage : Stage Value} (hquiet : Quiet stage)
    {ctx : PingoraContext} : ¬ LetsThrough stage ctx :=
  fun hthrough ↦ hquiet _ hthrough ctx rfl

/-- After a quiet stage, it is the rest that lets the request through. -/
theorem LetsThrough.of_bind {Value Result : Type} {stage : Stage Value}
    {rest : Value → Stage Result}
    {ctx : PingoraContext} (hquiet : Quiet stage) (hthrough : LetsThrough (stage >>= rest) ctx) :
    ∃ value, stage = .ok value ∧ LetsThrough (rest value) ctx :=
  (bind_eq_error.mp hthrough).resolve_left hquiet.not_letsThrough

theorem LetsThrough.error_inj {Value : Type} {ctx ctx' : PingoraContext}
    (hthrough : LetsThrough (.error (.forwarded ctx') : Stage Value) ctx) : ctx = ctx' :=
  (Exit.forwarded.inj (Except.error.inj hthrough)).symm

theorem quiet_selectProfile (auth : AuthSnapshot) (ctx : PingoraContext) :
    Quiet (selectProfile replies req auth ctx) := by
  unfold selectProfile
  split
  · exact endsOnly_ok _
  · exact (quiet_orRespond _).bind fun _ ↦ (quiet_orRespond _).bind fun _ ↦
      (quiet_orRespond _).bind fun _ ↦ (quiet_require _ _).bind fun _ ↦ quiet_pure _

theorem quiet_endpointIdentity (auth : AuthSnapshot) (policy : Option EndpointPolicy) :
    Quiet (endpointIdentity replies req auth policy) := by
  cases policy with
  | none => exact endsOnly_ok _
  | some policy => exact quiet_orRespond _

theorem quiet_authenticateKey (auth : AuthSnapshot) (profileKey : Option AuthenticatedKey)
    (ctx : PingoraContext) : Quiet (authenticateKey replies req auth profileKey ctx) := by
  cases profileKey with
  | some key => exact endsOnly_ok _
  | none =>
    exact .ite (fun _ ↦ (quiet_orRespond _).bind fun _ ↦ quiet_pure _) fun _ ↦
      .ite (fun _ ↦ .ite (fun _ ↦ (quiet_orRespond _).bind fun _ ↦ quiet_pure _) fun _ ↦
        (quiet_orRespond _).bind fun _ ↦ quiet_pure _) fun _ ↦
      .ite (fun _ ↦ (quiet_orRespond _).bind fun _ ↦ (quiet_orRespond _).bind fun _ ↦ quiet_pure _)
        fun _ ↦
      .ite (fun _ ↦ (quiet_orRespond _).bind fun _ ↦ (quiet_orRespond _).bind fun _ ↦ quiet_pure _)
        fun _ ↦ (quiet_orRespond _).bind fun _ ↦ quiet_pure _

theorem quiet_namedService (matched : RouteMatch) (ctx : PingoraContext) :
    Quiet (namedService replies req matched ctx) := by
  unfold namedService
  split
  · exact endsOnly_ok _
  · exact (quiet_orRespond _).bind fun _ ↦ (quiet_require _ _).bind fun _ ↦
      (quiet_orRespond _).bind fun _ ↦
        (quiet_applyServiceRegistrationRuntimeLimits _ _).bind fun _ ↦ quiet_pure _

theorem quiet_enterDirectMode (matched : RouteMatch) (ctx : PingoraContext) :
    Quiet (enterDirectMode replies matched ctx) :=
  .ite (fun _ ↦ (quiet_orRespond _).bind fun _ ↦ quiet_pure _) fun _ ↦ endsOnly_ok _

theorem quiet_checkExposure (matched : RouteMatch) (ctx : PingoraContext) :
    Quiet (checkExposure replies req matched ctx) :=
  .ite (fun _ ↦ (quiet_orRespond _).bind fun _ ↦ quiet_require _ _) fun _ ↦ endsOnly_ok _

theorem quiet_chooseUpstream (matched : RouteMatch) (key : AuthenticatedKey)
    (ctx : PingoraContext) :
    Quiet (chooseUpstream replies matched key ctx) :=
  .ite (fun _ ↦ quiet_orRespond _) fun _ ↦ endsOnly_ok _

theorem quiet_authenticated (matched : RouteMatch) (key : AuthenticatedKey) (ctx : PingoraContext) :
    Quiet (authenticated replies req matched key ctx) :=
  (quiet_require _ _).bind fun _ ↦ (quiet_orRespond _).bind fun _ ↦
    .ite (fun _ ↦ quiet_pure _) fun _ ↦ (quiet_namedService _ _).bind fun _ ↦
      (quiet_enterDirectMode _ _).bind fun _ ↦ (quiet_checkExposure _ _).bind fun _ ↦
        (quiet_chooseUpstream _ _ _).bind fun _ ↦ quiet_pure _

/-- The places where the filter ends with the request let through. -/
inductive WayOut (replies : Replies) (req : Request) (auth : AuthSnapshot) (matched : RouteMatch)
    (ctx final : PingoraContext) : Prop
  | bearer (hthrough : LetsThrough (litellmBearerMode replies req auth matched ctx) final)
  | ingress (profileKey : Option AuthenticatedKey) (policy : Option EndpointPolicy)
      (identity : Option EntraIdentityContext)
      (hselected : selectProfile replies req auth ctx = .ok (profileKey, policy))
      (hverified : endpointIdentity replies req auth policy = .ok identity)
      (hthrough : LetsThrough (trustedIngress replies req matched
        { ctx with key := profileKey, entraIdentity := identity }) final)
  | direct (profileKey : Option AuthenticatedKey) (policy : Option EndpointPolicy)
      (identity : Option EntraIdentityContext)
      (hselected : selectProfile replies req auth ctx = .ok (profileKey, policy))
      (hthrough : LetsThrough (directRoute replies req auth matched
        { ctx with key := profileKey, entraIdentity := identity }) final)
  | key (profileKey : Option AuthenticatedKey) (policy : Option EndpointPolicy)
      (identity identity' : Option EntraIdentityContext) (key : AuthenticatedKey)
      (hselected : selectProfile replies req auth ctx = .ok (profileKey, policy))
      (hverified : endpointIdentity replies req auth policy = .ok identity)
      (hsocket : ctx.socket = true → matched.provider ≠ .liteLlm)
      (hkey : authenticateKey replies req auth profileKey
        { ctx with key := profileKey, entraIdentity := identity } = .ok (key, identity'))
      (hfinal : authenticated replies req matched key
        { ctx with key := profileKey, entraIdentity := identity' } = .ok final)

/-- How a stage leaves the filter with a request let through: at its end or before. -/
def Reaches (stage : Stage PingoraContext) (final : PingoraContext) : Prop :=
  stage = .ok final ∨ LetsThrough stage final

theorem Reaches.of_bind {Value : Type} {stage : Stage Value} {rest : Value → Stage PingoraContext}
    {final : PingoraContext} (hreaches : Reaches (stage >>= rest) final) :
    LetsThrough stage final ∨ ∃ value, stage = .ok value ∧ Reaches (rest value) final := by
  rcases hreaches with harrived | hthrough
  · obtain ⟨value, hvalue, hrest⟩ := bind_eq_ok.mp harrived
    exact .inr ⟨value, hvalue, .inl hrest⟩
  · rcases bind_eq_error.mp hthrough with hended | ⟨value, hvalue, hrest⟩
    · exact .inl hended
    · exact .inr ⟨value, hvalue, .inr hrest⟩

theorem Reaches.of_quiet_bind {Value : Type} {stage : Stage Value}
    {rest : Value → Stage PingoraContext} {final : PingoraContext} (hquiet : Quiet stage)
    (hreaches : Reaches (stage >>= rest) final) :
    ∃ value, stage = .ok value ∧ Reaches (rest value) final :=
  hreaches.of_bind.resolve_left hquiet.not_letsThrough

theorem Reaches.of_quiet {stage : Stage PingoraContext} {final : PingoraContext}
    (hquiet : Quiet stage) (hreaches : Reaches stage final) : stage = .ok final :=
  hreaches.resolve_right hquiet.not_letsThrough

theorem authenticateRequest_wayOut {auth : AuthSnapshot} {matched : RouteMatch}
    {ctx final : PingoraContext}
    (hreaches : Reaches (authenticateRequest replies req auth matched ctx) final) :
    WayOut replies req auth matched ctx final := by
  rcases hreaches.of_bind with hbearer | ⟨_, -, hreaches⟩
  · exact .bearer hbearer
  obtain ⟨⟨profileKey, policy⟩, hselected, hreaches⟩ :=
    hreaches.of_quiet_bind (quiet_selectProfile _ _)
  obtain ⟨identity, hverified, hreaches⟩ := hreaches.of_quiet_bind (quiet_endpointIdentity _ _)
  obtain ⟨_, -, hreaches⟩ := hreaches.of_quiet_bind (quiet_orRespond _)
  rcases hreaches.of_bind with hingress | ⟨_, -, hreaches⟩
  · exact .ingress profileKey policy identity hselected hverified hingress
  rcases hreaches.of_bind with hdirect | ⟨_, -, hreaches⟩
  · exact .direct profileKey policy identity hselected hdirect
  obtain ⟨_, hsocket, hreaches⟩ := hreaches.of_quiet_bind (quiet_require _ _)
  obtain ⟨⟨key, identity'⟩, hkey, hreaches⟩ := hreaches.of_quiet_bind (quiet_authenticateKey _ _ _)
  have hsocket : ctx.socket = true → matched.provider ≠ .liteLlm := by
    simpa [or_iff_not_imp_left] using require_eq_ok.mp hsocket
  exact .key profileKey policy identity identity' key hselected hverified hsocket hkey
    (hreaches.of_quiet (quiet_authenticated _ _ _))

/-! ### What each way out establishes -/

/-- What stays of the context that routing left behind. -/
structure Kept (ctx final : PingoraContext) : Prop where
  access : final.access = ctx.access
  socket : final.socket = ctx.socket
  relaynaKeyHeader : final.relaynaKeyHeader = ctx.relaynaKeyHeader

section WayOut

variable {auth : AuthSnapshot} {matched : RouteMatch} {ctx final : PingoraContext}

theorem Configured.upstream {ctx ctx' : PingoraContext} {key : Option AuthenticatedKey}
    {credential : Text} (hconfigured : Configured replies ctx ctx' key (some credential)) :
    ctx'.litellmUpstream.map PingoraUpstreamConfig.serviceKey = some credential := by
  obtain ⟨_, mapped, -, -, hcredential⟩ := hconfigured.credential
  exact hcredential credential rfl

theorem ownCredential_ok {mixed : Bool} {credential : Text}
    (hcredential : ownCredential req mixed = .ok credential) :
    litellmBearerCredential (req.headerValue authorizationHeader) = .ok credential := by
  unfold ownCredential at hcredential
  split_ifs at hcredential
  exact hcredential

theorem bearer_authorized (hfresh : Fresh ctx)
    (hthrough : LetsThrough (litellmBearerMode replies req auth matched ctx) final) :
    Authorized replies req auth matched final ∧ Kept ctx final ∧
      final.routeMatch = some matched := by
  unfold litellmBearerMode at hthrough
  split_ifs at hthrough with happlies
  · obtain ⟨settings, hsettings, hthrough⟩ := hthrough.of_bind (quiet_orRespond _)
    split_ifs at hthrough with hmode
    · obtain ⟨_, hallowed, hthrough⟩ := hthrough.of_bind (quiet_require _ _)
      obtain ⟨_, hconflict, hthrough⟩ := hthrough.of_bind (quiet_require _ _)
      obtain ⟨credential, hcredential, hthrough⟩ := hthrough.of_bind (quiet_orRespond _)
      obtain ⟨configured, hconfigured, hthrough⟩ := hthrough.of_bind (quiet_orRespond _)
      obtain rfl := hthrough.error_inj
      have hconfigured := configured_ok (orRespond_eq_ok.mp hconfigured)
      have hupstream := hconfigured.upstream
      have hallowed := Bool.and_eq_true_iff.mp (require_eq_ok.mp hallowed)
      have hconflict := require_eq_ok.mp hconflict
      simp only [Bool.not_eq_true', Bool.or_eq_false_iff, Option.isSome_eq_false_iff,
        Option.isNone_iff_eq_none] at hconflict
      have hcredential := ownCredential_ok (orRespond_eq_ok.mp hcredential)
      rw [hconfigured.frame]
      refine ⟨.byCaller credential hfresh.key rfl (.inl ⟨?_, settings, orRespond_eq_ok.mp hsettings,
        hmode, hallowed.1, of_decide_eq_true hallowed.2⟩) hconflict.1.1 hconflict.1.2 hcredential
        hupstream, ⟨rfl, rfl, rfl⟩, rfl⟩
      exact of_decide_eq_true (Bool.and_eq_true_iff.mp happlies).1
    · exact absurd hthrough (quiet_pure _).not_letsThrough
  · exact absurd hthrough (Quiet.not_letsThrough (endsOnly_ok _))

theorem direct_authorized {identity : Option EntraIdentityContext}
    {profileKey : Option AuthenticatedKey} {policy : Option EndpointPolicy}
    (hselected : selectProfile replies req auth ctx = .ok (profileKey, policy))
    (hthrough : LetsThrough (directRoute replies req auth matched
      { ctx with key := profileKey, entraIdentity := identity }) final) :
    Authorized replies req auth matched final ∧ Kept ctx final ∧
      final.routeMatch = some matched := by
  unfold directRoute at hthrough
  split_ifs at hthrough with hcanonical
  · obtain ⟨mode, hmode, hthrough⟩ := hthrough.of_bind (quiet_orRespond _)
    split_ifs at hthrough with hdirect
    · obtain ⟨enabled, henabled, hthrough⟩ := hthrough.of_bind (quiet_orRespond _)
      obtain ⟨_, hrequired, hthrough⟩ := hthrough.of_bind (quiet_require _ _)
      obtain ⟨credential, hcredential, hthrough⟩ := hthrough.of_bind (quiet_orRespond _)
      obtain ⟨configured, hconfigured, hthrough⟩ := hthrough.of_bind (quiet_orRespond _)
      obtain rfl := hthrough.error_inj
      have hconfigured := configured_ok (orRespond_eq_ok.mp hconfigured)
      have hupstream := hconfigured.upstream
      simp only [Bool.and_eq_true, decide_eq_true_eq, Option.isNone_iff_eq_none,
        Bool.not_eq_true'] at hdirect
      obtain ⟨⟨⟨⟨rfl, hprofiles⟩, hpolicy⟩, hrelayna⟩, -⟩ := hdirect
      obtain rfl : enabled = true := require_eq_ok.mp hrequired
      have hcredential := ownCredential_ok (orRespond_eq_ok.mp hcredential)
      have hnone : profileKey = none := by
        unfold selectProfile at hselected
        rw [hprofiles] at hselected
        exact (Prod.mk.inj (Except.ok.inj hselected)).1.symm
      rw [hconfigured.frame]
      exact ⟨.byCaller credential hnone rfl (.inr ⟨hcanonical, orRespond_eq_ok.mp hmode,
        orRespond_eq_ok.mp henabled, hrelayna⟩) hprofiles hpolicy hcredential hupstream,
        ⟨rfl, rfl, rfl⟩, rfl⟩
    · exact absurd hthrough (quiet_pure _).not_letsThrough
  · exact absurd hthrough (Quiet.not_letsThrough (endsOnly_ok _))

theorem ingress_authorized {identity : Option EntraIdentityContext}
    {profileKey : Option AuthenticatedKey} {policy : Option EndpointPolicy}
    (hselected : selectProfile replies req auth ctx = .ok (profileKey, policy))
    (hverified : endpointIdentity replies req auth policy = .ok identity)
    (hthrough : LetsThrough (trustedIngress replies req matched
      { ctx with key := profileKey, entraIdentity := identity }) final) :
    Authorized replies req auth matched final ∧ Kept ctx final ∧
      final.routeMatch = some matched := by
  unfold trustedIngress at hthrough
  split_ifs at hthrough with happlies
  · obtain ⟨settings, hsettings, hthrough⟩ := hthrough.of_bind (quiet_orRespond _)
    split_ifs at hthrough with hopen
    · obtain ⟨configured, hconfigured, hthrough⟩ := hthrough.of_bind (quiet_orRespond _)
      obtain rfl := hthrough.error_inj
      have hframe := (configured_ok (orRespond_eq_ok.mp hconfigured)).frame
      simp only [Bool.and_eq_true, decide_eq_true_eq, Option.isNone_iff_eq_none,
        Bool.not_eq_true'] at happlies
      obtain ⟨⟨⟨hprofiles, hsocket⟩, -⟩, hroute⟩ := happlies
      unfold selectProfile at hselected
      rw [hprofiles] at hselected
      obtain ⟨rfl, rfl⟩ := Prod.mk.inj (Except.ok.inj hselected)
      rw [hframe]
      exact ⟨.byIngress rfl rfl hroute hsocket hprofiles hverified
        ⟨settings, orRespond_eq_ok.mp hsettings, hopen⟩, ⟨rfl, rfl, rfl⟩, rfl⟩
    · exact absurd hthrough (quiet_pure _).not_letsThrough
  · exact absurd hthrough (Quiet.not_letsThrough (endsOnly_ok _))

/-- What the choice of a profile has settled. -/
theorem selectProfile_ok {profileKey : Option AuthenticatedKey} {policy : Option EndpointPolicy}
    (hselected : selectProfile replies req auth ctx = .ok (profileKey, policy)) :
    (ctx.access.authenticationProfiles = none ∧ profileKey = none ∧ policy = ctx.access.entra) ∨
      ∃ profiles key profile, ctx.access.authenticationProfiles = some profiles ∧
        profileKey = some key ∧ policy = profile.entra ∧ Presented replies req auth key ∧
        profiles.select key.keyId = .ok profile ∧
        (profile.entra = none → req.assertsApigee = false ∧
          ((req.headerValue auth.relaynaKeyHeader).isNone ∨
            (req.headerValue authorizationHeader).isNone)) := by
  unfold selectProfile at hselected
  cases hprofiles : ctx.access.authenticationProfiles with
  | none =>
    rw [hprofiles] at hselected
    obtain ⟨rfl, rfl⟩ := Prod.mk.inj (Except.ok.inj hselected)
    exact .inl ⟨rfl, rfl, rfl⟩
  | some profiles =>
    rw [hprofiles] at hselected
    obtain ⟨_, -, hselected⟩ := bind_eq_ok.mp hselected
    obtain ⟨key, hkey, hselected⟩ := bind_eq_ok.mp hselected
    obtain ⟨profile, hprofile, hselected⟩ := bind_eq_ok.mp hselected
    obtain ⟨_, halone, hselected⟩ := bind_eq_ok.mp hselected
    obtain ⟨rfl, rfl⟩ := Prod.mk.inj (pure_eq_ok.mp hselected)
    refine .inr ⟨profiles, key, profile, rfl, rfl, rfl, ?_, orRespond_eq_ok.mp hprofile, ?_⟩
    · have hkey := orRespond_eq_ok.mp hkey
      unfold profileKey at hkey
      simp only at hkey
      split_ifs at hkey
      · exact .inl hkey
      · exact .inr hkey
    · intro hnone
      have halone := require_eq_ok.mp halone
      simp only [hnone, Option.isSome_none, Bool.false_or, Bool.not_eq_true', Bool.or_eq_false_iff,
        Bool.and_eq_false_iff, Option.isSome_eq_false_iff] at halone
      exact ⟨halone.2, halone.1⟩

/-- The key that the filter goes on with, together with what was checked of the identity. -/
theorem authenticateKey_ok {profileKey : Option AuthenticatedKey} {policy : Option EndpointPolicy}
    {identity identity' : Option EntraIdentityContext} {key : AuthenticatedKey}
    (hselected : selectProfile replies req auth ctx = .ok (profileKey, policy))
    (hverified : endpointIdentity replies req auth policy = .ok identity)
    (hkey : authenticateKey replies req auth profileKey
      { ctx with key := profileKey, entraIdentity := identity } = .ok (key, identity')) :
    Authenticated replies req auth ctx.access key identity' := by
  rcases selectProfile_ok hselected with ⟨hprofiles, rfl, rfl⟩ |
    ⟨profiles, selecting, profile, hprofiles, rfl, rfl, hpresented, hprofile, halone⟩
  · unfold authenticateKey at hkey
    simp only at hkey
    split_ifs at hkey with hpolicy hskip hdedicated hbearer hentra
    · obtain ⟨found, hfound, hkey⟩ := bind_eq_ok.mp hkey
      obtain ⟨rfl, rfl⟩ := Prod.mk.inj (pure_eq_ok.mp hkey)
      obtain ⟨policy, hpolicy⟩ := Option.isSome_iff_exists.mp hpolicy
      exact .endpoint hprofiles hpolicy (orRespond_eq_ok.mp hfound) (hpolicy ▸ hverified)
    all_goals
      have hpolicy : ctx.access.entra = none := by simpa using hpolicy
      rw [hpolicy] at hverified
      obtain rfl : none = identity := Except.ok.inj hverified
    · obtain ⟨found, hfound, hkey⟩ := bind_eq_ok.mp hkey
      obtain ⟨rfl, rfl⟩ := Prod.mk.inj (pure_eq_ok.mp hkey)
      exact .skipped hprofiles hpolicy hskip (.inl (orRespond_eq_ok.mp hfound))
    · obtain ⟨found, hfound, hkey⟩ := bind_eq_ok.mp hkey
      obtain ⟨rfl, rfl⟩ := Prod.mk.inj (pure_eq_ok.mp hkey)
      exact .skipped hprofiles hpolicy hskip (.inr (orRespond_eq_ok.mp hfound))
    all_goals have hskip : ctx.access.skipEntra = false := by simpa using hskip
    · obtain ⟨_, hrequired, hkey⟩ := bind_eq_ok.mp hkey
      obtain ⟨found, hfound, hkey⟩ := bind_eq_ok.mp hkey
      obtain ⟨rfl, rfl⟩ := Prod.mk.inj (pure_eq_ok.mp hkey)
      exact .unverified hprofiles hpolicy hskip hbearer (orRespond_eq_ok.mp hrequired)
        (orRespond_eq_ok.mp hfound)
    all_goals have hbearer : auth.unverifiedBearerEnabled = false := by simpa using hbearer
    · obtain ⟨verified, hidentity, hkey⟩ := bind_eq_ok.mp hkey
      obtain ⟨found, hfound, hkey⟩ := bind_eq_ok.mp hkey
      obtain ⟨rfl, rfl⟩ := Prod.mk.inj (pure_eq_ok.mp hkey)
      exact .gateway hprofiles hpolicy hskip hbearer hentra (orRespond_eq_ok.mp hidentity)
        (orRespond_eq_ok.mp hfound)
    · obtain ⟨found, hfound, hkey⟩ := bind_eq_ok.mp hkey
      obtain ⟨rfl, rfl⟩ := Prod.mk.inj (pure_eq_ok.mp hkey)
      exact .keyOnly hprofiles hpolicy hskip hbearer (by simpa using hentra)
        (orRespond_eq_ok.mp hfound)
  · obtain ⟨rfl, rfl⟩ := Prod.mk.inj (Except.ok.inj hkey)
    obtain ⟨hmem, henabled, hbound, honly⟩ := AuthenticationProfiles.select_sound hprofile
    exact .profile hprofiles hpresented ⟨hmem, henabled⟩ hbound honly hverified halone

/-- What remains to be checked once the key is known. -/
structure Completed (replies : Replies) (req : Request) (matched : RouteMatch)
    (key : AuthenticatedKey) (ctx final : PingoraContext) : Prop where
  kept : Kept ctx final
  presented : final.key = some key
  identity : final.entraIdentity = ctx.entraIdentity
  direct : final.directLitellmPassthrough = ctx.directLitellmPassthrough
  trusted : final.trustedIngressPassthrough = ctx.trustedIngressPassthrough
  governed : governedBatchLifecycleDenied req = false
  routed : ∃ matched', SameRoute matched matched' ∧ final.routeMatch = some matched'
  exposure : matched.route = .liteLlmPassthrough → ∃ settings,
    replies.exposureSettings = .ok settings ∧ sensitiveLitellmPassthroughAuthorized
      (settings.sensitiveExposureForPath req.path) ctx.entraIdentity = true
  credential : matched.provider = .liteLlm →
    ∃ before, Configured replies before final (some key) none

theorem namedService_ok {matched' : RouteMatch} {ctx' : PingoraContext}
    (hnamed : namedService replies req matched ctx = .ok (matched', ctx')) :
    SameRoute matched matched' ∧ ∃ foundry upstream pattern,
      ctx' = { ctx with
        foundry := foundry, serviceUpstream := upstream, serviceRoutePattern := pattern } := by
  unfold namedService at hnamed
  split at hnamed
  · obtain ⟨rfl, rfl⟩ := Prod.mk.inj (Except.ok.inj hnamed)
    exact ⟨.refl _, ctx.foundry, ctx.serviceUpstream, ctx.serviceRoutePattern, rfl⟩
  · obtain ⟨registration, -, hnamed⟩ := bind_eq_ok.mp hnamed
    obtain ⟨_, -, hnamed⟩ := bind_eq_ok.mp hnamed
    obtain ⟨upstream, -, hnamed⟩ := bind_eq_ok.mp hnamed
    obtain ⟨limited, hlimited, hnamed⟩ := bind_eq_ok.mp hnamed
    obtain ⟨rfl, rfl⟩ := Prod.mk.inj (pure_eq_ok.mp hnamed)
    exact ⟨sameRoute_applyServiceLimits hlimited, _, _, _, rfl⟩

theorem enterDirectMode_ok {ctx' : PingoraContext}
    (hentered : enterDirectMode replies matched ctx = .ok ctx') :
    ∃ passthrough, ctx' = { ctx with litellmPassthrough := passthrough } ∧
      (ctx.litellmPassthrough = true → passthrough = true) := by
  unfold enterDirectMode at hentered
  split_ifs at hentered
  · obtain ⟨mode, -, hentered⟩ := bind_eq_ok.mp hentered
    obtain rfl := pure_eq_ok.mp hentered
    exact ⟨_, rfl, fun hpassthrough ↦ by rw [hpassthrough, Bool.true_or]⟩
  · obtain rfl := Except.ok.inj hentered
    exact ⟨_, rfl, id⟩

theorem chooseUpstream_ok {key : AuthenticatedKey} {ctx' : PingoraContext}
    (hchosen : chooseUpstream replies matched key ctx = .ok ctx') :
    ctx' = { ctx with litellmUpstream := ctx'.litellmUpstream } ∧
      (matched.provider = .liteLlm → Configured replies ctx ctx' (some key) none) := by
  unfold chooseUpstream at hchosen
  split_ifs at hchosen with hprovider
  · have hconfigured := configured_ok (orRespond_eq_ok.mp hchosen)
    exact ⟨hconfigured.frame, fun _ ↦ hconfigured⟩
  · obtain rfl := Except.ok.inj hchosen
    exact ⟨rfl, fun h ↦ absurd h hprovider⟩

/-- Assumes: passthrough is entered on its route, and a named service is a resolved one. -/
theorem authenticated_ok {key : AuthenticatedKey}
    (hfinal : authenticated replies req matched key ctx = .ok final)
    (hpassthrough : matched.route = .liteLlmPassthrough → ctx.litellmPassthrough = true)
    (hservice : matched.serviceName.isSome = true → Resolved matched) :
    Completed replies req matched key ctx final := by
  obtain ⟨_, hgoverned, hfinal⟩ := bind_eq_ok.mp hfinal
  obtain ⟨_, -, hfinal⟩ := bind_eq_ok.mp hfinal
  have hgoverned : governedBatchLifecycleDenied req = false := by
    simpa using require_eq_ok.mp hgoverned
  split_ifs at hfinal with hnamed
  · obtain rfl := pure_eq_ok.mp hfinal
    have hresolved := hservice (Bool.and_eq_true_iff.mp hnamed).1
    exact {
      kept := ⟨rfl, rfl, rfl⟩, presented := rfl, identity := rfl, direct := rfl, trusted := rfl
      governed := hgoverned
      routed := ⟨matched, .refl _, rfl⟩
      exposure := fun hroute ↦ absurd hroute hresolved.route
      credential := fun hprovider ↦
        absurd hprovider (hresolved.service (Bool.and_eq_true_iff.mp hnamed).1) }
  · obtain ⟨⟨limited, named⟩, hlimited, hfinal⟩ := bind_eq_ok.mp hfinal
    obtain ⟨entered, hentered, hfinal⟩ := bind_eq_ok.mp hfinal
    obtain ⟨_, hexposed, hfinal⟩ := bind_eq_ok.mp hfinal
    obtain ⟨chosen, hchosen, hfinal⟩ := bind_eq_ok.mp hfinal
    obtain rfl := pure_eq_ok.mp hfinal
    obtain ⟨hsame, foundry, upstream, pattern, rfl⟩ := namedService_ok hlimited
    obtain ⟨passthrough, rfl, hkept⟩ := enterDirectMode_ok hentered
    obtain ⟨hframe, hconfigured⟩ := chooseUpstream_ok hchosen
    refine ⟨?_, ?_, ?_, ?_, ?_, hgoverned, ⟨limited, hsame, rfl⟩, fun hroute ↦ ?_,
      fun hprovider ↦ ?_⟩
    · rw [hframe]
      exact ⟨rfl, rfl, rfl⟩
    · rw [hframe]
    · rw [hframe]
    · rw [hframe]
    · rw [hframe]
    · have happlies : (passthrough && limited.route = .liteLlmPassthrough) = true := by
        rw [hkept (hpassthrough hroute), hsame.route, hroute]
        rfl
      unfold checkExposure at hexposed
      rw [if_pos happlies] at hexposed
      obtain ⟨settings, hsettings, hexposed⟩ := bind_eq_ok.mp hexposed
      exact ⟨settings, orRespond_eq_ok.mp hsettings, require_eq_ok.mp hexposed⟩
    · have hconfigured := hconfigured (hsame.provider.trans hprovider)
      refine ⟨{ chosen with routeMatch := some limited }, ?_, ?_⟩
      · rfl
      · exact hconfigured.credential

theorem key_authorized {profileKey : Option AuthenticatedKey} {policy : Option EndpointPolicy}
    {identity identity' : Option EntraIdentityContext} {key : AuthenticatedKey}
    (hrouted : Routed replies req matched ctx)
    (hselected : selectProfile replies req auth ctx = .ok (profileKey, policy))
    (hverified : endpointIdentity replies req auth policy = .ok identity)
    (hsocket : ctx.socket = true → matched.provider ≠ .liteLlm)
    (hkey : authenticateKey replies req auth profileKey
      { ctx with key := profileKey, entraIdentity := identity } = .ok (key, identity'))
    (hfinal : authenticated replies req matched key
      { ctx with key := profileKey, entraIdentity := identity' } = .ok final) :
    Authorized replies req auth matched final ∧ Kept ctx final ∧
      ∃ matched', SameRoute matched matched' ∧ final.routeMatch = some matched' := by
  have hauthenticated := authenticateKey_ok hselected hverified hkey
  have hcompleted := authenticated_ok hfinal hrouted.passthrough.mpr hrouted.service
  refine ⟨.byKey key hcompleted.presented ?_ ?_ ?_ hcompleted.governed ?_ ?_ ?_, ?_,
    hcompleted.routed⟩
  · rw [hcompleted.kept.access, hcompleted.identity]
    exact hauthenticated
  · exact hcompleted.direct.trans hrouted.fresh.direct
  · exact hcompleted.trusted.trans hrouted.fresh.trusted
  · rw [hcompleted.kept.socket]
    exact hsocket
  · intro hroute
    obtain ⟨settings, hsettings, hexposed⟩ := hcompleted.exposure hroute
    refine ⟨settings, hsettings, ?_, ?_⟩
    · intro hdisabled
      rw [hdisabled] at hexposed
      exact Bool.false_ne_true hexposed
    · intro hoperator
      rw [hoperator] at hexposed
      rw [hcompleted.identity]
      exact hexposed
  · intro hprovider credential hmapped
    obtain ⟨before, hconfigured⟩ := hcompleted.credential hprovider
    obtain ⟨_, mapped, -, hlookup, hcredential⟩ := hconfigured.credential
    obtain rfl : mapped = some credential := Except.ok.inj (hlookup.symm.trans hmapped)
    exact hcredential credential rfl
  · exact ⟨hcompleted.kept.access, hcompleted.kept.socket, hcompleted.kept.relaynaKeyHeader⟩

end WayOut

/-! ### The filter -/

theorem filtered_reaches {final : PingoraContext}
    (hfiltered : Reaches (filtered replies req) final) :
    ∃ auth matched ctx, replies.requestAdmission = .ok () ∧ replies.snapshot = .ok auth ∧
      validateCredentialHeaders req auth.relaynaKeyHeader = .ok () ∧
      route replies req .new = .ok (matched, ctx) ∧
      Reaches (authenticateRequest replies req auth matched
        { ctx with relaynaKeyHeader := auth.relaynaKeyHeader }) final := by
  obtain ⟨_, hadmission, hfiltered⟩ := hfiltered.of_quiet_bind (quiet_orRespond _)
  obtain ⟨auth, hauth, hfiltered⟩ := hfiltered.of_quiet_bind (quiet_orRespond _)
  obtain ⟨_, hvalid, hfiltered⟩ := hfiltered.of_quiet_bind (quiet_orRespond _)
  have hturns : Quiet (leaveAccessaTurns req) :=
    .ite (fun _ ↦ endsOnly_error fun ctx ↦ by simp) fun _ ↦ endsOnly_ok _
  obtain ⟨_, -, hfiltered⟩ := hfiltered.of_quiet_bind hturns
  obtain ⟨⟨matched, ctx⟩, hroute, hfiltered⟩ := hfiltered.of_quiet_bind (quiet_route _)
  exact ⟨auth, matched, ctx, orRespond_eq_ok.mp hadmission, orRespond_eq_ok.mp hauth,
    orRespond_eq_ok.mp hvalid, hroute, hfiltered⟩

theorem wayOut_authorized {auth : AuthSnapshot} {matched : RouteMatch} {ctx final : PingoraContext}
    (hrouted : Routed replies req matched ctx) (hway : WayOut replies req auth matched ctx final) :
    Authorized replies req auth matched final ∧ Kept ctx final ∧
      ∃ matched', SameRoute matched matched' ∧ final.routeMatch = some matched' := by
  cases hway with
  | bearer hthrough =>
    obtain ⟨hauthorized, hkept, hmatch⟩ := bearer_authorized hrouted.fresh hthrough
    exact ⟨hauthorized, hkept, matched, .refl _, hmatch⟩
  | ingress profileKey policy identity hselected hverified hthrough =>
    obtain ⟨hauthorized, hkept, hmatch⟩ := ingress_authorized hselected hverified hthrough
    exact ⟨hauthorized, hkept, matched, .refl _, hmatch⟩
  | direct profileKey policy identity hselected hthrough =>
    obtain ⟨hauthorized, hkept, hmatch⟩ := direct_authorized hselected hthrough
    exact ⟨hauthorized, hkept, matched, .refl _, hmatch⟩
  | key profileKey policy identity identity' key hselected hverified hsocket hkey hfinal =>
    exact key_authorized hrouted hselected hverified hsocket hkey hfinal

theorem Authorized.congr {auth : AuthSnapshot} {matched matched' : RouteMatch}
    {ctx : PingoraContext}
    (hsame : SameRoute matched matched') (hauthorized : Authorized replies req auth matched ctx) :
    Authorized replies req auth matched' ctx := by
  cases hauthorized with
  | byKey key hkey hauthenticated hdirect htrusted hgoverned hsocket hexposure hcredential =>
    refine .byKey key hkey hauthenticated hdirect htrusted hgoverned ?_ ?_ ?_
    · rw [hsame.provider]
      exact hsocket
    · rw [hsame.route]
      exact hexposure
    · rw [hsame.provider]
      exact hcredential
  | byCaller credential hkey hdirect hpays hprofiles hpolicy hcredential hupstream =>
    refine .byCaller credential hkey hdirect ?_ hprofiles hpolicy hcredential hupstream
    unfold CallerPays
    rw [hsame.route]
    exact hpays
  | byIngress hkey htrusted hroute hsocket hprofiles hverified hopen =>
    exact .byIngress hkey htrusted (hsame.route.trans hroute) hsocket hprofiles hverified hopen

/-- Assumes: the filter let a request through. The request was admitted under a snapshot of the
authentication, its credential headers are well formed, the settings admit its path where it passes
through, a socket has made a valid handshake, and the request is authorized in one of the three ways
under the requirements that it was routed with. -/
theorem forwarded_authorized (replies : Replies) (req : Request) (ctx : PingoraContext)
    (hforwarded : requestFilter replies req = .forwarded ctx) :
    ∃ auth matched, replies.requestAdmission = .ok () ∧ replies.snapshot = .ok auth ∧
      ctx.relaynaKeyHeader = auth.relaynaKeyHeader ∧
      validateCredentialHeaders req auth.relaynaKeyHeader = .ok () ∧
      ctx.routeMatch = some matched ∧
      (matched.route = .liteLlmPassthrough → PathAdmitted replies req) ∧
      (isLitellmCanonicalRoute matched.route = true →
        replies.routingMode = .ok .directLiteLlmPassthrough →
        ∃ settings, replies.directSettings = .ok settings ∧ settings.deniesPath req.path = false) ∧
      (ctx.socket = true → validHandshake replies.decodeBase64 req = true) ∧
      Authorized replies req auth matched ctx := by
  have hreaches : Reaches (filtered replies req) ctx := by
    unfold requestFilter at hforwarded
    cases hfiltered : filtered replies req with
    | ok final =>
      rw [hfiltered] at hforwarded
      exact .inl (congrArg Except.ok (Exit.forwarded.inj hforwarded))
    | error exit =>
      rw [hfiltered] at hforwarded
      exact .inr (congrArg Except.error hforwarded)
  obtain ⟨auth, matched, routed, hadmission, hauth, hvalid, hroute, hreaches⟩ :=
    filtered_reaches hreaches
  have hrouted := route_ok hroute
  have hrouted' : Routed replies req matched
      { routed with relaynaKeyHeader := auth.relaynaKeyHeader } :=
    ⟨⟨hrouted.fresh.key, hrouted.fresh.direct, hrouted.fresh.trusted⟩, hrouted.passthrough,
      hrouted.admitted, hrouted.service, hrouted.notDenied, hrouted.handshake⟩
  obtain ⟨hauthorized, hkept, matched', hsame, hmatch⟩ :=
    wayOut_authorized hrouted' (authenticateRequest_wayOut hreaches)
  refine ⟨auth, matched', hadmission, hauth, hkept.relaynaKeyHeader, hvalid, hmatch, ?_, ?_, ?_,
    hauthorized.congr hsame⟩
  · rw [hsame.route]
    exact fun hpassthrough ↦ hrouted.admitted (hrouted.passthrough.mpr hpassthrough)
  · rw [hsame.route]
    exact hrouted.notDenied
  · rw [hkept.socket]
    exact hrouted.handshake

end Filter

/-- A gateway that asks for a key alone, has one service and one key, and passes nothing through. -/
def sampleReplies : Replies where
  requestAdmission := .ok ()
  snapshot := .ok ⟨"x-relayna-key".toList, false, none, none, false⟩
  serviceRegistrationForRoute := .ok none
  serviceUpstream _ := .error .missingService
  routingSettings := .ok ⟨.gateway, [], false, [], [], .disabled, .disabled⟩
  routeIdentity _ := .ok .default
  aliasRegistration _ := .ok none
  routingMode := .ok .managedByGateway
  directSettings := .ok ⟨.gateway, [], false, [], [], .disabled, .disabled⟩
  routeLimits := .ok ⟨1000, 1024, 1024⟩
  passthroughLimits := .ok ⟨1000, 1024, 1024⟩
  bearerSettings := .ok ⟨.gateway, [], false, [], [], .disabled, .disabled⟩
  ingressSettings := .ok ⟨.gateway, [], false, [], [], .disabled, .disabled⟩
  credentialMode := .ok .managedByGateway
  routeEnabled := .ok true
  guardrailDefinitions := .ok ()
  serviceRegistration _ := .ok none
  finalMode := .ok .managedByGateway
  exposureSettings := .ok ⟨.gateway, [], false, [], [], .disabled, .disabled⟩
  activeLitellmConfig := .ok none
  credentialMapping _ _ := .ok (some "sk-project".toList)
  authenticateVirtualKey _ := .ok ⟨7, none, ⟨encode "rk_live_01234567".toList, by decide⟩⟩
  identity := ⟨fun _ _ _ ↦ .error .untrustedApigeeIdentity, fun _ _ ↦ .error .invalidEntraToken,
    fun _ ↦ .error .invalidEntraToken⟩
  now := 0
  parseBaseUrl _ := none
  toLowercase := lowerName
  litellm := ⟨"litellm".toList, 4000, false, "sk-gateway".toList, .authorizationBearer, none, .raw⟩
  decodeBase64 _ := none

/-- A chat completion with a Relayna key as its bearer token. -/
def sampleRequest : Request where
  method := post
  http11 := true
  path := "/v1/chat/completions".toList
  headers := [("authorization".toList, encode "Bearer rk_live_0123456789".toList)]

theorem forwarded_authorized_sample : ∃ ctx auth matched,
    requestFilter sampleReplies sampleRequest = .forwarded ctx ∧
      Authorized sampleReplies sampleRequest auth matched ctx := by
  obtain ⟨ctx, hctx⟩ : ∃ ctx, requestFilter sampleReplies sampleRequest = .forwarded ctx := ⟨_, rfl⟩
  obtain ⟨auth, matched, -, -, -, -, -, -, -, -, hauthorized⟩ :=
    forwarded_authorized sampleReplies sampleRequest ctx hctx
  exact ⟨ctx, auth, matched, hctx, hauthorized⟩

end Relayna.Proxy.RequestFilter

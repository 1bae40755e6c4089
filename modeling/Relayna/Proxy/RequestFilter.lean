import Relayna.Proxy.Credentials
import Relayna.Services.Routing

/-!
# The request filter

`request_filter` of `crates/gateway-proxy/src/pingora_plane.rs` stands between a request and every
upstream: it finds the route, decides which credentials the endpoint asks for, checks them, and
chooses the credential that the upstream will see. It either answers the request itself or lets
Pingora go on with what it has put into the context.

The configuration may change while a request is filtered, and the filter reads parts of it several
times. `Replies` therefore has one field for each place that reads, so that nothing is assumed about
two readings. Telemetry, the body rewriters and the diagnostics of the live monitor are left out;
the turns that Accessa asks for leave the filter before any route is resolved.
-/

set_option autoImplicit false
set_option relaxedAutoImplicit false

namespace Relayna.Proxy.RequestFilter

open Relayna.Auth (AuthenticatedKey)
open Relayna.Auth.Entra (EntraIdentityContext Text)
open Relayna.Library.Utf8 (encode)
open Relayna.Passthrough.PathPolicy
open Relayna.Policy (Route)
open Relayna.Proxy.Credentials
open Relayna.Services (RouteMatch resolveMatch startsWith isOneOf)

/-! ### Configuration -/

structure UserTokenForwarding where
  enabled : Bool
  header : Text

/-- The part of `AccessaBinding` that the filter reads. -/
structure AccessaBinding where
  app : Option Text
  channel : Text

/-- `accept` and the other headers that a forwarded token may not take the place of. -/
def reservedHeaders : List Text :=
  texts ["accept", "accept-encoding", "accept-language", "authorization", "proxy-authorization",
    "host", "connection", "keep-alive", "upgrade", "te", "trailer", "transfer-encoding", "cookie",
    "set-cookie", "origin", "referer", "forwarded", "via", "range", "expect", "cache-control",
    "pragma", "date", "location", "server", "vary", "allow", "etag", "last-modified", "traceparent",
    "tracestate", "baggage", "x-api-key", "api-key", "x-request-id", "x-correlation-id",
    "x-amzn-trace-id"]

/-- The families of headers that a forwarded token may not take the place of. -/
def reservedFronts : List Text :=
  texts ["content-", "accept-", "if-", "sec-", "access-control-", "proxy-", "x-caller-", "x-route-",
    "x-relayna-", "x-apigee-", "x-forwarded-", "x-original-", "x-envoy-", "x-ms-"]

def UserTokenForwarding.validate (forwarding : UserTokenForwarding) : GatewayResult Unit :=
  let name := lowerName forwarding.header
  if 128 < (encode name).length || name.isEmpty ||
      !(encode name).all Pricing.isTokenByte || reservedHeaders.contains name ||
      reservedFronts.any (fun front ↦ front.isPrefixOf name) then
    .error .invalidServicePayload
  else .ok ()

def AccessaBinding.runPath (binding : AccessaBinding) : Option Text :=
  binding.app.map fun app ↦
    "/app/".toList ++ app ++ "/channel/".toList ++ binding.channel ++ "/v1/run".toList

/-- `EndpointAccess`. `websocket` says whether there are socket settings. -/
structure EndpointAccess where
  authenticationProfiles : Option AuthenticationProfiles
  skipEntra : Bool
  entra : Option EndpointPolicy
  accessa : Option AccessaBinding
  websocket : Bool
  userTokenForwarding : Option UserTokenForwarding

def EndpointAccess.default : EndpointAccess :=
  ⟨none, false, none, none, false, none⟩

/-- The part of `ServiceRegistration` that the filter reads. -/
structure ServiceRegistration where
  access : EndpointAccess
  foundry : Bool
  name : Pricing.Text
  routePattern : Pricing.Text
  allowedMethods : List Text
  timeoutMs : ℤ
  maxBodyBytes : ℤ
  estimatedCostUsd : Option Pricing.Price

inductive CredentialHeaderMode
  | authorizationBearer
  | customHeader
  deriving DecidableEq

inductive CredentialHeaderValueFormat
  | raw
  | bearer
  deriving DecidableEq

structure PingoraUpstreamConfig where
  host : Text
  port : ℕ
  tls : Bool
  serviceKey : Text
  credentialHeaderMode : CredentialHeaderMode
  credentialHeaderName : Option Text
  credentialHeaderValueFormat : CredentialHeaderValueFormat
  deriving DecidableEq

/-- The active configuration of LiteLLM. -/
structure LiteLlmConfig where
  baseUrl : Text
  credential : Option Text
  credentialHeaderMode : CredentialHeaderMode
  credentialHeaderName : Option Text
  credentialHeaderValueFormat : CredentialHeaderValueFormat

inductive OpenAiRouteMode
  | managedByGateway
  | directLiteLlmPassthrough
  deriving DecidableEq

structure LiteLlmRouteLimits where
  timeoutMs : ℤ
  maxRequestBodyBytes : ℤ
  maxResponseBodyBytes : ℤ

/-- What the filter is answered, one field for each place that asks. -/
structure Replies where
  requestAdmission : GatewayResult Unit
  snapshot : GatewayResult AuthSnapshot
  serviceRegistrationForRoute : GatewayResult (Option ServiceRegistration)
  serviceUpstream : ServiceRegistration → GatewayResult PingoraUpstreamConfig
  routingSettings : GatewayResult LiteLlmPassthroughSettings
  routeIdentity : Route → GatewayResult EndpointAccess
  aliasRegistration : Pricing.Text → GatewayResult (Option ServiceRegistration)
  routingMode : GatewayResult OpenAiRouteMode
  directSettings : GatewayResult LiteLlmPassthroughSettings
  routeLimits : GatewayResult LiteLlmRouteLimits
  passthroughLimits : GatewayResult LiteLlmRouteLimits
  bearerSettings : GatewayResult LiteLlmPassthroughSettings
  ingressSettings : GatewayResult LiteLlmPassthroughSettings
  credentialMode : GatewayResult OpenAiRouteMode
  routeEnabled : GatewayResult Bool
  guardrailDefinitions : GatewayResult Unit
  serviceRegistration : Pricing.Text → GatewayResult (Option ServiceRegistration)
  finalMode : GatewayResult OpenAiRouteMode
  exposureSettings : GatewayResult LiteLlmPassthroughSettings
  activeLitellmConfig : GatewayResult (Option LiteLlmConfig)
  credentialMapping : Uuid → Option Uuid → GatewayResult (Option Text)
  authenticateVirtualKey : VirtualKey → GatewayResult AuthenticatedKey
  identity : IdentityOracle
  now : ℤ
  /-- The host, the port and whether TLS is used. -/
  parseBaseUrl : Text → Option (Text × ℕ × Bool)
  toLowercase : Text → Text
  /-- The upstream of the process configuration. -/
  litellm : PingoraUpstreamConfig
  /-- `STANDARD.decode(value)` of the `base64` crate. -/
  decodeBase64 : Text → Option (List UInt8)

/-- What the filter leaves behind for the later phases. -/
structure PingoraContext where
  access : EndpointAccess
  litellmPassthrough : Bool
  directLitellmPassthrough : Bool
  trustedIngressPassthrough : Bool
  foundry : Bool
  socket : Bool
  serviceUpstream : Option PingoraUpstreamConfig
  serviceRoutePattern : Option Pricing.Text
  litellmUpstream : Option PingoraUpstreamConfig
  entraIdentity : Option EntraIdentityContext
  key : Option AuthenticatedKey
  routeMatch : Option RouteMatch
  relaynaKeyHeader : Text

def PingoraContext.new : PingoraContext where
  access := .default
  litellmPassthrough := false
  directLitellmPassthrough := false
  trustedIngressPassthrough := false
  foundry := false
  socket := false
  serviceUpstream := none
  serviceRoutePattern := none
  litellmUpstream := none
  entraIdentity := none
  key := none
  routeMatch := none
  relaynaKeyHeader := []

/-- How the filter ends: it answers with an error, hands an Accessa turn to its own handler, fails
inside, or lets the request through. -/
inductive Exit
  | responded (error : GatewayError)
  | accessaTurn
  | internal
  | forwarded (ctx : PingoraContext)

/-- A part of the filter: it ends the filter or goes on with a value. -/
abbrev Stage (Value : Type) := Except Exit Value

/-- `respond_error` and `return Ok(true)` where the result is an error. -/
def orRespond {Value : Type} : GatewayResult Value → Stage Value
  | .ok value => .ok value
  | .error error => .error (.responded error)

/-- `respond_error` and `return Ok(true)` where a check fails. -/
def require (check : Bool) (error : GatewayError) : Stage Unit :=
  if check then .ok () else .error (.responded error)

/-! ### Credential headers -/

/-- The check that `validate_credential_headers` makes of one header. -/
def validateCredentialHeader (req : Request) (keyHeader name : Text) : GatewayResult Unit :=
  match Library.HeaderMap.getAll req.headers (lowerName name) with
  | [] => .ok ()
  | value :: others =>
    if !others.isEmpty || 16 * 1024 < value.length then .error .malformedAuthorization
    else
      match toStr value with
      | none => .error .malformedAuthorization
      | some value =>
        if name = keyHeader then do
          validateKeyText (trim value)
          if !relaynaKeyPrefix.isPrefixOf (trim value) || (trim value).length ≤ 16 then
            .error .malformedAuthorization
          else .ok ()
        else if name = authorizationHeader then
          match stripPrefix bearer value with
          | none => .error .malformedAuthorization
          | some token =>
            if (trim token).isEmpty || !(trim token).all isAsciiGraphic then
              .error .malformedAuthorization
            else if relaynaKeyPrefix.isPrefixOf (trim token) then validateKeyText (trim token)
            else .ok ()
        else .ok ()

def validateCredentialHeaders (req : Request) (keyHeader : Text) : GatewayResult Unit :=
  [authorizationHeader, keyHeader, apigeeIdentityHeader, apigeeSignatureHeader,
    "x-relayna-admission-context".toList, "x-relayna-worker-token".toList].forM
    (validateCredentialHeader req keyHeader)

/-! ### Sockets -/

def upgradeRequested (req : Request) : Bool :=
  req.containsKey "upgrade".toList || req.containsKey "sec-websocket-key".toList

def validHandshake (decodeBase64 : Text → Option (List UInt8)) (req : Request) : Bool :=
  req.method.bytes = Library.Json.ascii "GET" && req.http11 &&
    (texts ["upgrade", "sec-websocket-key", "sec-websocket-version", "authorization"]).all
      (fun name ↦ req.count name ≤ 1) &&
    (req.headerValue "upgrade".toList).any (eqIgnoreAsciiCase · "websocket".toList) &&
    (Library.HeaderMap.getAll req.headers "connection".toList).any (fun value ↦
      (toStr value).any fun value ↦ (value.splitOn ',').any fun part ↦
        eqIgnoreAsciiCase (trim part) "upgrade".toList) &&
    req.headerValue "sec-websocket-version".toList = some "13".toList &&
    ((req.headerValue "sec-websocket-key".toList).bind decodeBase64).any (·.length = 16) &&
    !req.containsKey "transfer-encoding".toList &&
    (Library.HeaderMap.getAll req.headers "content-length".toList).all
      (· = Library.Json.ascii "0")

/-! ### Routes -/

def isLitellmCanonicalRoute : Route → Bool
  | .chatCompletions | .responses | .liteLlmEmbeddings | .liteLlmRerank | .anthropicMessages
  | .anthropicMessagesCountTokens | .anthropicMessageBatches | .anthropicMessageBatch
  | .anthropicMessageBatchResults | .anthropicMessageBatchCancel | .anthropicModels => true
  | _ => false

def shouldCheckServiceRoutes (path : Pricing.Text) : Bool :=
  !startsWith path "/v1/" && !startsWith path "/providers/openai/"

def serviceRouteMatchForPersistedRegistration (method : Pricing.Method) (path : Pricing.Text)
    (serviceName : Pricing.Text) : RouteMatch :=
  if method.bytes = Library.Json.ascii "POST" ∧ isOneOf path ["/embeddings"] then
    .service .embeddings serviceName
  else
    match resolveMatch method path with
    | .ok matched =>
      if matched.provider = .internalService then .service matched.route serviceName
      else .service .serviceWildcard serviceName
    | .error _ => .service .serviceWildcard serviceName

def applyServiceRegistrationRuntimeLimits (matched : RouteMatch)
    (registration : ServiceRegistration) : Stage RouteMatch :=
  if 0 ≤ registration.timeoutMs ∧ 0 ≤ registration.maxBodyBytes then
    .ok { matched with
      timeoutMs := registration.timeoutMs.toNat
      maxBodyBytes := registration.maxBodyBytes.toNat
      maxResponseBodyBytes := 2 ^ 64 - 1
      estimatedCostUsd := registration.estimatedCostUsd }
  else .error .internal

def applyLitellmLimitsToMatch (matched : RouteMatch) (limits : LiteLlmRouteLimits) :
    GatewayResult RouteMatch :=
  if 0 ≤ limits.timeoutMs ∧ 0 ≤ limits.maxRequestBodyBytes ∧ 0 ≤ limits.maxResponseBodyBytes then
    .ok { matched with
      timeoutMs := limits.timeoutMs.toNat
      maxBodyBytes := limits.maxRequestBodyBytes.toNat
      maxResponseBodyBytes := limits.maxResponseBodyBytes.toNat }
  else .error .invalidConfiguration

/-- The match of a path that only passthrough serves. -/
def passthroughMatch : RouteMatch where
  route := .liteLlmPassthrough
  backend := .liteLlm
  provider := .liteLlm
  serviceName := none
  timeoutMs := 120000
  maxBodyBytes := 1048576
  maxResponseBodyBytes := 1048576
  estimatedCostUsd := none

def post : Pricing.Method :=
  ⟨Library.Json.ascii "POST", by decide, by decide⟩

section Filter

variable (replies : Replies) (req : Request)

/-- The path in the bytes that routes are matched on. -/
def pathBytes : Pricing.Text :=
  encode req.path

def methodText : Text :=
  req.method.bytes.map fun byte ↦ Char.ofNat byte.toNat

/-- The route of a registered service. -/
def matchService (registration : ServiceRegistration) (ctx : PingoraContext) :
    Stage (RouteMatch × PingoraContext) := do
  let upstream ← orRespond (replies.serviceUpstream registration)
  let matched := serviceRouteMatchForPersistedRegistration req.method (pathBytes req)
    registration.name
  let matched ← applyServiceRegistrationRuntimeLimits matched registration
  return (matched, { ctx with
    access := registration.access
    foundry := registration.foundry
    serviceRoutePattern := some registration.routePattern
    serviceUpstream := some upstream })

/-- A route of the gateway, or passthrough where the settings admit the path. -/
def matchRoute (ctx : PingoraContext) : Stage (RouteMatch × PingoraContext) :=
  let routeMethod := if upgradeRequested req && req.method.bytes = Library.Json.ascii "GET" &&
    isOneOf (pathBytes req) ["/responses", "/v1/responses"] then post else req.method
  match resolveMatch routeMethod (pathBytes req) with
  | .ok matched => .ok (matched, ctx)
  | .error _ => do
    let settings ← orRespond replies.routingSettings
    require (!settings.deniesPath req.path) .policyDenied
    if settings.allows (methodText req) req.path ||
        settings.trustedIngressPassthroughPathAllowed (methodText req) req.path then
      return (passthroughMatch, { ctx with litellmPassthrough := true })
    else
      .error (.responded (if settings.authenticationMode = .litellmBearer then .policyDenied
        else .unsupportedRoute))

/-- A registered service, or a route of the gateway. -/
def chooseRoute (registration : Option ServiceRegistration) (ctx : PingoraContext) :
    Stage (RouteMatch × PingoraContext) :=
  match registration with
  | some registration => matchService replies req registration ctx
  | none => matchRoute replies req ctx

/-- The name of a registered service does not get around the identity requirements of the service.
-/
def aliasAccess (access : EndpointAccess) (serviceName : Option Pricing.Text) :
    Stage EndpointAccess :=
  match serviceName with
  | none => .ok access
  | some name => do
    let registration ← orRespond (replies.aliasRegistration name)
    require (registration.all fun registration ↦ registration.access.accessa.isNone)
      .unsupportedRoute
    return (registration.map ServiceRegistration.access).getD access

/-- The identity requirements of the route. -/
def routeAccess (matched : RouteMatch) (ctx : PingoraContext) : Stage PingoraContext :=
  if ctx.serviceUpstream.isSome then .ok ctx
  else do
    let access ← orRespond (replies.routeIdentity matched.route)
    let access ← aliasAccess replies access matched.serviceName
    return { ctx with access }

/-- The direct mode of a canonical route obeys the denials of passthrough. -/
def checkRoutingMode (mode : OpenAiRouteMode) : Stage Unit :=
  match mode with
  | .directLiteLlmPassthrough => do
    let settings ← orRespond replies.directSettings
    require (!settings.deniesPath req.path) .policyDenied
  | .managedByGateway => .ok ()

def routeLimits (matched : RouteMatch) : Stage RouteMatch :=
  if isLitellmCanonicalRoute matched.route then do
    let mode ← orRespond replies.routingMode
    checkRoutingMode replies req mode
    let limits ← orRespond replies.routeLimits
    orRespond (applyLitellmLimitsToMatch matched limits)
  else if matched.route = .liteLlmPassthrough then do
    let limits ← orRespond replies.passthroughLimits
    orRespond (applyLitellmLimitsToMatch matched limits)
  else .ok matched

/-- The admission of a socket. -/
def admitUpgrade (matched : RouteMatch) (ctx : PingoraContext) : Stage PingoraContext :=
  if upgradeRequested req then
    let accessa := ctx.access.accessa.any fun binding ↦ binding.runPath = some req.path
    let general := ctx.access.websocket && ctx.access.accessa.isNone && !ctx.foundry &&
      ((matched.provider = .internalService && matched.serviceName.isSome) ||
        matched.route = .liteLlmPassthrough || matched.route = .responses)
    if (!accessa && !general) || !validHandshake replies.decodeBase64 req ||
        (accessa && req.containsKey "sec-websocket-extensions".toList) then
      .error (.responded .unsupportedRoute)
    else .ok { ctx with socket := true }
  else .ok ctx

/-! ### Credentials of the upstream -/

/-- The upstream with a credential: that of the active configuration, or that of the process with a
credential that was chosen for the request. -/
def upstreamWith (config : Option LiteLlmConfig) (selected : Text) (chosen : Bool)
    (ctx : PingoraContext) : GatewayResult PingoraContext :=
  match config with
  | some config =>
    match replies.parseBaseUrl config.baseUrl with
    | none => .error .invalidConfiguration
    | some (host, port, tls) =>
      if config.credentialHeaderMode = .customHeader && config.credentialHeaderName.isNone then
        .error .invalidConfiguration
      else
        .ok { ctx with litellmUpstream := some {
          host, port, tls
          serviceKey := selected
          credentialHeaderMode := config.credentialHeaderMode
          credentialHeaderName := config.credentialHeaderName.map trim
          credentialHeaderValueFormat := config.credentialHeaderValueFormat } }
  | none =>
    if chosen then
      .ok { ctx with litellmUpstream := some { replies.litellm with serviceKey := selected } }
    else .ok ctx

def mappedCredential (key : Option AuthenticatedKey) : GatewayResult (Option Text) :=
  match key with
  | some key => replies.credentialMapping key.keyId key.projectId
  | none => .ok none

def configureLitellmUpstreamForCredential (ctx : PingoraContext) (key : Option AuthenticatedKey)
    (passthroughCredential : Option Text) : GatewayResult PingoraContext := do
  let config ← replies.activeLitellmConfig
  let mapped ← mappedCredential replies key
  let selected := ((passthroughCredential.or mapped).or (config.bind LiteLlmConfig.credential)).getD
    replies.litellm.serviceKey
  if (trim selected).isEmpty then .error .invalidConfiguration
  else upstreamWith replies config selected (mapped.isSome || passthroughCredential.isSome) ctx

/-- The headers of a request that its own LiteLLM credential may not be mixed with. -/
def mixesCredentials (auth : AuthSnapshot) : Bool :=
  1 < req.count authorizationHeader || req.containsKey auth.relaynaKeyHeader ||
    req.containsKey apigeeIdentityHeader || req.containsKey apigeeSignatureHeader

/-- The LiteLLM credential of the caller. -/
def ownCredential (mixed : Bool) : GatewayResult Text :=
  if mixed then .error .malformedAuthorization
  else litellmBearerCredential (req.headerValue authorizationHeader)

/-- Passthrough that the caller pays with a LiteLLM credential of its own. It lets the request
through or does not apply. -/
def litellmBearerMode (auth : AuthSnapshot) (matched : RouteMatch) (ctx : PingoraContext) :
    Stage Unit :=
  if matched.route = .liteLlmPassthrough && ctx.litellmPassthrough then do
    let settings ← orRespond replies.bearerSettings
    if settings.authenticationMode = .litellmBearer then do
      require (settings.allows (methodText req) req.path &&
        settings.sensitiveExposureForPath req.path ≠ some .operatorOnly) .policyDenied
      require (!(ctx.access.authenticationProfiles.isSome || ctx.access.entra.isSome ||
        (!ctx.access.skipEntra && (auth.entraEnabled || auth.unverifiedBearerEnabled))))
        .liteLlmAuthenticationConflict
      let credential ← orRespond (ownCredential req (mixesCredentials req auth))
      let ctx ← orRespond (configureLitellmUpstreamForCredential replies ctx none (some credential))
      .error (.forwarded { ctx with directLitellmPassthrough := true, routeMatch := some matched })
    else return ()
  else .ok ()

/-! ### Identity -/

def profileKey (auth : AuthSnapshot) : GatewayResult AuthenticatedKey :=
  let authorization := req.headerValue authorizationHeader
  let dedicated := req.headerValue auth.relaynaKeyHeader
  if 1 < req.count authorizationHeader || 1 < req.count auth.relaynaKeyHeader ||
      (dedicated.isSome && authorizationHasRelaynaKey authorization) then
    .error .malformedAuthorization
  else if dedicated.isSome then authenticateRawKey replies.authenticateVirtualKey dedicated
  else authenticateAuthorization replies.authenticateVirtualKey authorization

/-- Route-local profiles: the key selects the policy, and a policy without Entra takes one key and
nothing else. -/
def selectProfile (auth : AuthSnapshot) (ctx : PingoraContext) :
    Stage (Option AuthenticatedKey × Option EndpointPolicy) :=
  match ctx.access.authenticationProfiles with
  | none => .ok (none, ctx.access.entra)
  | some profiles => do
    orRespond (profiles.validate replies.toLowercase ctx.access.accessa.isSome)
    let key ← orRespond (profileKey replies req auth)
    let profile ← orRespond (profiles.select key.keyId)
    require (profile.entra.isSome ||
      !(((req.headerValue auth.relaynaKeyHeader).isSome &&
        (req.headerValue authorizationHeader).isSome) || req.assertsApigee)) .malformedAuthorization
    return (some key, profile.entra)

def endpointIdentity (auth : AuthSnapshot) (policy : Option EndpointPolicy) :
    Stage (Option EntraIdentityContext) :=
  match policy with
  | none => .ok none
  | some policy =>
    orRespond ((verifyEndpointIdentity replies.identity auth replies.now req policy).map some)

def forwardedUserToken (ctx : PingoraContext) : GatewayResult (Option Text) :=
  match ctx.access.userTokenForwarding with
  | none => .ok none
  | some config => do
    config.validate
    if ctx.access.accessa.isNone || lowerName config.header = lowerName ctx.relaynaKeyHeader then
      .error .invalidConfiguration
    else if !config.enabled then .ok none
    else if ctx.entraIdentity.all (fun identity ↦ identity.source ≠ .jwt) ||
        req.count authorizationHeader ≠ 1 then
      .error .invalidEntraToken
    else
      match ((req.headerValue authorizationHeader).bind (stripPrefix bearer)).map trim with
      | some token => if token.isEmpty then .error .missingEntraAuthorization else .ok (some token)
      | none => .error .missingEntraAuthorization

/-- The browser and admin paths of LiteLLM on trusted ingress. It lets the request through or does
not apply. -/
def trustedIngress (matched : RouteMatch) (ctx : PingoraContext) : Stage Unit :=
  if ctx.access.authenticationProfiles.isNone && !ctx.socket && ctx.litellmPassthrough &&
      matched.route = .liteLlmPassthrough then do
    let settings ← orRespond replies.ingressSettings
    if settings.trustedIngressPassthroughPathAllowed (methodText req) req.path then do
      let ctx ← orRespond (configureLitellmUpstreamForCredential replies ctx none none)
      .error (.forwarded { ctx with trustedIngressPassthrough := true, routeMatch := some matched })
    else return ()
  else .ok ()

/-- A canonical route in direct mode that the caller pays with a LiteLLM credential of its own. It
lets the request through or does not apply. -/
def directRoute (auth : AuthSnapshot) (matched : RouteMatch) (ctx : PingoraContext) : Stage Unit :=
  if isLitellmCanonicalRoute matched.route then do
    let mode ← orRespond replies.credentialMode
    if mode = .directLiteLlmPassthrough && ctx.access.authenticationProfiles.isNone &&
        ctx.access.entra.isNone &&
        !authorizationHasRelaynaKey (req.headerValue authorizationHeader) &&
        (!ctx.access.skipEntra || (req.headerValue auth.relaynaKeyHeader).isNone) then do
      let enabled ← orRespond replies.routeEnabled
      require enabled .disabledRoute
      let credential ← orRespond (ownCredential req (ctx.socket && mixesCredentials req auth))
      let ctx ← orRespond (configureLitellmUpstreamForCredential replies ctx none (some credential))
      .error (.forwarded { ctx with
        litellmPassthrough := true
        directLitellmPassthrough := true
        routeMatch := some matched })
    else return ()
  else .ok ()

/-- The key of the request and the identity that the gateway asks for where the endpoint asks for
none. -/
def authenticateKey (auth : AuthSnapshot) (profileKey : Option AuthenticatedKey)
    (ctx : PingoraContext) : Stage (AuthenticatedKey × Option EntraIdentityContext) :=
  let authorization := req.headerValue authorizationHeader
  let dedicated := req.headerValue auth.relaynaKeyHeader
  let byDedicated := authenticateRawKey replies.authenticateVirtualKey dedicated
  match profileKey with
  | some key => .ok (key, ctx.entraIdentity)
  | none =>
    if ctx.access.entra.isSome then do return (← orRespond byDedicated, ctx.entraIdentity)
    else if ctx.access.skipEntra then
      if dedicated.isSome then do return (← orRespond byDedicated, ctx.entraIdentity)
      else do
        return (← orRespond (authenticateAuthorization replies.authenticateVirtualKey
          authorization),
          ctx.entraIdentity)
    else if auth.unverifiedBearerEnabled then do
      orRespond (requireUnverifiedBearer authorization)
      return (← orRespond byDedicated, ctx.entraIdentity)
    else if auth.entraEnabled then do
      let identity ← orRespond (verifyEntraRequest replies.identity auth req)
      return (← orRespond byDedicated, some identity)
    else do
      return (← orRespond (authenticateAuthorization replies.authenticateVirtualKey authorization),
        ctx.entraIdentity)

def governedBatchLifecycleDenied : Bool :=
  (isOneOf (pathBytes req) ["/v1/messages/batches"] &&
    req.method.bytes ≠ Library.Json.ascii "POST") ||
    startsWith (pathBytes req) "/v1/messages/batches/"

def sensitiveLitellmPassthroughAuthorized (exposure : Option LiteLlmSensitiveRouteExposure)
    (identity : Option EntraIdentityContext) : Bool :=
  match exposure with
  | some .disabled => false
  | some .operatorOnly => identity.isSome
  | some .explicitlyExposed | some .trustedIngress | none => true

/-- The upstream of a service that was named and not matched by its pattern. -/
def namedService (matched : RouteMatch) (ctx : PingoraContext) :
    Stage (RouteMatch × PingoraContext) :=
  match matched.serviceName with
  | none => .ok (matched, ctx)
  | some name => do
    let registration ← orRespond ((replies.serviceRegistration name).bind fun registration ↦
      registration.elim (.error .missingService) .ok)
    require (registration.allowedMethods.any fun method ↦ eqIgnoreAsciiCase method (methodText req))
      .unsupportedRoute
    let upstream ← orRespond (replies.serviceUpstream registration)
    let matched ← applyServiceRegistrationRuntimeLimits matched registration
    return (matched, { ctx with
      foundry := ctx.foundry || registration.foundry
      serviceRoutePattern := some registration.routePattern
      serviceUpstream := some upstream })

/-- A canonical route in direct mode passes through. -/
def enterDirectMode (matched : RouteMatch) (ctx : PingoraContext) : Stage PingoraContext :=
  if isLitellmCanonicalRoute matched.route then do
    let mode ← orRespond replies.finalMode
    return { ctx with
      litellmPassthrough := ctx.litellmPassthrough || mode = .directLiteLlmPassthrough }
  else .ok ctx

/-- Sensitive paths of LiteLLM ask for more than a key. -/
def checkExposure (matched : RouteMatch) (ctx : PingoraContext) : Stage Unit :=
  if ctx.litellmPassthrough && matched.route = .liteLlmPassthrough then do
    let settings ← orRespond replies.exposureSettings
    require (sensitiveLitellmPassthroughAuthorized (settings.sensitiveExposureForPath req.path)
      ctx.entraIdentity) .insufficientEntraAuthorization
  else .ok ()

/-- LiteLLM is called with the credential that belongs to the key. -/
def chooseUpstream (matched : RouteMatch) (key : AuthenticatedKey) (ctx : PingoraContext) :
    Stage PingoraContext :=
  if matched.provider = .liteLlm then
    orRespond (configureLitellmUpstreamForCredential replies ctx (some key) none)
  else .ok ctx

/-- What remains once the key is authenticated. -/
def authenticated (matched : RouteMatch) (key : AuthenticatedKey) (ctx : PingoraContext) :
    Stage PingoraContext := do
  require (!governedBatchLifecycleDenied req) .policyDenied
  orRespond replies.guardrailDefinitions
  if matched.serviceName.isSome && ctx.serviceUpstream.isSome then
    return { ctx with key := some key, routeMatch := some matched }
  else do
    let (matched, ctx) ← namedService replies req matched { ctx with key := some key }
    let ctx ← enterDirectMode replies matched ctx
    checkExposure replies req matched ctx
    let ctx ← chooseUpstream replies matched key ctx
    return { ctx with routeMatch := some matched }

/-- The filter after the route, its limits and its identity requirements are known. -/
def authenticateRequest (auth : AuthSnapshot) (matched : RouteMatch) (ctx : PingoraContext) :
    Stage PingoraContext := do
  litellmBearerMode replies req auth matched ctx
  let (profileKey, policy) ← selectProfile replies req auth ctx
  let identity ← endpointIdentity replies req auth policy
  let ctx := { ctx with key := profileKey, entraIdentity := identity }
  let _ ← orRespond (forwardedUserToken req ctx)
  trustedIngress replies req matched ctx
  directRoute replies req auth matched ctx
  -- A socket never uses a LiteLLM credential of the gateway.
  require (!(ctx.socket && matched.provider = .liteLlm)) .unsupportedRoute
  let (key, identity) ← authenticateKey replies req auth profileKey ctx
  authenticated replies req matched key { ctx with entraIdentity := identity }

/-- The route, the identity requirements, the limits and the admission of a socket. -/
def route (ctx : PingoraContext) : Stage (RouteMatch × PingoraContext) := do
  let registration ← orRespond (if shouldCheckServiceRoutes (pathBytes req) then
    replies.serviceRegistrationForRoute else .ok none)
  let (matched, ctx) ← chooseRoute replies req registration ctx
  let ctx ← routeAccess replies matched ctx
  let matched ← routeLimits replies req matched
  let ctx ← admitUpgrade replies req matched ctx
  return ({ matched with
    estimatedCostUsd := if ctx.access.accessa.isSome then none else matched.estimatedCostUsd }, ctx)

/-- Turns of Accessa have a handler of their own. -/
def leaveAccessaTurns : Stage Unit :=
  if startsWith (pathBytes req) "/internal/accessa/admissions/" then .error .accessaTurn else .ok ()

/-- The filter up to the context that it leaves behind. -/
def filtered : Stage PingoraContext := do
  orRespond replies.requestAdmission
  let auth ← orRespond replies.snapshot
  orRespond (validateCredentialHeaders req auth.relaynaKeyHeader)
  leaveAccessaTurns req
  let (matched, ctx) ← route replies req .new
  authenticateRequest replies req auth matched
    { ctx with relaynaKeyHeader := auth.relaynaKeyHeader }

def requestFilter : Exit :=
  match filtered replies req with
  | .ok ctx => .forwarded ctx
  | .error exit => exit

end Filter

end Relayna.Proxy.RequestFilter

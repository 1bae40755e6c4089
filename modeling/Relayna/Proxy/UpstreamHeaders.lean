import Relayna.Library.Staged
import Relayna.Proxy.RequestFilter

/-!
# The headers that an upstream sees

`upstream_request_filter` of `crates/gateway-proxy/src/pingora_plane.rs` starts from the headers of
the client and takes credentials away, puts in those of the upstream, and adds what the gateway
knows of the request: the identity of an Accessa caller, the identifiers of the key, of its project
and of the request. It is a program of edits that the context determines; the only thing it reads of
the client is the token that an Accessa endpoint forwards.

`upstream_headers_from_gateway` is what follows for any two clients: with credential headers and
identity headers of their own choice they cannot make the upstream see a difference. The rewriting
of the URI is left out, and so is the telemetry.
-/

set_option autoImplicit false
set_option relaxedAutoImplicit false

namespace Relayna.Proxy.UpstreamHeaders

open Relayna.Auth.Entra (Text EntraIdentityContext)
open Relayna.Library.HeaderMap (Headers Edit applyAll AgreeOff getAll lastValues)
open Relayna.Library.Utf8 (encode decode)
open Relayna.Passthrough.PathPolicy (texts)
open Relayna.Proxy.Credentials
open Relayna.Proxy.RequestFilter

/-! ### The context of the filter -/

/-- The part of the context that later phases have added. `passthroughCost` says that the cost of
the service may come from its response, `guarded` that a guardrail looks at the request. -/
structure Outgoing extends PingoraContext where
  requestId : Text
  traceparent : Option Text
  taskId : Option Text
  runId : Option Text
  passthroughCost : Bool
  admissionToken : Option Text
  guarded : Bool
  rewrittenRequestLen : Option ℕ

/-- The rules of the `http` crate for names and values. -/
structure Syntax where
  name : Text → Bool
  value : Text → Bool

abbrev Edits := List (Edit Text (List UInt8))

/-- `remove_header` for each name. -/
def removeHeaders (names : List Text) : Edits :=
  names.map fun name ↦ .remove (lowerName name)

def decimal (value : ℕ) : Text :=
  Nat.toDigits 10 value

/-- `Uuid::to_string`. -/
def uuidToString (id : Uuid) : Text :=
  let digits := (List.range 32).map fun index ↦ Nat.digitChar (id.toNat / 16 ^ (31 - index) % 16)
  let part := fun first last ↦ (digits.take last).drop first
  part 0 8 ++ '-' :: part 8 12 ++ '-' :: part 12 16 ++ '-' :: part 16 20 ++ '-' :: part 20 32

/-- `PingoraUpstreamConfig::host_header_value`. -/
def hostHeaderValue (upstream : PingoraUpstreamConfig) : Text :=
  let host := if upstream.host.contains ':' && upstream.host.head? ≠ some '[' then
    '[' :: upstream.host ++ [']'] else upstream.host
  if (upstream.tls && upstream.port = 443) || (!upstream.tls && upstream.port = 80) then host
  else host ++ ':' :: decimal upstream.port

/-- `Bearer` and the key of the upstream. -/
def bearerValue (upstream : PingoraUpstreamConfig) : Text :=
  bearer ++ upstream.serviceKey

def customHeaderCredentialValue (upstream : PingoraUpstreamConfig) : Text :=
  match upstream.credentialHeaderValueFormat with
  | .raw => upstream.serviceKey
  | .bearer => bearerValue upstream

section Filter

variable (rules : Syntax)

/-- `insert_header`, which fails where the name or the value is not one of HTTP. -/
def insertHeader (name value : Text) : Option Edits :=
  if rules.name name && rules.value value then some [.insert (lowerName name) (encode value)]
  else none

/-- `insert_header` for a value that may be missing. -/
def insertSome (name : Text) (value : Option Text) : Option Edits :=
  match value with
  | none => some []
  | some value => insertHeader rules name value

/-- The credential headers that no client passes on. -/
def strippedHeaders : List Text :=
  texts ["x-relayna-admission-context", "authorization", "host", "x-apigee-entra-identity",
    "x-apigee-entra-signature", "proxy-authorization", "cookie"]

/-- The other names under which keys are sent. -/
def strippedKeyHeaders : List Text :=
  texts ["x-relayna-key", "x-aih-api-key", "x-api-key", "x-litellm-api-key", "x-litellm-key",
    "x-relayna-worker-token"]

def credentialEdits (upstream : PingoraUpstreamConfig) : Option Edits :=
  match upstream.credentialHeaderMode with
  | .authorizationBearer => insertHeader rules authorizationHeader (bearerValue upstream)
  | .customHeader =>
    upstream.credentialHeaderName.bind fun name ↦
      insertHeader rules name (customHeaderCredentialValue upstream)

def prepareUpstreamAuthorityAndCredentials (upstream : PingoraUpstreamConfig)
    (relaynaKeyHeader : Text) : Option Edits := do
  let host ← insertHeader rules "host".toList (hostHeaderValue upstream)
  let credential ← credentialEdits rules upstream
  return removeHeaders (strippedHeaders ++ relaynaKeyHeader :: strippedKeyHeaders ++
    upstream.credentialHeaderName.toList) ++ host ++ credential

/-- The credentials of a socket that the caller pays. -/
def socketCredential (upstream : PingoraUpstreamConfig) (ctx : Outgoing) : Option Edits :=
  if ctx.socket && ctx.directLitellmPassthrough then
    insertHeader rules authorizationHeader (bearerValue upstream)
  else some []

/-- Costs are read from a response that is not compressed. -/
def costEncoding (ctx : Outgoing) : Option Edits :=
  if ctx.passthroughCost then insertHeader rules "accept-encoding".toList "identity".toList
  else some []

def callerHeaders : List Text :=
  texts ["x-caller-oid", "x-caller-upn", "x-caller-groups", "x-caller-tenant", "x-route-app",
    "x-route-channel", "x-relayna-admission-context"]

/-- The name under which tokens are forwarded by default. -/
def accessTokenHeader : Text := "x-access-token".toList

/-- The token of the caller, where an Accessa endpoint forwards it. -/
def tokenEdits (config : Option UserTokenForwarding) (token : Option Text) : Option Edits :=
  match config with
  | none => some []
  | some config => do
    let inserted ← insertSome rules config.header token
    return removeHeaders [config.header] ++ inserted

/-- The default name is stripped even where another name is configured. -/
def accessTokenEdits (config : Option UserTokenForwarding) : Edits :=
  if config.all fun config ↦ !config.enabled || lowerName config.header ≠ accessTokenHeader then
    removeHeaders [accessTokenHeader]
  else []

/-- What an Accessa application is told of its caller. -/
def identityEdits (ctx : Outgoing) (binding : AccessaBinding) (identity : EntraIdentityContext) :
    Option Edits := do
  let objectId ← insertHeader rules "x-caller-oid".toList (identity.objectId.getD [])
  let tenant ← insertHeader rules "x-caller-tenant".toList identity.tenantId
  let upn ← insertSome rules "x-caller-upn".toList identity.email
  let groups ← insertHeader rules "x-caller-groups".toList (List.intercalate [','] identity.groups)
  let channel ← insertHeader rules "x-route-channel".toList binding.channel
  let app ← insertSome rules "x-route-app".toList binding.app
  let requestId ← insertHeader rules "x-request-id".toList ctx.requestId
  let admission ← insertSome rules "x-relayna-admission-context".toList ctx.admissionToken
  return objectId ++ tenant ++ upn ++ groups ++ channel ++ app ++ requestId ++ admission

/-- The headers of an Accessa endpoint, given the token that it forwards. -/
def accessaEdits (ctx : Outgoing) (token : Option Text) : Option Edits :=
  match ctx.access.accessa with
  | none => some []
  | some binding => do
    let forwarded ← tokenEdits rules ctx.access.userTokenForwarding token
    let identity ← ctx.entraIdentity
    let identity ← identityEdits rules ctx binding identity
    return forwarded ++ removeHeaders callerHeaders ++
      accessTokenEdits ctx.access.userTokenForwarding ++ identity

/-- The headers that Foundry does not see. -/
def foundryHeaders : List Text :=
  texts ["api-key", "cookie", "openai-organization", "openai-project", "foundry-features",
    "x-ms-client-principal", "x-ms-authorization-auxiliary"]

/-- What the gateway tells of the request. -/
def relaynaEdits (ctx : Outgoing) : Option Edits := do
  let requestId ← insertHeader rules "x-relayna-request-id".toList ctx.requestId
  let traceparent ← insertSome rules "traceparent".toList ctx.traceparent
  let keyId ← insertSome rules "x-relayna-key-id".toList
    (ctx.key.map fun key ↦ uuidToString key.keyId)
  let projectId ← insertSome rules "x-relayna-project-id".toList
    ((ctx.key.bind fun key ↦ key.projectId).map uuidToString)
  let taskId ← insertSome rules "x-relayna-task-id".toList ctx.taskId
  let runId ← insertSome rules "x-relayna-run-id".toList ctx.runId
  let service ← insertSome rules "x-relayna-service".toList
    ((ctx.routeMatch.bind fun matched ↦ matched.serviceName).bind decode)
  return requestId ++ traceparent ++ keyId ++ projectId ++ taskId ++ runId ++ service

def prepareRewrittenRequestHeaders (rewrittenLen : ℕ) : Edits :=
  removeHeaders (texts ["Content-Length", "Transfer-Encoding"]) ++
    [.insert "content-length".toList (encode (decimal rewrittenLen))]

/-- The framing of a body that was rewritten. -/
def framingEdits (ctx : Outgoing) : Edits :=
  if ctx.foundry || ctx.guarded then
    (ctx.rewrittenRequestLen.map prepareRewrittenRequestHeaders).getD []
  else []

def foundryFraming (ctx : Outgoing) : Option Edits :=
  if ctx.foundry then do
    let encoding ← insertHeader rules "transfer-encoding".toList "chunked".toList
    let content ← insertHeader rules "content-type".toList "application/json".toList
    return removeHeaders (texts ["content-length"]) ++ encoding ++ content
  else some []

/-- The edits of `upstream_request_filter`, given the token that is forwarded. -/
def upstreamEdits (upstream : PingoraUpstreamConfig) (ctx : Outgoing) (token : Option Text) :
    Option Edits := do
  let prepared ← prepareUpstreamAuthorityAndCredentials rules upstream ctx.relaynaKeyHeader
  let socket ← socketCredential rules upstream ctx
  let encoding ← costEncoding rules ctx
  let accessa ← accessaEdits rules ctx token
  let relayna ← relaynaEdits rules ctx
  let foundry ← foundryFraming rules ctx
  return removeHeaders
      (if ctx.socket && ctx.directLitellmPassthrough then texts ["api-key"] else []) ++
    prepared ++ socket ++
    removeHeaders (if ctx.socket then texts ["sec-websocket-extensions"] else []) ++ encoding ++
    accessa ++ removeHeaders (if ctx.foundry then foundryHeaders else []) ++ relayna ++
    framingEdits ctx ++ foundry

/-- The token that is asked for: only an Accessa endpoint asks. -/
def askedToken (ctx : Outgoing) (req : Request) : GatewayResult (Option Text) :=
  if ctx.access.accessa.isSome then forwardedUserToken req ctx.toPingoraContext else .ok none

/-- `upstream_request_filter`: the headers that the upstream sees, unless the filter fails. -/
def upstreamRequestFilter (upstream : PingoraUpstreamConfig) (ctx : Outgoing) (req : Request) :
    Option (Headers Text (List UInt8)) := do
  let token ← (askedToken ctx req).toOption
  let edits ← upstreamEdits rules upstream ctx token
  return applyAll req.headers edits

end Filter

/-! ### Which names are edited -/

section Names

variable {rules : Syntax} {upstream : PingoraUpstreamConfig} {ctx : Outgoing}

theorem insertHeader_eq_some {name value : Text} {edits : Edits} :
    insertHeader rules name value = some edits ↔
      (rules.name name && rules.value value) = true ∧
        edits = [.insert (lowerName name) (encode value)] := by
  unfold insertHeader
  split_ifs with hvalid
  · simp [hvalid, eq_comm]
  · simp [hvalid]

/-- A value that was inserted, if there is one. -/
theorem insertSome_eq_some {name : Text} {value : Option Text} {edits : Edits}
    (hinserted : insertSome rules name value = some edits) :
    edits = value.toList.map fun value ↦ .insert (lowerName name) (encode value) := by
  cases value with
  | none => exact (Option.some.inj hinserted).symm
  | some value => exact (insertHeader_eq_some.mp hinserted).2

/-- Every edit of a program is about one of the names. -/
def Within (names : List Text) (edits : Edits) : Prop :=
  ∀ edit ∈ edits, edit.name ∈ names

theorem Within.lastValues {names : List Text} {edits : Edits} (hwithin : Within names edits)
    {name : Text} (hname : name ∉ names) : lastValues name edits = none :=
  Library.HeaderMap.lastValues_eq_none fun edit hedit hsame ↦ hname (hsame ▸ hwithin edit hedit)

theorem Within.append {names : List Text} {earlier later : Edits} (hearlier : Within names earlier)
    (hlater : Within names later) : Within names (earlier ++ later) :=
  fun edit hedit ↦ (List.mem_append.mp hedit).elim (hearlier edit) (hlater edit)

theorem within_removeHeaders (names : List Text) :
    Within (names.map lowerName) (removeHeaders names) := by
  intro edit hedit
  obtain ⟨name, hname, rfl⟩ := List.mem_map.mp hedit
  exact List.mem_map_of_mem hname

theorem within_insertHeader {names : List Text} {name value : Text} {edits : Edits}
    (hinserted : insertHeader rules name value = some edits) (hname : lowerName name ∈ names) :
    Within names edits := by
  obtain rfl := (insertHeader_eq_some.mp hinserted).2
  intro edit hedit
  obtain rfl := List.mem_singleton.mp hedit
  exact hname

theorem within_insertSome {names : List Text} {name : Text} {value : Option Text} {edits : Edits}
    (hinserted : insertSome rules name value = some edits) (hname : lowerName name ∈ names) :
    Within names edits := by
  obtain rfl := insertSome_eq_some hinserted
  intro edit hedit
  obtain ⟨value, -, rfl⟩ := List.mem_map.mp hedit
  exact hname

/-- A removed name is edited. -/
theorem exists_removed {names : List Text} {name : Text} (hname : name ∈ names.map lowerName) :
    ∃ edit ∈ removeHeaders names, edit.name = name := by
  obtain ⟨listed, hlisted, rfl⟩ := List.mem_map.mp hname
  exact ⟨_, List.mem_map_of_mem hlisted, rfl⟩

/-- The names of `relaynaEdits`. -/
def relaynaHeaders : List Text :=
  texts ["x-relayna-request-id", "traceparent", "x-relayna-key-id", "x-relayna-project-id",
    "x-relayna-task-id", "x-relayna-run-id", "x-relayna-service"]

theorem within_relaynaEdits {edits : Edits} (hrelayna : relaynaEdits rules ctx = some edits) :
    Within relaynaHeaders edits := by
  simp only [relaynaEdits, Option.bind_eq_bind, Option.bind_eq_some_iff, Option.pure_def,
    Option.some.injEq] at hrelayna
  obtain ⟨requestId, hrequestId, traceparent, htraceparent, keyId, hkeyId, projectId, hprojectId,
    taskId, htaskId, runId, hrunId, service, hservice, rfl⟩ := hrelayna
  refine .append (.append (.append (.append (.append (.append ?_ ?_) ?_) ?_) ?_) ?_) ?_
  · exact within_insertHeader hrequestId (by decide)
  · exact within_insertSome htraceparent (by decide)
  · exact within_insertSome hkeyId (by decide)
  · exact within_insertSome hprojectId (by decide)
  · exact within_insertSome htaskId (by decide)
  · exact within_insertSome hrunId (by decide)
  · exact within_insertSome hservice (by decide)

/-- The names that frame a body. -/
def framingHeaders : List Text :=
  texts ["content-length", "transfer-encoding", "content-type"]

theorem within_framingEdits : Within framingHeaders (framingEdits ctx) := by
  unfold framingEdits
  split_ifs
  · cases ctx.rewrittenRequestLen with
    | none => exact fun edit hedit ↦ absurd hedit List.not_mem_nil
    | some rewrittenLen =>
      refine .append (fun edit hedit ↦ ?_) fun edit hedit ↦ ?_
      · exact (show ∀ name ∈ (texts ["Content-Length", "Transfer-Encoding"]).map lowerName,
          name ∈ framingHeaders by decide) _ (within_removeHeaders _ edit hedit)
      · obtain rfl := List.mem_singleton.mp hedit
        exact List.mem_cons_self
  · exact fun edit hedit ↦ absurd hedit List.not_mem_nil

theorem within_foundryFraming {edits : Edits} (hframing : foundryFraming rules ctx = some edits) :
    Within framingHeaders edits := by
  unfold foundryFraming at hframing
  split_ifs at hframing
  · simp only [Option.bind_eq_bind, Option.bind_eq_some_iff, Option.pure_def,
      Option.some.injEq] at hframing
    obtain ⟨encoding, hencoding, content, hcontent, rfl⟩ := hframing
    refine .append (.append (fun edit hedit ↦ ?_) ?_) ?_
    · exact (show ∀ name ∈ (texts ["content-length"]).map lowerName, name ∈ framingHeaders by
        decide)
        _ (within_removeHeaders _ edit hedit)
    · exact within_insertHeader hencoding (by decide)
    · exact within_insertHeader hcontent (by decide)
  · obtain rfl := Option.some.inj hframing
    exact fun edit hedit ↦ absurd hedit List.not_mem_nil

/-- The names of `identityEdits`. -/
def identityHeaders : List Text :=
  texts ["x-caller-oid", "x-caller-tenant", "x-caller-upn", "x-caller-groups", "x-route-channel",
    "x-route-app", "x-request-id", "x-relayna-admission-context"]

/-- What the identity edits leave for the names of an identity. -/
theorem lastValues_identityEdits {binding : AccessaBinding} {identity : EntraIdentityContext}
    {edits : Edits} (hidentity : identityEdits rules ctx binding identity = some edits) :
    Within identityHeaders edits ∧
      lastValues "x-caller-oid".toList edits = some [encode (identity.objectId.getD [])] ∧
      lastValues "x-caller-tenant".toList edits = some [encode identity.tenantId] ∧
      lastValues "x-caller-upn".toList edits = identity.email.map (fun upn ↦ [encode upn]) ∧
      lastValues "x-caller-groups".toList edits =
        some [encode (List.intercalate [','] identity.groups)] ∧
      lastValues "x-route-channel".toList edits = some [encode binding.channel] ∧
      lastValues "x-route-app".toList edits = binding.app.map (fun app ↦ [encode app]) := by
  simp only [identityEdits, Option.bind_eq_bind, Option.bind_eq_some_iff, Option.pure_def,
    Option.some.injEq] at hidentity
  obtain ⟨objectId, hobjectId, tenant, htenant, upn, hupn, groups, hgroups, channel, hchannel, app,
    happ, requestId, hrequestId, admission, hadmission, rfl⟩ := hidentity
  constructor
  · refine .append (.append (.append (.append (.append (.append (.append ?_ ?_) ?_) ?_) ?_) ?_) ?_)
      ?_
    · exact within_insertHeader hobjectId (by decide)
    · exact within_insertHeader htenant (by decide)
    · exact within_insertSome hupn (by decide)
    · exact within_insertHeader hgroups (by decide)
    · exact within_insertHeader hchannel (by decide)
    · exact within_insertSome happ (by decide)
    · exact within_insertHeader hrequestId (by decide)
    · exact within_insertSome hadmission (by decide)
  · obtain rfl := (insertHeader_eq_some.mp hobjectId).2
    obtain rfl := (insertHeader_eq_some.mp htenant).2
    obtain rfl := insertSome_eq_some hupn
    obtain rfl := (insertHeader_eq_some.mp hgroups).2
    obtain rfl := (insertHeader_eq_some.mp hchannel).2
    obtain rfl := insertSome_eq_some happ
    obtain rfl := (insertHeader_eq_some.mp hrequestId).2
    obtain rfl := insertSome_eq_some hadmission
    cases identity.email <;> cases binding.app <;> cases ctx.admissionToken <;>
      exact ⟨rfl, rfl, rfl, rfl, rfl, rfl⟩

theorem lastValues_removeHeaders {name : Text} {names : List Text}
    (hname : name ∈ names.map lowerName) : lastValues name (removeHeaders names) = some [] := by
  obtain ⟨values, hvalues⟩ := Option.isSome_iff_exists.mp
    (Library.HeaderMap.lastValues_isSome (exists_removed hname))
  have hempty : ∀ names : List Text, ∀ values ∈ lastValues name (removeHeaders names),
      values = [] := by
    intro names
    induction names with
    | nil => simp [removeHeaders]
    | cons first rest ih =>
      intro values hvalues
      rw [removeHeaders, List.map_cons, Library.HeaderMap.lastValues_cons] at hvalues
      rcases Option.or_eq_some_iff.mp hvalues with hlater | ⟨-, hfirst⟩
      · exact ih values hlater
      · split_ifs at hfirst
        exact (Option.some.inj hfirst).symm
  rw [hvalues, hempty names values hvalues]

/-- The edits of the filter, part by part. -/
structure Parts (rules : Syntax) (upstream : PingoraUpstreamConfig) (ctx : Outgoing)
    (token : Option Text) where
  prepared : Edits
  socket : Edits
  encoding : Edits
  accessa : Edits
  relayna : Edits
  foundry : Edits
  hprepared : prepareUpstreamAuthorityAndCredentials rules upstream ctx.relaynaKeyHeader =
    some prepared
  hsocket : socketCredential rules upstream ctx = some socket
  hencoding : costEncoding rules ctx = some encoding
  haccessa : accessaEdits rules ctx token = some accessa
  hrelayna : relaynaEdits rules ctx = some relayna
  hfoundry : foundryFraming rules ctx = some foundry

variable {token : Option Text}

/-- What comes before the Accessa headers. -/
def Parts.front (parts : Parts rules upstream ctx token) : Edits :=
  removeHeaders (if ctx.socket && ctx.directLitellmPassthrough then texts ["api-key"] else []) ++
    parts.prepared ++ parts.socket ++
    removeHeaders (if ctx.socket then texts ["sec-websocket-extensions"] else []) ++ parts.encoding

/-- What comes after the Accessa headers. -/
def Parts.back (parts : Parts rules upstream ctx token) : Edits :=
  removeHeaders (if ctx.foundry then foundryHeaders else []) ++ parts.relayna ++ framingEdits ctx ++
    parts.foundry

theorem upstreamEdits_eq_some {edits : Edits}
    (hedits : upstreamEdits rules upstream ctx token = some edits) :
    ∃ parts : Parts rules upstream ctx token, edits = parts.front ++ parts.accessa ++
      parts.back := by
  simp only [upstreamEdits, Option.bind_eq_bind, Option.bind_eq_some_iff, Option.pure_def,
    Option.some.injEq] at hedits
  obtain ⟨prepared, hprepared, socket, hsocket, encoding, hencoding, accessa, haccessa, relayna,
    hrelayna, foundry, hfoundry, rfl⟩ := hedits
  refine ⟨⟨prepared, socket, encoding, accessa, relayna, foundry, hprepared, hsocket, hencoding,
    haccessa, hrelayna, hfoundry⟩, ?_⟩
  simp only [Parts.front, Parts.back, List.append_assoc]

/-- The names of the edits behind those of Accessa. -/
def backHeaders : List Text :=
  foundryHeaders ++ relaynaHeaders ++ framingHeaders

theorem Within.mono {names names' : List Text} {edits : Edits} (hwithin : Within names edits)
    (hsubset : names ⊆ names') : Within names' edits :=
  fun edit hedit ↦ hsubset (hwithin edit hedit)

theorem Parts.within_back (parts : Parts rules upstream ctx token) :
    Within backHeaders parts.back := by
  refine .append (.append (.append ?_ ?_) ?_) ?_
  · refine (within_removeHeaders _).mono ?_
    split_ifs
    · decide
    · exact List.nil_subset _
  · exact (within_relaynaEdits parts.hrelayna).mono (by simp [backHeaders])
  · exact within_framingEdits.mono (List.subset_append_right _ _)
  · exact (within_foundryFraming parts.hfoundry).mono (List.subset_append_right _ _)

/-- What the upstream is told of an Accessa caller. -/
structure TellsCaller (headers : Headers Text (List UInt8)) (binding : AccessaBinding)
    (identity : EntraIdentityContext) : Prop where
  objectId : getAll headers "x-caller-oid".toList = [encode (identity.objectId.getD [])]
  tenant : getAll headers "x-caller-tenant".toList = [encode identity.tenantId]
  upn : getAll headers "x-caller-upn".toList = identity.email.toList.map encode
  groups : getAll headers "x-caller-groups".toList =
    [encode (List.intercalate [','] identity.groups)]
  channel : getAll headers "x-route-channel".toList = [encode binding.channel]
  app : getAll headers "x-route-app".toList = binding.app.toList.map encode

theorem within_accessTokenEdits (config : Option UserTokenForwarding) :
    Within [accessTokenHeader] (accessTokenEdits config) := by
  unfold accessTokenEdits
  split_ifs
  · exact within_removeHeaders [accessTokenHeader]
  · exact fun edit hedit ↦ absurd hedit List.not_mem_nil

/-- The headers of a caller are those that its identity edits leave. -/
theorem getAll_caller {binding : AccessaBinding} {edits : Edits}
    (hbinding : ctx.access.accessa = some binding)
    (hedits : upstreamEdits rules upstream ctx token = some edits)
    (headers : Headers Text (List UInt8)) :
    ∃ identity identityPart, ctx.entraIdentity = some identity ∧
      identityEdits rules ctx binding identity = some identityPart ∧
      ∀ name ∈ callerHeaders,
        getAll (applyAll headers edits) name = (lastValues name identityPart).getD [] := by
  obtain ⟨parts, rfl⟩ := upstreamEdits_eq_some hedits
  have haccessa := parts.haccessa
  simp only [accessaEdits, hbinding, Option.bind_eq_bind, Option.bind_eq_some_iff, Option.pure_def,
    Option.some.injEq] at haccessa
  obtain ⟨forwarded, -, identity, hidentity, identityPart, hpart, haccessa⟩ := haccessa
  refine ⟨identity, identityPart, hidentity, hpart, fun name hname ↦ ?_⟩
  have hback : name ∉ backHeaders :=
    (show ∀ name ∈ callerHeaders, name ∉ backHeaders by decide) name hname
  have hremoved : lastValues name (removeHeaders callerHeaders) = some [] :=
    lastValues_removeHeaders ((show ∀ name ∈ callerHeaders, name ∈ callerHeaders.map lowerName by
      decide) name hname)
  have htoken : lastValues name (accessTokenEdits ctx.access.userTokenForwarding) = none := by
    refine (within_accessTokenEdits _).lastValues fun hmem ↦ ?_
    rw [List.mem_singleton.mp hmem] at hname
    exact absurd hname (by decide)
  rw [Library.HeaderMap.getAll_applyAll, ← haccessa]
  simp only [Library.HeaderMap.lastValues_append, parts.within_back.lastValues hback,
    htoken, hremoved,
    Option.none_or, Option.some_or]
  cases lastValues name identityPart <;> rfl

theorem tellsCaller {binding : AccessaBinding} {edits : Edits}
    (hbinding : ctx.access.accessa = some binding)
    (hedits : upstreamEdits rules upstream ctx token = some edits)
    (headers : Headers Text (List UInt8)) :
    ∃ identity, ctx.entraIdentity = some identity ∧
      TellsCaller (applyAll headers edits) binding identity := by
  obtain ⟨identity, identityPart, hidentity, hpart, hvalues⟩ :=
    getAll_caller hbinding hedits headers
  obtain ⟨-, hobjectId, htenant, hupn, hgroups, hchannel, happ⟩ := lastValues_identityEdits hpart
  refine ⟨identity, hidentity, ?_, ?_, ?_, ?_, ?_, ?_⟩
  · rw [hvalues _ (by decide), hobjectId, Option.getD_some]
  · rw [hvalues _ (by decide), htenant, Option.getD_some]
  · rw [hvalues _ (by decide), hupn]
    cases identity.email <;> rfl
  · rw [hvalues _ (by decide), hgroups, Option.getD_some]
  · rw [hvalues _ (by decide), hchannel, Option.getD_some]
  · rw [hvalues _ (by decide), happ]
    cases binding.app <;> rfl

/-! ### The credential that the upstream sees -/

/-- Assumes: a name that is neither one of the fixed names of an Accessa endpoint nor that of the
token that it forwards. The endpoint does not edit it. -/
theorem lastValues_accessaEdits {edits : Edits} {name : Text}
    (haccessa : accessaEdits rules ctx token = some edits)
    (hfixed : name ∉ callerHeaders ++ accessTokenHeader :: identityHeaders)
    (htoken : ctx.access.accessa.isSome = true →
      ∀ config ∈ ctx.access.userTokenForwarding, lowerName config.header ≠ name) :
    lastValues name edits = none := by
  simp only [List.mem_append, List.mem_cons, not_or] at hfixed
  obtain ⟨hcaller, hdefault, hidentity⟩ := hfixed
  cases hbinding : ctx.access.accessa with
  | none =>
    simp only [accessaEdits, hbinding, Option.some.injEq] at haccessa
    subst haccessa
    rfl
  | some binding =>
    simp only [accessaEdits, hbinding, Option.bind_eq_bind, Option.bind_eq_some_iff,
      Option.pure_def,
      Option.some.injEq] at haccessa
    obtain ⟨forwarded, hforwarded, identity, -, identityPart, hpart, rfl⟩ := haccessa
    have hremoved : lastValues name (removeHeaders callerHeaders) = none :=
      (within_removeHeaders callerHeaders).lastValues hcaller
    have haccess : lastValues name (accessTokenEdits ctx.access.userTokenForwarding) = none :=
      (within_accessTokenEdits _).lastValues fun hmem ↦ hdefault (List.mem_singleton.mp hmem)
    have hforwarding : lastValues name forwarded = none := by
      cases hconfig : ctx.access.userTokenForwarding with
      | none =>
        simp only [tokenEdits, hconfig, Option.some.injEq] at hforwarded
        subst hforwarded
        rfl
      | some config =>
        have hheader := htoken (by rw [hbinding, Option.isSome_some]) config hconfig
        simp only [tokenEdits, hconfig, Option.bind_eq_bind, Option.bind_eq_some_iff,
          Option.pure_def,
          Option.some.injEq] at hforwarded
        obtain ⟨inserted, hinserted, rfl⟩ := hforwarded
        have hwithin : Within [lowerName config.header]
          (removeHeaders [config.header] ++ inserted) :=
          .append (within_removeHeaders [config.header])
            (within_insertSome hinserted List.mem_cons_self)
        exact hwithin.lastValues fun hmem ↦ hheader (List.mem_singleton.mp hmem).symm
    simp only [Library.HeaderMap.lastValues_append, hforwarding, hremoved, haccess,
      (lastValues_identityEdits hpart).1.lastValues hidentity, Option.none_or]

/-- Assumes: a token was asked for with success. The header of a forwarded token is not the one of
bearer tokens. -/
theorem tokenHeader_ne_authorization {req : Request} (hasked : askedToken ctx req = .ok token)
    (haccessa : ctx.access.accessa.isSome = true) :
    ∀ config ∈ ctx.access.userTokenForwarding, lowerName config.header ≠ authorizationHeader := by
  intro config hconfig hheader
  rw [askedToken, if_pos haccessa] at hasked
  simp only [forwardedUserToken, show ctx.access.userTokenForwarding =
    some config from hconfig] at hasked
  obtain ⟨_, hvalid, -⟩ := Library.Staged.bind_eq_ok.mp hasked
  have hreserved : lowerName config.header ∈ reservedHeaders := by
    rw [hheader]
    decide
  simp [UserTokenForwarding.validate, hreserved] at hvalid

/-- What the credential of an upstream leaves in `Authorization`. -/
def credentialValues (upstream : PingoraUpstreamConfig) : List (List UInt8) :=
  match upstream.credentialHeaderMode with
  | .authorizationBearer => [encode (bearerValue upstream)]
  | .customHeader =>
    if upstream.credentialHeaderName.map lowerName = some authorizationHeader then
      [encode (customHeaderCredentialValue upstream)]
    else []

/-- What the upstream sees in `Authorization`. -/
def authorizationValues (upstream : PingoraUpstreamConfig) (ctx : Outgoing) : List (List UInt8) :=
  if ctx.socket && ctx.directLitellmPassthrough then [encode (bearerValue upstream)]
  else credentialValues upstream

theorem lastValues_prepared {edits : Edits}
    (hprepared : prepareUpstreamAuthorityAndCredentials rules upstream ctx.relaynaKeyHeader =
      some edits) :
    lastValues authorizationHeader edits = some (credentialValues upstream) := by
  simp only [prepareUpstreamAuthorityAndCredentials, Option.bind_eq_bind, Option.bind_eq_some_iff,
    Option.pure_def, Option.some.injEq] at hprepared
  obtain ⟨host, hhost, credential, hcredential, rfl⟩ := hprepared
  have hhost : lastValues authorizationHeader host = none :=
    (within_insertHeader hhost (List.mem_singleton_self _)).lastValues (by decide)
  have hremoved : lastValues authorizationHeader (removeHeaders (strippedHeaders ++
      ctx.relaynaKeyHeader :: strippedKeyHeaders ++ upstream.credentialHeaderName.toList)) =
        some [] := by
    refine lastValues_removeHeaders (List.mem_map.mpr ⟨authorizationHeader, ?_, by decide⟩)
    exact List.mem_append_left _ (List.mem_append_left _ (by decide))
  rw [Library.HeaderMap.lastValues_append, Library.HeaderMap.lastValues_append, hhost,
    Option.none_or,
    hremoved, credentialValues]
  cases hmode : upstream.credentialHeaderMode with
  | authorizationBearer =>
    simp only [credentialEdits, hmode] at hcredential
    obtain rfl := (insertHeader_eq_some.mp hcredential).2
    rfl
  | customHeader =>
    simp only [credentialEdits, hmode, Option.bind_eq_some_iff] at hcredential
    obtain ⟨name, hname, hcredential⟩ := hcredential
    obtain rfl := (insertHeader_eq_some.mp hcredential).2
    by_cases hsame : lowerName name = authorizationHeader
    · simp [hname, Edit.name, Edit.values, hsame]
    · simp [hname, Edit.name, hsame]

theorem getAll_authorization {edits : Edits}
    (hedits : upstreamEdits rules upstream ctx token = some edits)
    (htoken : ctx.access.accessa.isSome = true →
      ∀ config ∈ ctx.access.userTokenForwarding, lowerName config.header ≠ authorizationHeader)
    (headers : Headers Text (List UInt8)) :
    getAll (applyAll headers edits) authorizationHeader = authorizationValues upstream ctx := by
  obtain ⟨parts, rfl⟩ := upstreamEdits_eq_some hedits
  have hback := parts.within_back.lastValues (show authorizationHeader ∉ backHeaders by decide)
  have haccessa := lastValues_accessaEdits parts.haccessa
    (show authorizationHeader ∉ callerHeaders ++
    accessTokenHeader :: identityHeaders by decide) htoken
  have hencoding : lastValues authorizationHeader parts.encoding = none := by
    have hencoding := parts.hencoding
    unfold costEncoding at hencoding
    split_ifs at hencoding
    · exact (within_insertHeader hencoding (List.mem_singleton_self _)).lastValues (by decide)
    · rw [← Option.some.inj hencoding]
      rfl
  have hextensions : lastValues authorizationHeader (removeHeaders
      (if ctx.socket then texts ["sec-websocket-extensions"] else [])) = none := by
    split_ifs
    · exact (within_removeHeaders _).lastValues (by decide)
    · rfl
  rw [Library.HeaderMap.getAll_applyAll]
  simp only [Parts.front, Library.HeaderMap.lastValues_append, hback, haccessa,
    hencoding, hextensions,
    Option.none_or, lastValues_prepared parts.hprepared, Option.some_or]
  have hsocket := parts.hsocket
  unfold socketCredential at hsocket
  unfold authorizationValues
  split_ifs at hsocket ⊢
  · rw [(insertHeader_eq_some.mp hsocket).2]
    rfl
  · rw [← Option.some.inj hsocket]
    rfl

/-! ### Names that the gateway settles -/

/-- A program edits a name. -/
def Edits.Touches (edits : Edits) (name : Text) : Prop :=
  ∃ edit ∈ edits, edit.name = name

theorem Edits.Touches.append_left {earlier : Edits} {name : Text} (htouched : earlier.Touches name)
    (later : Edits) : (earlier ++ later : Edits).Touches name := by
  obtain ⟨edit, hedit, hname⟩ := htouched
  exact ⟨edit, List.mem_append_left _ hedit, hname⟩

theorem Edits.Touches.append_right {later : Edits} {name : Text} (htouched : later.Touches name)
    (earlier : Edits) : (earlier ++ later : Edits).Touches name := by
  obtain ⟨edit, hedit, hname⟩ := htouched
  exact ⟨edit, List.mem_append_right _ hedit, hname⟩

/-- The names that the gateway takes away or overwrites whatever the client has sent. -/
def settledHeaders (upstream : PingoraUpstreamConfig) (ctx : Outgoing) : List Text :=
  ((strippedHeaders ++ ctx.relaynaKeyHeader :: strippedKeyHeaders ++
      upstream.credentialHeaderName.toList) ++
    (if ctx.socket && ctx.directLitellmPassthrough then texts ["api-key"] else []) ++
    (if ctx.socket then texts ["sec-websocket-extensions"] else []) ++
    (if ctx.access.accessa.isSome then accessTokenHeader :: callerHeaders else []) ++
    (if ctx.foundry then foundryHeaders else []) ++
    texts ["x-relayna-request-id"]).map lowerName

theorem touches_prepared {edits : Edits} {name : Text}
    (hprepared : prepareUpstreamAuthorityAndCredentials rules upstream ctx.relaynaKeyHeader =
      some edits)
    (hname : name ∈ (strippedHeaders ++ ctx.relaynaKeyHeader :: strippedKeyHeaders ++
      upstream.credentialHeaderName.toList).map lowerName) : edits.Touches name := by
  simp only [prepareUpstreamAuthorityAndCredentials, Option.bind_eq_bind, Option.bind_eq_some_iff,
    Option.pure_def, Option.some.injEq] at hprepared
  obtain ⟨host, -, credential, -, rfl⟩ := hprepared
  exact (Edits.Touches.append_left (exists_removed hname) host).append_left credential

theorem touches_accessaEdits {edits : Edits} {name : Text}
    (haccessa : accessaEdits rules ctx token = some edits)
    (hsome : ctx.access.accessa.isSome = true)
    (hname : name ∈ (accessTokenHeader :: callerHeaders).map lowerName) : edits.Touches name := by
  obtain ⟨binding, hbinding⟩ := Option.isSome_iff_exists.mp hsome
  simp only [accessaEdits, hbinding, Option.bind_eq_bind, Option.bind_eq_some_iff, Option.pure_def,
    Option.some.injEq] at haccessa
  obtain ⟨forwarded, hforwarded, identity, -, identityPart, -, rfl⟩ := haccessa
  rw [List.map_cons] at hname
  rcases List.mem_cons.mp hname with rfl | hcaller
  · refine Edits.Touches.append_left ?_ identityPart
    by_cases hstripped : ctx.access.userTokenForwarding.all fun config ↦
        !config.enabled || lowerName config.header ≠ accessTokenHeader
    · refine Edits.Touches.append_right ?_ _
      rw [accessTokenEdits, if_pos hstripped]
      exact exists_removed List.mem_cons_self
    · refine Edits.Touches.append_left (Edits.Touches.append_left ?_ _) _
      cases hconfig : ctx.access.userTokenForwarding with
      | none => simp [hconfig] at hstripped
      | some config =>
        simp only [hconfig, Option.all_some, Bool.or_eq_true, Bool.not_eq_true', decide_eq_true_eq,
          not_or, Decidable.not_not] at hstripped
        simp only [tokenEdits, hconfig, Option.bind_eq_bind, Option.bind_eq_some_iff,
          Option.pure_def,
          Option.some.injEq] at hforwarded
        obtain ⟨inserted, -, rfl⟩ := hforwarded
        refine Edits.Touches.append_left (exists_removed ?_) inserted
        rw [List.map_singleton, hstripped.2]
        exact List.mem_singleton.mpr (by decide)
  · exact ((Edits.Touches.append_right (exists_removed hcaller) forwarded).append_left
      _).append_left _

theorem touches_relaynaEdits {edits : Edits} (hrelayna : relaynaEdits rules ctx = some edits) :
    edits.Touches "x-relayna-request-id".toList := by
  simp only [relaynaEdits, Option.bind_eq_bind, Option.bind_eq_some_iff, Option.pure_def,
    Option.some.injEq] at hrelayna
  obtain ⟨requestId, hrequestId, _, -, _, -, _, -, _, -, _, -, _, -, rfl⟩ := hrelayna
  rw [(insertHeader_eq_some.mp hrequestId).2]
  exact ⟨_, List.mem_cons_self, rfl⟩

/-- Every settled name is edited. -/
theorem touches_settled {edits : Edits} {name : Text}
    (hedits : upstreamEdits rules upstream ctx token = some edits)
    (hname : name ∈ settledHeaders upstream ctx) : edits.Touches name := by
  obtain ⟨parts, rfl⟩ := upstreamEdits_eq_some hedits
  rw [settledHeaders, List.map_append, List.map_append, List.map_append, List.map_append,
    List.map_append] at hname
  have hremoved : ∀ {condition : Bool} {names : List Text},
      name ∈ (if condition then names else []).map lowerName →
        (removeHeaders (if condition then names else [])).Touches name :=
    fun hmem ↦ exists_removed hmem
  rcases List.mem_append.mp hname with hname | hrequest
  · rcases List.mem_append.mp hname with hname | hfoundry
    · refine Edits.Touches.append_left ?_ parts.back
      rcases List.mem_append.mp hname with hname | haccessa
      · refine Edits.Touches.append_left ?_ parts.accessa
        rcases List.mem_append.mp hname with hname | hextensions
        · refine ((Edits.Touches.append_left ?_ _).append_left _).append_left _
          rcases List.mem_append.mp hname with hprepared | hkey
          · exact (touches_prepared parts.hprepared hprepared).append_right _
          · exact (hremoved hkey).append_left _
        · exact ((hremoved hextensions).append_right _).append_left _
      · refine Edits.Touches.append_right ?_ parts.front
        split_ifs at haccessa with hsome
        · exact touches_accessaEdits parts.haccessa hsome haccessa
        · exact absurd haccessa List.not_mem_nil
    · exact ((((hremoved hfoundry).append_left _).append_left _).append_left _).append_right _
  · obtain rfl : name = "x-relayna-request-id".toList := List.mem_singleton.mp hrequest
    exact ((((touches_relaynaEdits parts.hrelayna).append_right _).append_left _).append_left
      _).append_right _

theorem upstreamRequestFilter_eq_some {req : Request} {headers : Headers Text (List UInt8)}
    (hfilter : upstreamRequestFilter rules upstream ctx req = some headers) :
    ∃ token edits, askedToken ctx req = .ok token ∧
      upstreamEdits rules upstream ctx token = some edits ∧ headers =
        applyAll req.headers edits := by
  simp only [upstreamRequestFilter, Option.bind_eq_bind, Option.bind_eq_some_iff, Option.pure_def,
    Option.some.injEq] at hfilter
  obtain ⟨token, htoken, edits, hedits, rfl⟩ := hfilter
  refine ⟨token, edits, ?_, hedits, rfl⟩
  cases hasked : askedToken ctx req with
  | ok asked => rw [hasked] at htoken; exact congrArg Except.ok (Option.some.inj htoken)
  | error error => rw [hasked] at htoken; cases htoken

end Names

/-- Assumes: of one request that was let through (its key, its verified identity and its request id
are those of `ctx`), two versions that a client may have sent, which have the same headers up to
those that the gateway settles, and whose token the endpoint forwards, if any, is the same. The
upstream sees the same values under every name, or sees neither. What it sees in `Authorization` is
the credential of the upstream and nothing else, and an Accessa application is told of the identity
that was verified, whoever the client says it is. -/
theorem upstream_headers_from_gateway (rules : Syntax) (upstream : PingoraUpstreamConfig)
    (ctx : Outgoing) (left right : Request)
    (hagree : AgreeOff (· ∈ settledHeaders upstream ctx) left.headers right.headers)
    (htoken : askedToken ctx left = askedToken ctx right) :
    (∀ name, (upstreamRequestFilter rules upstream ctx left).map (getAll · name) =
        (upstreamRequestFilter rules upstream ctx right).map (getAll · name)) ∧
      ∀ headers, upstreamRequestFilter rules upstream ctx left = some headers →
        getAll headers authorizationHeader = authorizationValues upstream ctx ∧
          ∀ binding, ctx.access.accessa = some binding →
            ∃ identity, ctx.entraIdentity = some identity ∧
              TellsCaller headers binding identity := by
  constructor
  · intro name
    unfold upstreamRequestFilter
    rw [htoken]
    cases (askedToken ctx right).toOption with
    | none => rfl
    | some token =>
      cases hedits : upstreamEdits rules upstream ctx token with
      | none => simp [hedits]
      | some edits =>
        have hsame := hagree.applyAll (fun name hname ↦ touches_settled hedits hname) name
        simp [hedits, hsame]
  · intro headers hfilter
    obtain ⟨token, edits, hasked, hedits, rfl⟩ := upstreamRequestFilter_eq_some hfilter
    refine ⟨?_, fun binding hbinding ↦ tellsCaller hbinding hedits left.headers⟩
    exact getAll_authorization hedits (tokenHeader_ne_authorization hasked) left.headers

/-- An Accessa application behind a bearer credential. -/
def sampleUpstream : PingoraUpstreamConfig :=
  ⟨"accessa".toList, 443, true, "sk-app".toList, .authorizationBearer, none, .raw⟩

/-- A verified caller of the application. -/
def sampleContext : Outgoing where
  toPingoraContext := { PingoraContext.new with
    access := { EndpointAccess.default with accessa := some ⟨none, "chat".toList⟩ }
    entraIdentity := some ⟨[], none, "tenant".toList, none, some "alice".toList, none,
      none, none, none,
      none, [], [], [], "2.0".toList, .jwt⟩
    relaynaKeyHeader := "x-relayna-key".toList }
  requestId := "r-1".toList
  traceparent := none
  taskId := none
  runId := none
  passthroughCost := false
  admissionToken := none
  guarded := false
  rewrittenRequestLen := none

/-- A request of a client that pretends to be someone else. -/
def forged : Request :=
  ⟨post, true, "/app".toList, [("x-caller-oid".toList, encode "mallory".toList)]⟩

/-- The upstream sees what it sees of a client that does not. -/
theorem upstream_headers_from_gateway_forged :
    (upstreamRequestFilter ⟨fun _ ↦ true, fun _ ↦ true⟩ sampleUpstream sampleContext forged).map
        (getAll · "x-caller-oid".toList) =
      (upstreamRequestFilter ⟨fun _ ↦ true, fun _ ↦ true⟩ sampleUpstream sampleContext
        { forged with headers := [] }).map (getAll · "x-caller-oid".toList) := by
  have hagree : AgreeOff (· ∈ settledHeaders sampleUpstream sampleContext) forged.headers [] := by
    intro name hname
    have hforged : "x-caller-oid".toList ≠ name := fun hsame ↦ hname (hsame ▸ by decide)
    exact Library.HeaderMap.getAll_cons_of_ne hforged _ _
  exact (upstream_headers_from_gateway _ sampleUpstream sampleContext forged
    { forged with headers := [] } hagree rfl).1 _

end Relayna.Proxy.UpstreamHeaders

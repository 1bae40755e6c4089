import Mathlib.Data.List.TakeWhile
import Relayna.Policy.KeyPolicy
import Relayna.Pricing.Endpoints

/-!
# The service of a path and the rest of the path

`crates/gateway-core/src/routing.rs` finds the service that a path names, and
`crates/gateway-core/src/services.rs` the rest of the path, which
`crates/gateway-proxy/src/pingora_plane.rs` forwards. The first drops every repetition of
`/services/` from the front of the path, the second only one.

`forwarded_rest_iff` says that both agree on every path in which `/services/` is not repeated, and
that the rest is then forwarded, unless it is empty and the path has a query.
-/

set_option autoImplicit false
set_option relaxedAutoImplicit false

namespace Relayna.Services

open Relayna.Library.Json
open Relayna.Policy (Route Provider)
open Relayna.Pricing (Text Method Price)

/-! ### Routes -/

inductive BackendType
  | liteLlm
  | directProvider
  | internalService
  deriving DecidableEq

structure RouteMatch where
  route : Route
  backend : BackendType
  provider : Provider
  serviceName : Option Text
  timeoutMs : ℕ
  maxBodyBytes : ℕ
  maxResponseBodyBytes : ℕ
  estimatedCostUsd : Option Price
  deriving DecidableEq

/-- The errors of routing. -/
inductive GatewayError
  | unsupportedRoute
  deriving DecidableEq

def cent : Price :=
  ⟨1000000, by decide⟩

def RouteMatch.litellm (route : Route) : RouteMatch where
  route := route
  backend := .liteLlm
  provider := .liteLlm
  serviceName := none
  timeoutMs := 120000
  maxBodyBytes := 1048576
  maxResponseBodyBytes := 1048576
  estimatedCostUsd := some cent

def RouteMatch.service (route : Route) (serviceName : Text) : RouteMatch where
  route := route
  backend := .internalService
  provider := .internalService
  serviceName := some serviceName
  timeoutMs := 60000
  maxBodyBytes := 2097152
  maxResponseBodyBytes := 2 ^ 64 - 1
  estimatedCostUsd := some cent

def directOpenAiMatch : RouteMatch where
  route := .directOpenAi
  backend := .directProvider
  provider := .openAiCompatible
  serviceName := none
  timeoutMs := 60000
  maxBodyBytes := 1048576
  maxResponseBodyBytes := 1048576
  estimatedCostUsd := some cent

/-- `strip_prefix`. -/
def stripFront (front text : Text) : Option Text :=
  if front <+: text then some (text.drop front.length) else none

/-- `/services/`. -/
def servicesFront : Text :=
  ascii "/services/"

/-- `trim_start_matches("/services/")`: every repetition at the front is dropped. -/
def trimServices (text : Text) : Text :=
  if _h : servicesFront <+: text then trimServices (text.drop servicesFront.length) else text
termination_by text.length
decreasing_by
  have hle : servicesFront.length ≤ text.length :=
    (‹servicesFront <+: text›).length_le
  have hpos : 0 < servicesFront.length := by decide
  rw [List.length_drop]
  omega

/-- The name of a service in a path: what stands before the first slash. -/
def pathServiceName (path : Text) : Text :=
  (trimServices path).takeWhile (· ≠ 47)

/-- Whether a path is one of some literals. -/
def isOneOf (path : Text) (literals : List String) : Bool :=
  decide (path ∈ literals.map ascii)

def startsWith (path : Text) (front : String) : Bool :=
  decide (ascii front <+: path)

def endsWith (path : Text) (back : String) : Bool :=
  decide (ascii back <:+ path)

/-- The arms of `Route::resolve_match` before that of the services, with their guards. -/
def fixedArms (method : Method) (path : Text) : List (Bool × RouteMatch) :=
  let post : Bool := decide (method.bytes = ascii "POST")
  let get : Bool := decide (method.bytes = ascii "GET")
  let batch := startsWith path "/v1/messages/batches/"
  [(isOneOf path ["/chat/completions", "/v1/chat/completions"] && post, .litellm .chatCompletions),
    (isOneOf path ["/responses", "/v1/responses"] && post, .litellm .responses),
    (isOneOf path ["/embeddings", "/v1/embeddings"] && post, .litellm .liteLlmEmbeddings),
    (isOneOf path ["/rerank", "/v1/rerank", "/v2/rerank"] && post, .litellm .liteLlmRerank),
    (isOneOf path ["/v1/messages"] && post, .litellm .anthropicMessages),
    (isOneOf path ["/v1/messages/count_tokens"] && post, .litellm .anthropicMessagesCountTokens),
    (isOneOf path ["/v1/messages/batches"] && (post || get), .litellm .anthropicMessageBatches),
    (get && batch && endsWith path "/results", .litellm .anthropicMessageBatchResults),
    (get && batch, .litellm .anthropicMessageBatch),
    (post && batch && endsWith path "/cancel", .litellm .anthropicMessageBatchCancel),
    (isOneOf path ["/v1/models"] && get, .litellm .anthropicModels),
    (isOneOf path ["/summary"] && post, .service .summary (ascii "summary")),
    (isOneOf path ["/translation"] && post, .service .translation (ascii "translation")),
    (isOneOf path ["/ocr"] && post, .service .ocr (ascii "ocr"))]

/-- `Route::resolve_match`: the first arm whose guard holds. -/
def resolveMatch (method : Method) (path : Text) : Except GatewayError RouteMatch :=
  match (fixedArms method path).find? fun arm ↦ arm.1 with
  | some arm => .ok arm.2
  | none =>
    if startsWith path "/services/" then
      if pathServiceName path = [] then .error .unsupportedRoute
      else .ok (.service .serviceWildcard (pathServiceName path))
    else if decide (method.bytes = ascii "POST") && startsWith path "/providers/openai/" then
      .ok directOpenAiMatch
    else .error .unsupportedRoute

/-! ### Rests -/

def serviceWildcardSuffix (path serviceName : Text) : Option Text :=
  (stripFront (servicesFront ++ serviceName) path).bind fun suffix ↦
    if suffix = [] then some [47]
    else if suffix.head? = some 47 then some suffix
    else none

/-- `strip_suffix`. -/
def stripBack (back text : Text) : Option Text :=
  if back <:+ text then some (text.take (text.length - back.length)) else none

def routePatternWildcardSuffix (path routePattern : Text) : Option Text :=
  (stripBack (ascii "/*") routePattern).bind fun front ↦
    (stripFront front path).bind fun suffix ↦
      if suffix = [] then some [47]
      else if suffix.head? = some 63 then some (47 :: suffix)
      else if suffix.head? = some 47 then some suffix
      else none

/-- What `rewrite_service_wildcard_uri` forwards for a path with its query. -/
def rewriteServiceWildcardUri (pathAndQuery serviceName : Text) (routePattern : Option Text) :
    Text :=
  ((routePattern.bind (routePatternWildcardSuffix pathAndQuery)).or
    (serviceWildcardSuffix pathAndQuery serviceName)).getD pathAndQuery

/-! ### The name of a service -/

theorem stripFront_append (front rest : Text) : stripFront front (front ++ rest) = some rest := by
  rw [stripFront, if_pos (List.prefix_append front rest), List.drop_left]

/-- One repetition is dropped. -/
theorem trimServices_append (rest : Text) :
    trimServices (servicesFront ++ rest) = trimServices rest := by
  rw [trimServices, dif_pos (List.prefix_append servicesFront rest), List.drop_left]

/-- No arm before that of the services has the service wildcard route. -/
theorem fixedArms_route (method : Method) (path : Text) :
    ∀ arm ∈ fixedArms method path, arm.2.route ≠ .serviceWildcard := by
  simp [fixedArms, RouteMatch.litellm, RouteMatch.service]

/-- The service wildcard route is that of the paths below `/services/` that name a service. -/
theorem resolveMatch_serviceWildcard {method : Method} {path : Text} {matched : RouteMatch}
    (hmatched : resolveMatch method path = .ok matched)
    (hroute : matched.route = .serviceWildcard) :
    servicesFront <+: path ∧ pathServiceName path ≠ [] ∧
      matched.serviceName = some (pathServiceName path) := by
  unfold resolveMatch at hmatched
  split at hmatched
  · rename_i arm harm
    obtain rfl := Except.ok.inj hmatched
    exact absurd hroute (fixedArms_route method path arm (List.mem_of_find?_eq_some harm))
  · split_ifs at hmatched with hservices hname hdirect
    · obtain rfl := Except.ok.inj hmatched
      exact ⟨of_decide_eq_true hservices, hname, rfl⟩
    · obtain rfl := Except.ok.inj hmatched
      cases hroute

/-- A path does not repeat `/services/` at its front. -/
def ServicesOnce (path : Text) : Prop :=
  ¬ servicesFront ++ servicesFront <+: path

/-- Assumes: `/services/` is not repeated. The path consists of it, the name and a rest. -/
theorem path_split {path : Text} (hservices : servicesFront <+: path) (honce : ServicesOnce path) :
    ∃ rest : Text, path = servicesFront ++ pathServiceName path ++ rest ∧
      (rest = [] ∨ rest.head? = some 47) := by
  obtain ⟨tail, rfl⟩ := hservices
  have hlast : trimServices (servicesFront ++ tail) = tail := by
    rw [trimServices_append, trimServices, dif_neg]
    rintro ⟨more, rfl⟩
    exact honce ⟨more, by rw [List.append_assoc]⟩
  refine ⟨tail.dropWhile (· ≠ 47), ?_, ?_⟩
  · rw [pathServiceName, hlast, List.append_assoc, List.takeWhile_append_dropWhile]
  · have hnot := List.head?_dropWhile_not (fun byte : UInt8 ↦ decide (byte ≠ 47)) tail
    rcases hrest : tail.dropWhile (· ≠ 47) with _ | ⟨first, rest⟩
    · exact Or.inl hrest
    · rw [hrest] at hnot ⊢
      exact Or.inr (congrArg some (by simpa using hnot))

/-- Assumes: `/services/` is repeated. The name does not follow the first one. -/
theorem not_path_split {path : Text} (hname : pathServiceName path ≠ [])
    (hrepeated : servicesFront ++ servicesFront <+: path) :
    ¬ servicesFront ++ pathServiceName path <+: path := by
  obtain ⟨tail, hpath⟩ := hrepeated
  obtain ⟨first, rest, hcons⟩ := List.exists_cons_of_ne_nil hname
  have hfirst : first ≠ 47 := by
    have hmem : first ∈ pathServiceName path := hcons ▸ List.mem_cons_self
    have htaken := List.mem_takeWhile_imp hmem
    exact of_decide_eq_true htaken
  rintro ⟨more, hmore⟩
  rw [hcons, ← hpath, List.append_assoc, List.append_assoc, List.append_cancel_left_eq,
    List.cons_append] at hmore
  have hslash : servicesFront ++ tail = 47 :: ((servicesFront ++ tail).drop 1) := rfl
  rw [hslash, List.cons.injEq] at hmore
  exact hfirst hmore.1

/-! ### Agreement -/

/-- The rest of a path, a slash for an empty one. -/
def restPath (rest : Text) : Text :=
  if rest = [] then [47] else rest

/-- The suffix of a path after the name of its service. -/
theorem serviceWildcardSuffix_rest (name : Text) {rest : Text}
    (hrest : rest = [] ∨ rest.head? = some 47) :
    serviceWildcardSuffix (servicesFront ++ name ++ rest) name = some (restPath rest) := by
  rw [serviceWildcardSuffix, stripFront_append, Option.bind_some, restPath]
  split_ifs with hempty hslash
  · rfl
  · rfl
  · exact absurd (hrest.resolve_left hempty) hslash

/-- A query right after the name is no rest. -/
theorem serviceWildcardSuffix_query (name : Text) {query : Text}
    (hquery : query.head? = some 63) :
    serviceWildcardSuffix (servicesFront ++ name ++ query) name = none := by
  have hne : query ≠ [] := by
    rintro rfl
    cases hquery
  rw [serviceWildcardSuffix, stripFront_append, Option.bind_some, if_neg hne, hquery]
  rfl

theorem restPath_head {rest : Text} (hrest : rest = [] ∨ rest.head? = some 47) :
    (restPath rest).head? = some 47 := by
  unfold restPath
  split_ifs with hempty
  · rfl
  · exact hrest.resolve_left hempty

/-- Assumes: a path with the service wildcard route, and the name of its service. It has a suffix,
which begins with a slash and follows the name in the path, exactly if `/services/` is not repeated;
and with its query, where no route pattern applies, the rest of the path is forwarded exactly if
also the rest is not empty or there is no query. -/
theorem forwarded_rest_iff {method : Method} {path name : Text} {matched : RouteMatch}
    (hmatched : resolveMatch method path = .ok matched) (hroute : matched.route = .serviceWildcard)
    (hname : matched.serviceName = some name) :
    ((∃ suffix, serviceWildcardSuffix path name = some suffix ∧ suffix.head? = some 47 ∧
        (servicesFront ++ name ++ suffix = path ∨ suffix = [47] ∧ servicesFront ++ name = path)) ↔
      ServicesOnce path) ∧
    ∀ (query : Text) (routePattern : Option Text), query = [] ∨ query.head? = some 63 →
      routePattern.bind (routePatternWildcardSuffix (path ++ query)) = none →
      ((∃ rest, path = servicesFront ++ name ++ rest ∧ (rest = [] ∨ rest.head? = some 47) ∧
          rewriteServiceWildcardUri (path ++ query) name routePattern = restPath rest ++ query) ↔
        ServicesOnce path ∧ (query = [] ∨ path ≠ servicesFront ++ name)) := by
  obtain ⟨hservices, hne, hservice⟩ := resolveMatch_serviceWildcard hmatched hroute
  have hsame : pathServiceName path = name := Option.some.inj (hservice.symm.trans hname)
  have honce : ∀ {rest : Text}, servicesFront ++ name ++ rest = path → ServicesOnce path :=
    fun hpath hrepeated ↦ not_path_split hne hrepeated (hsame ▸ ⟨_, hpath⟩)
  have hsplit : ServicesOnce path → ∃ rest : Text, path = servicesFront ++ name ++ rest ∧
      (rest = [] ∨ rest.head? = some 47) := by
    rw [← hsame]
    exact path_split hservices
  refine ⟨⟨?_, ?_⟩, ?_⟩
  · rintro ⟨suffix, -, -, hpath | ⟨-, hpath⟩⟩
    · exact honce hpath
    · exact honce ((List.append_nil _).trans hpath)
  · intro hserves
    obtain ⟨rest, rfl, hrest⟩ := hsplit hserves
    refine ⟨restPath rest, serviceWildcardSuffix_rest name hrest, restPath_head hrest, ?_⟩
    unfold restPath
    split_ifs with hempty
    · exact Or.inr ⟨rfl, by rw [hempty, List.append_nil]⟩
    · exact Or.inl rfl
  · intro query routePattern hquery hpattern
    have hforwarded : rewriteServiceWildcardUri (path ++ query) name routePattern =
        (serviceWildcardSuffix (path ++ query) name).getD (path ++ query) := by
      rw [rewriteServiceWildcardUri, hpattern, Option.none_or]
    rw [hforwarded]
    have hpathQuery : ∀ {rest : Text}, servicesFront ++ name ++ rest = path →
        path ++ query = servicesFront ++ name ++ (rest ++ query) := by
      rintro rest rfl
      rw [List.append_assoc]
    constructor
    · rintro ⟨rest, hpath, hrest, hrewritten⟩
      refine ⟨honce hpath.symm, or_iff_not_imp_right.mpr fun hempty ↦ ?_⟩
      rw [not_not] at hempty
      refine hquery.resolve_right fun hmark ↦ ?_
      have hrestEmpty : rest = [] := by
        rw [hempty] at hpath
        exact (List.self_eq_append_right.mp hpath)
      rw [hempty, serviceWildcardSuffix_query name hmark, hrestEmpty] at hrewritten
      have hfront : servicesFront.length = 10 := rfl
      have hlength := congrArg List.length hrewritten
      rw [Option.getD_none, List.length_append, List.length_append, List.length_append, hfront]
        at hlength
      have hslash : (restPath []).length = 1 := rfl
      omega
    · rintro ⟨hserves, hnonempty⟩
      obtain ⟨rest, hpath, hrest⟩ := hsplit hserves
      refine ⟨rest, hpath, hrest, ?_⟩
      rw [hpathQuery hpath.symm]
      by_cases hempty : rest = []
      · have hnoQuery : query = [] := by
          refine hnonempty.resolve_right fun hne ↦ hne ?_
          rw [hpath, hempty, List.append_nil]
        rw [hnoQuery, List.append_nil, serviceWildcardSuffix_rest name hrest, List.append_nil]
        rfl
      · have hslash : (rest ++ query).head? = some 47 := by
          rw [List.head?_append_of_ne_nil _ hempty]
          exact hrest.resolve_left hempty
        have hwhole : rest ++ query ≠ [] := List.append_ne_nil_of_left_ne_nil hempty query
        rw [serviceWildcardSuffix_rest name (Or.inr hslash), restPath, restPath, if_neg hwhole,
          if_neg hempty]
        rfl

/-- A path that repeats `/services/` is routed to a service, and forwarded as it is. -/
theorem repeated_services_forwarded :
    resolveMatch ⟨ascii "GET", by decide, by decide⟩ (ascii "/services//services/foo/run") =
      .ok (.service .serviceWildcard (ascii "foo")) ∧
    serviceWildcardSuffix (ascii "/services//services/foo/run") (ascii "foo") = none ∧
    rewriteServiceWildcardUri (ascii "/services//services/foo/run") (ascii "foo") none =
      ascii "/services//services/foo/run" := by
  refine ⟨by decide +kernel, by decide +kernel, by decide +kernel⟩

/-- A path below a service, with a query. -/
theorem forwarded_rest_run :
    (∃ suffix, serviceWildcardSuffix (ascii "/services/foo/run") (ascii "foo") = some suffix ∧
      suffix.head? = some 47 ∧
      (servicesFront ++ ascii "foo" ++ suffix = ascii "/services/foo/run" ∨
        suffix = [47] ∧ servicesFront ++ ascii "foo" = ascii "/services/foo/run")) ∧
    ∃ rest, ascii "/services/foo/run" = servicesFront ++ ascii "foo" ++ rest ∧
      (rest = [] ∨ rest.head? = some 47) ∧
      rewriteServiceWildcardUri (ascii "/services/foo/run" ++ ascii "?x=1") (ascii "foo")
        (some (ascii "/foo")) = restPath rest ++ ascii "?x=1" := by
  have hagree := @forwarded_rest_iff ⟨ascii "GET", by decide, by decide⟩
    (ascii "/services/foo/run") (ascii "foo") (.service .serviceWildcard (ascii "foo"))
    (by decide +kernel) rfl rfl
  have honce : ServicesOnce (ascii "/services/foo/run") := by
    unfold ServicesOnce
    decide
  exact ⟨hagree.1.mpr honce,
    (hagree.2 (ascii "?x=1") (some (ascii "/foo")) (Or.inr rfl) (by decide)).mpr
      ⟨honce, Or.inr (by decide)⟩⟩

end Relayna.Services

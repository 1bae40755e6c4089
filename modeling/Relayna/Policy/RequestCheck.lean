import Relayna.Policy.OutputCap
import Relayna.Policy.TokenEstimate

/-!
# The check of a complete request

`check_complete_request_policy` of `crates/gateway-proxy/src/pingora_plane.rs` decides on a request
once its body is there. It reads the body twice: into a record of the fields that a policy is about
(`analyze_generation_request`), and, when that fails, as a whole value, since an object with
malformed metadata is refused. The entries of a batch are analysed one by one, as a whole value
keeps them.

`complete_check_sound` states that no forbidden feature passes the check, on a body that one of the
two readings accepts.
-/

set_option autoImplicit false
set_option relaxedAutoImplicit false

namespace Relayna.Policy

open Library.Json

/-! ### Analysing a request -/

structure GenerationRequestProbe where
  model : Option Text
  stream : Bool
  tools : Option (List Tree)
  functions : Option (List Tree)
  functionCall : Option Tree
  toolChoice : Option Tree
  service : Option Text
  serviceName : Option Text
  guardrails : Option Tree

/-- A field of a record that may be null. -/
def optionalField {Field : Type} (read : Tree → Option Field) (trees : List Tree) :
    Option (Option Field) :=
  (field (optional read) trees).map Option.join

/-- Reading a `GenerationRequestProbe`. -/
def readGenerationRequestProbe (reader : Reader) (tree : Tree) : Option GenerationRequestProbe :=
  match reader.fields [ascii "model", ascii "stream", ascii "tools", ascii "functions",
    ascii "function_call", ascii "tool_choice", ascii "service", ascii "service_name",
    ascii "guardrails"] 9 tree with
  | some [model, stream, tools, functions, functionCall, toolChoice, service, serviceName,
      guardrails] => do
    let model ← optionalField (readText reader) model
    let stream ← field readBool stream
    let tools ← optionalField readIgnored tools
    let functions ← optionalField readIgnored functions
    let functionCall ← optionalField (readValue reader) functionCall
    let toolChoice ← optionalField (readValue reader) toolChoice
    let service ← optionalField (readText reader) service
    let serviceName ← optionalField (readText reader) serviceName
    let guardrails ← optionalField (readValue reader) guardrails
    return ⟨model, stream.getD false, tools, functions, functionCall, toolChoice, service,
      serviceName, guardrails⟩
  | _ => none

structure GenerationRequestAnalysis where
  features : GenerationFeatures
  clientGuardrails : Option Tree

def explicitToolSelection (reader : Reader) : Tree → Bool
  | .object _ => true
  | .string raw => (reader.text raw).any fun text ↦ text ≠ ascii "none" ∧ text ≠ ascii "auto"
  | _ => false

def GenerationRequestProbe.analysis (probe : GenerationRequestProbe) (reader : Reader) :
    GenerationRequestAnalysis where
  features :=
    { model := probe.model.filter (· ≠ [])
      stream := probe.stream
      tools := probe.tools.any (· ≠ []) || probe.functions.any (· ≠ []) ||
        probe.functionCall.any (explicitToolSelection reader) ||
        probe.toolChoice.any (explicitToolSelection reader)
      serviceName := (probe.service.filter (· ≠ [])).or (probe.serviceName.filter (· ≠ [])) }
  clientGuardrails := probe.guardrails

/-- `analyze_generation_request` on the shape of a body. -/
def analyzeShape (reader : Reader) (tree : Tree) : Option GenerationRequestAnalysis :=
  (readGenerationRequestProbe reader tree).map (·.analysis reader)

def analyzeGenerationRequest (reader : Reader) (body : List UInt8) :
    Option GenerationRequestAnalysis :=
  (reader.shape body).bind (analyzeShape reader)

def extractGenerationFeatures (reader : Reader) (body : List UInt8) : GenerationFeatures :=
  ((analyzeGenerationRequest reader body).map (·.features)).getD .default

/-! ### The check -/

/-- The fields of `RouteMatch` that the check reads. -/
structure RouteMatch (Usd : Type) where
  route : Route
  provider : Provider
  maxBodyBytes : ℕ
  estimatedCostUsd : Option Usd

/-- `CompleteRequestBody`. Its tokens are computed when they are needed. -/
structure CompleteRequestBody where
  bytes : List UInt8
  generation : Option GenerationRequestAnalysis

def CompleteRequestBody.new (reader : Reader) (bytes : List UInt8) : CompleteRequestBody :=
  ⟨bytes, analyzeGenerationRequest reader bytes⟩

def CompleteRequestBody.features (analyzed : CompleteRequestBody) : GenerationFeatures :=
  (analyzed.generation.map (·.features)).getD .default

/-- The features of one entry of a batch. The parameters are written out and read again. -/
def entryFeatures (reader : Reader) (entry : Tree) : Except GatewayError GenerationFeatures :=
  match reader.get (ascii "params") entry with
  | none => .error .policyDenied
  | some params =>
    match analyzeShape reader params with
    | none => .error .policyDenied
    | some analysis =>
      if analysis.features.model = none then .error .policyDenied else .ok analysis.features

def batchRequestFeatures (reader : Reader) (body : List UInt8) :
    Except GatewayError (List GenerationFeatures) :=
  match (reader.parse body).bind (reader.get (ascii "requests")) with
  | some (.array entries) =>
    if entries = [] then .error .policyDenied else entries.mapM (entryFeatures reader)
  | _ => .error .policyDenied

/-- The routes of generation requests. -/
def isGeneration (route : Route) : Bool :=
  route ∈ [Route.chatCompletions, .responses, .anthropicMessages, .liteLlmEmbeddings,
    .liteLlmRerank]

/-- `i32::try_from`. -/
def toI32 (value : ℤ) : Option ℤ :=
  if -2 ^ 31 ≤ value ∧ value < 2 ^ 31 then some value else none

/-- `i64::try_from` of a length. -/
def lengthToI64 (length : ℕ) : Option ℤ :=
  if length < 2 ^ 63 then some length else none

section Usd

variable {Usd : Type} [LinearOrder Usd]

/-- The features of a complete request are within the policy. -/
def checkFeatures (reader : Reader) (policy : KeyPolicy Usd) (matched : RouteMatch Usd)
    (body : List UInt8) (features : GenerationFeatures) : Except GatewayError Unit :=
  if matched.route = .anthropicMessageBatches ∧ body ≠ [] then do
    let entries ← batchRequestFeatures reader body
    entries.forM fun feature ↦
      if policy.allowedModels ≠ [] ∧ feature.model = none then .error .policyDenied
      else evaluatePolicy policy matched.route matched.provider feature
  else evaluatePolicy policy matched.route matched.provider features

/-- `check_complete_request_policy`, at an instant. -/
def checkCompleteRequestPolicy (reader : Reader) (policy : KeyPolicy Usd)
    (matched : RouteMatch Usd) (analyzed : CompleteRequestBody) (features : GenerationFeatures)
    (now : Timestamp) : Except GatewayError Unit :=
  let body := analyzed.bytes
  let generation := isGeneration matched.route
  let malformedMetadata := analyzed.generation.isNone ∧ (reader.parse body).any Tree.isObject
  if matched.maxBodyBytes < body.length then .error .requestBodyTooLarge
  else if malformedMetadata ∨ (generation ∧ analyzed.generation.isNone) ∨
      ((generation ∨ (body ≠ [] ∧ matched.route ≠ .anthropicMessageBatches)) ∧
        policy.allowedModels ≠ [] ∧ features.model = none) then .error .policyDenied
  else do
    checkFeatures reader policy matched body features
    evaluatePolicyLimits policy now (lengthToI64 body.length) none
      (policy.maxInputTokensPerRequest.bind fun _ ↦
        toI32 (estimateGenerationTokens reader body)) none matched.estimatedCostUsd
    enforceOutputTokenLimit reader policy matched.route body

end Usd

/-! ### What an accepted request looks like -/

section Allowed

variable {Usd : Type}

/-- The values of the fields of a request are within what a policy says about streams and tools. -/
structure FeaturesAllowed (policy : KeyPolicy Usd) (values : Text → List Tree) : Prop where
  stream : policy.allowStreaming = false → .bool true ∉ values (ascii "stream")
  tools : policy.allowTools = false → ∀ name ∈ [ascii "tools", ascii "functions"],
    ∀ elements, .array elements ∈ values name → elements = []

/-- The models of a request are within what a policy says about them. -/
def ModelsAllowed (reader : Reader) (policy : KeyPolicy Usd) (values : Text → List Tree) : Prop :=
  policy.allowedModels ≠ [] → ∀ tree ∈ values (ascii "model"),
    ∃ raw model, tree = .string raw ∧ reader.text raw = some model ∧ model ∈ policy.allowedModels

/-- The values that are kept of an object. -/
def kept (reader : Reader) (tree : Tree) (name : Text) : List Tree :=
  (reader.get name tree).toList

/-- Assumes: an optional field of a record. Its values are null, or have what was read. -/
theorem optionalField_eq_some {Field : Type} {read : Tree → Option Field} {trees : List Tree}
    {result : Option Field} (hfield : optionalField read trees = some result) :
    ∀ tree ∈ trees, tree = .null ∧ result = none ∨ ∃ value, read tree = some value ∧
      result = some value := by
  intro tree htree
  obtain ⟨given, hgiven, hjoin⟩ := Option.map_eq_some_iff.mp hfield
  rcases given with _ | given
  · rw [field_eq_some_none hgiven] at htree
    exact absurd htree List.not_mem_nil
  · obtain ⟨single, rfl, hoptional⟩ := field_eq_some_some hgiven
    obtain rfl := List.mem_singleton.mp htree
    rcases given with _ | value
    · exact .inl ⟨optional_eq_some_none hoptional, hjoin.symm⟩
    · exact .inr ⟨value, optional_eq_some_some hoptional, hjoin.symm⟩

/-- What a probe of an object says about its members. -/
theorem readGenerationRequestProbe_object {reader : Reader} {members : List (List UInt8 × Tree)}
    {probe : GenerationRequestProbe}
    (hprobe : readGenerationRequestProbe reader (.object members) = some probe) :
    optionalField (readText reader) (reader.occurrences (ascii "model") members) =
        some probe.model ∧
      (∃ stream, field readBool (reader.occurrences (ascii "stream") members) = some stream ∧
        probe.stream = stream.getD false) ∧
      optionalField readIgnored (reader.occurrences (ascii "tools") members) = some probe.tools ∧
      optionalField readIgnored (reader.occurrences (ascii "functions") members) =
        some probe.functions := by
  unfold readGenerationRequestProbe at hprobe
  rcases reader.fields_object [ascii "model", ascii "stream", ascii "tools", ascii "functions",
    ascii "function_call", ascii "tool_choice", ascii "service", ascii "service_name",
    ascii "guardrails"] 9 members with hfields | hfields
  · rw [hfields] at hprobe
    simp only [List.map_cons, List.map_nil, Option.bind_eq_bind, Option.bind_eq_some_iff,
      Option.pure_def, Option.some.injEq] at hprobe
    obtain ⟨model, hmodel, stream, hstream, tools, htools, functions, hfunctions, -, -, -, -, -, -,
      -, -, -, -, rfl⟩ := hprobe
    exact ⟨hmodel, ⟨stream, hstream, rfl⟩, htools, hfunctions⟩
  · rw [hfields] at hprobe
    cases hprobe

/-- Assumes: a policy that allows features. It allows each of them. -/
theorem evaluatePolicy_eq_ok {policy : KeyPolicy Usd} {route : Route} {provider : Provider}
    {features : GenerationFeatures} (hok : evaluatePolicy policy route provider features = .ok ()) :
    (∀ model, features.model = some model → policy.allowedModels ≠ [] →
        model ∈ policy.allowedModels) ∧
      (features.stream = true → policy.allowStreaming = true) ∧
      (features.tools = true → policy.allowTools = true) := by
  unfold evaluatePolicy at hok
  simp only [ite_error_eq_ok] at hok
  obtain ⟨-, -, -, -, hmodel, hstream, htools, -⟩ := hok
  refine ⟨fun model hsome hnonempty ↦ ?_, fun hstreams ↦ ?_, fun htrue ↦ ?_⟩
  · by_contra hnot
    refine hmodel ?_
    rw [hsome, Option.any_some, decide_eq_true_eq]
    exact ⟨hnonempty, hnot⟩
  · simpa [hstreams] using hstream
  · simpa [htrue] using htools

/-- Assumes: an object that could be analysed, and a policy that allows its features. Every value of
its fields is within the policy; and so are the models, when there is one. -/
theorem allowed_of_analysis {reader : Reader} {policy : KeyPolicy Usd} {route : Route}
    {provider : Provider} {members : List (List UInt8 × Tree)}
    {analysis : GenerationRequestAnalysis}
    (hanalysis : analyzeShape reader (.object members) = some analysis)
    (hok : evaluatePolicy policy route provider analysis.features = .ok ()) :
    FeaturesAllowed policy (fun name ↦ reader.occurrences name members) ∧
      (analysis.features.model ≠ none →
        ModelsAllowed reader policy (fun name ↦ reader.occurrences name members)) := by
  obtain ⟨probe, hprobe, rfl⟩ := Option.map_eq_some_iff.mp hanalysis
  obtain ⟨hmodel, ⟨stream, hstream, hstreams⟩, htools, hfunctions⟩ :=
    readGenerationRequestProbe_object hprobe
  obtain ⟨hmodels, hallowStream, hallowTools⟩ := evaluatePolicy_eq_ok hok
  refine ⟨⟨fun hforbidden hmem ↦ ?_, fun hforbidden name hname elements hmem ↦ ?_⟩,
    fun hsome hnonempty tree htree ↦ ?_⟩
  · rcases stream with _ | value
    · rw [field_eq_some_none hstream] at hmem
      exact absurd hmem List.not_mem_nil
    · obtain ⟨single, hsingle, hread⟩ := field_eq_some_some hstream
      rw [hsingle, List.mem_singleton] at hmem
      rw [← hmem, readBool, Option.some.injEq] at hread
      rw [← hread, Option.getD_some] at hstreams
      rw [hallowStream hstreams] at hforbidden
      cases hforbidden
  · by_contra hnonempty
    have hread (given : Option (List Tree))
        (hfield : optionalField readIgnored (reader.occurrences name members) = some given) :
        given.any (· ≠ []) = true := by
      rcases optionalField_eq_some hfield _ hmem with ⟨hnull, -⟩ | ⟨value, hvalue, rfl⟩
      · cases hnull
      · rw [readIgnored, Option.some.injEq] at hvalue
        rw [Option.any_some, decide_eq_true_eq, ← hvalue]
        exact hnonempty
    have htrue : (probe.analysis reader).features.tools = true := by
      simp only [List.mem_cons, List.not_mem_nil, or_false] at hname
      rcases hname with rfl | rfl
      · simp only [GenerationRequestProbe.analysis, hread _ htools, Bool.true_or]
      · simp only [GenerationRequestProbe.analysis, hread _ hfunctions, Bool.or_true, Bool.true_or]
    rw [hallowTools htrue] at hforbidden
    cases hforbidden
  · obtain ⟨model, hgiven⟩ := Option.ne_none_iff_exists'.mp hsome
    obtain ⟨hprobed, -⟩ := Option.filter_eq_some_iff.mp hgiven
    rcases optionalField_eq_some hmodel tree htree with ⟨-, hnone⟩ | ⟨value, hvalue, hread⟩
    · rw [hprobed] at hnone
      cases hnone
    · rw [hprobed, Option.some.injEq] at hread
      subst hread
      unfold readText at hvalue
      split at hvalue
      · exact ⟨_, model, rfl, hvalue, hmodels model hgiven hnonempty⟩
      · cases hvalue

/-- Assumes: values within a policy, once what is nested in them is collapsed. They are within it.
-/
theorem FeaturesAllowed.of_collapse {reader : Reader} {policy : KeyPolicy Usd}
    {values : Text → List Tree}
    (hallowed : FeaturesAllowed policy fun name ↦ (values name).map (Tree.collapse reader)) :
    FeaturesAllowed policy values := by
  constructor
  · intro hforbidden hmem
    exact hallowed.stream hforbidden (List.mem_map_of_mem hmem)
  · intro hforbidden name hname elements hmem
    have hnil := hallowed.tools hforbidden name hname _ (List.mem_map_of_mem hmem)
    rcases elements with _ | ⟨first, elements⟩
    · rfl
    · cases hnil

theorem ModelsAllowed.of_collapse {reader : Reader} {policy : KeyPolicy Usd}
    {values : Text → List Tree}
    (hallowed : ModelsAllowed reader policy fun name ↦ (values name).map (Tree.collapse reader)) :
    ModelsAllowed reader policy values := by
  intro hnonempty tree htree
  obtain ⟨raw, model, hstring, hmodel⟩ := hallowed hnonempty _ (List.mem_map_of_mem htree)
  refine ⟨raw, model, ?_, hmodel⟩
  cases tree with
  | string literal => exact hstring
  | _ => cases hstring

/-- Assumes: an entry of a batch that has features, and a policy that allows them. What the entry
keeps of its parameters is within the policy. -/
theorem allowed_of_entryFeatures {reader : Reader} {policy : KeyPolicy Usd} {route : Route}
    {provider : Provider} {entry params : Tree} {features : GenerationFeatures}
    (hparams : reader.get (ascii "params") entry = some params)
    (hfeatures : entryFeatures reader (entry.collapse reader) = .ok features)
    (hok : evaluatePolicy policy route provider features = .ok ()) :
    FeaturesAllowed policy (kept reader params) ∧
      ModelsAllowed reader policy (kept reader params) := by
  unfold entryFeatures at hfeatures
  rw [Reader.get_collapse, hparams] at hfeatures
  dsimp only [Option.map_some] at hfeatures
  split at hfeatures
  · cases hfeatures
  · rename_i analysis hanalysis
    split_ifs at hfeatures with hmodel
    obtain rfl := Except.ok.inj hfeatures
    cases params with
    | object members =>
      have hvalues : (fun name ↦ reader.occurrences name (Tree.collapseMembers reader members)) =
          fun name ↦ (kept reader (.object members) name).map (Tree.collapse reader) := by
        funext name
        rw [Reader.occurrences_collapse, Option.toList_map]
        rfl
      obtain ⟨hallowed, hmodels⟩ := allowed_of_analysis hanalysis hok
      rw [hvalues] at hallowed hmodels
      exact ⟨hallowed.of_collapse, (hmodels hmodel).of_collapse⟩
    | _ =>
      refine ⟨⟨fun _ hmem ↦ ?_, fun _ _ _ _ hmem ↦ ?_⟩, fun _ _ hmem ↦ ?_⟩
      all_goals exact absurd hmem List.not_mem_nil

end Allowed

section Usd

variable {Usd : Type} [LinearOrder Usd]

/-- Assumes: an accepted request. It was not refused for its metadata, and its features are within
the policy. -/
theorem checkCompleteRequestPolicy_eq_ok {reader : Reader} {policy : KeyPolicy Usd}
    {matched : RouteMatch Usd} {body : List UInt8} {now : Timestamp}
    (hok : checkCompleteRequestPolicy reader policy matched (.new reader body)
      (extractGenerationFeatures reader body) now = .ok ()) :
    (analyzeGenerationRequest reader body = none →
        (reader.parse body).any Tree.isObject = false ∧ isGeneration matched.route = false) ∧
      (body ≠ [] → matched.route ≠ .anthropicMessageBatches → policy.allowedModels ≠ [] →
        (extractGenerationFeatures reader body).model ≠ none) ∧
      checkFeatures reader policy matched body (extractGenerationFeatures reader body) =
        .ok () := by
  unfold checkCompleteRequestPolicy at hok
  dsimp only at hok
  rw [ite_error_eq_ok, ite_error_eq_ok, then_eq_ok] at hok
  obtain ⟨-, hmetadata, hfeatures, -⟩ := hok
  simp only [CompleteRequestBody.new, not_or, not_and, Option.isNone_iff_eq_none,
    Bool.not_eq_true] at hmetadata
  obtain ⟨hmalformed, hgeneration, hmodel⟩ := hmetadata
  refine ⟨fun hnone ↦ ⟨hmalformed hnone, ?_⟩, fun hbody hroute hmodels ↦ ?_, hfeatures⟩
  · by_contra htrue
    exact hgeneration (by simpa using htrue) hnone
  · exact hmodel (.inr ⟨hbody, hroute⟩) hmodels

/-- Assumes: an accepted object on a route other than that of batches. Its models are within the
policy, and so are its streams and tools when the object could be analysed. -/
theorem allowed_of_single {reader : Reader} {policy : KeyPolicy Usd} {matched : RouteMatch Usd}
    {body : List UInt8} {members : List (List UInt8 × Tree)} {now : Timestamp}
    (hbody : reader.shape body = some (.object members))
    (hok : checkCompleteRequestPolicy reader policy matched (.new reader body)
      (extractGenerationFeatures reader body) now = .ok ())
    (hroute : matched.route ≠ .anthropicMessageBatches) :
    ModelsAllowed reader policy (fun name ↦ reader.occurrences name members) ∧
      (analyzeGenerationRequest reader body ≠ none →
        FeaturesAllowed policy fun name ↦ reader.occurrences name members) := by
  obtain ⟨-, hmodel, hfeatures⟩ := checkCompleteRequestPolicy_eq_ok hok
  have hnonempty : body ≠ [] := by
    rintro rfl
    rw [reader.shape_nil] at hbody
    cases hbody
  replace hmodel := hmodel hnonempty hroute
  rw [checkFeatures, if_neg fun hbatch ↦ hroute hbatch.1] at hfeatures
  unfold extractGenerationFeatures at hmodel hfeatures
  rcases hanalysis : analyzeGenerationRequest reader body with _ | analysis
  · rw [hanalysis] at hmodel
    exact ⟨fun hmodels ↦ absurd rfl (hmodel hmodels), fun hsome ↦ absurd rfl hsome⟩
  · rw [hanalysis] at hmodel hfeatures
    have hshape : analyzeShape reader (.object members) = some analysis := by
      rw [← hanalysis, analyzeGenerationRequest, hbody]
      rfl
    obtain ⟨hallowed, hmodels⟩ := allowed_of_analysis hshape hfeatures
    exact ⟨fun hlist ↦ hmodels (hmodel hlist) hlist, fun _ ↦ hallowed⟩

/-- Assumes: an accepted object on the route of batches. What each entry keeps of its parameters is
within the policy. -/
theorem allowed_of_batch {reader : Reader} {policy : KeyPolicy Usd} {matched : RouteMatch Usd}
    {body : List UInt8} {members : List (List UInt8 × Tree)} {now : Timestamp}
    (hbody : reader.shape body = some (.object members))
    (hok : checkCompleteRequestPolicy reader policy matched (.new reader body)
      (extractGenerationFeatures reader body) now = .ok ())
    (hroute : matched.route = .anthropicMessageBatches) {elements : List Tree} {entry params : Tree}
    (hrequests : reader.get (ascii "requests") (.object members) = some (.array elements))
    (hentry : entry ∈ elements) (hparams : reader.get (ascii "params") entry = some params) :
    FeaturesAllowed policy (kept reader params) ∧
      ModelsAllowed reader policy (kept reader params) := by
  obtain ⟨-, -, hfeatures⟩ := checkCompleteRequestPolicy_eq_ok hok
  have hnonempty : body ≠ [] := by
    rintro rfl
    rw [reader.shape_nil] at hbody
    cases hbody
  rw [checkFeatures, if_pos ⟨hroute, hnonempty⟩, bind_eq_ok] at hfeatures
  obtain ⟨entries, hentries, hchecks⟩ := hfeatures
  rw [forM_eq_ok] at hchecks
  unfold batchRequestFeatures at hentries
  split at hentries
  · rename_i found hfound
    split_ifs at hentries
    have hcollapsed : found = Tree.collapseElements reader elements := by
      obtain ⟨value, hvalue, hget⟩ := Option.bind_eq_some_iff.mp hfound
      obtain ⟨tree, htree, rfl⟩ := Option.map_eq_some_iff.mp hvalue
      obtain ⟨hshape, -⟩ := Option.filter_eq_some_iff.mp htree
      rw [hbody, Option.some.injEq] at hshape
      rw [← hshape, Reader.get_collapse, hrequests, Option.map_some, Tree.collapse,
        Option.some.injEq, Tree.array.injEq] at hget
      exact hget.symm
    subst hcollapsed
    obtain ⟨features, hmem, hread⟩ :=
      exists_of_mapM hentries (Tree.mem_collapseElements hentry)
    have hchecked := hchecks features hmem
    rw [ite_error_eq_ok] at hchecked
    exact allowed_of_entryFeatures hparams hread hchecked.2
  · cases hentries

/-- Assumes: an object that the check accepts with the features that its analysis gives. On a route
other than that of batches, every model is an allowed one, and no stream or tool that the policy
forbids is given, on a generation route and wherever one of the two readings accepts the object. On
the route of batches, the same holds of what each entry keeps of its parameters. -/
theorem complete_check_sound (reader : Reader) (policy : KeyPolicy Usd) (matched : RouteMatch Usd)
    (body : List UInt8) (members : List (List UInt8 × Tree)) (now : Timestamp)
    (hbody : reader.shape body = some (.object members))
    (hok : checkCompleteRequestPolicy reader policy matched (.new reader body)
      (extractGenerationFeatures reader body) now = .ok ()) :
    (matched.route ≠ .anthropicMessageBatches →
      ModelsAllowed reader policy (fun name ↦ reader.occurrences name members) ∧
      (isGeneration matched.route = true ∨ reader.value 127 (.object members) = true ∨
          analyzeGenerationRequest reader body ≠ none →
        FeaturesAllowed policy fun name ↦ reader.occurrences name members)) ∧
    (matched.route = .anthropicMessageBatches → ∀ elements entry params,
      reader.get (ascii "requests") (.object members) = some (.array elements) →
      entry ∈ elements → reader.get (ascii "params") entry = some params →
      FeaturesAllowed policy (kept reader params) ∧
        ModelsAllowed reader policy (kept reader params)) := by
  refine ⟨fun hroute ↦ ?_, fun hroute elements entry params hrequests hentry hparams ↦
    allowed_of_batch hbody hok hroute hrequests hentry hparams⟩
  obtain ⟨hmodels, hfeatures⟩ := allowed_of_single hbody hok hroute
  refine ⟨hmodels, fun hreading ↦ hfeatures fun hnone ↦ ?_⟩
  obtain ⟨hmalformed, hgeneration⟩ := (checkCompleteRequestPolicy_eq_ok hok).1 hnone
  rcases hreading with hroute | hvalue | hsome
  · rw [hgeneration] at hroute
    cases hroute
  · have hparse : reader.parse body = some (.object (Tree.collapseMembers reader members)) := by
      rw [Reader.parse, hbody, Option.filter_some, if_pos hvalue]
      rfl
    rw [hparse] at hmalformed
    cases hmalformed
  · exact hsome hnone

end Usd

/-- A request for a completion that is not streamed. -/
def chatBody : List UInt8 :=
  ascii "\x7b\"model\":\"m\",\"stream\":false\x7d"

/-- A batch of one request, with a stream that belongs to no entry. -/
def streamingBatch : List UInt8 :=
  ascii "\x7b\"stream\":true,\"requests\":[\x7b\"params\":\x7b\"model\":\"m\"\x7d\x7d]\x7d"

def chatMembers : List (List UInt8 × Tree) :=
  [(ascii "model", .string (ascii "m")), (ascii "stream", .bool false)]

def streamingMembers : List (List UInt8 × Tree) :=
  [(ascii "stream", .bool true), (ascii "requests", .array [
    .object [(ascii "params", .object [(ascii "model", .string (ascii "m"))])]])]

def requestReader : Reader :=
  .ofShapes [(chatBody, .object chatMembers), (streamingBatch, .object streamingMembers)]

/-- A policy for one model that forbids streams and tools. -/
def modelPolicy : KeyPolicy ℤ :=
  { KeyPolicy.default ℤ with
    allowedRoutes := [.chatCompletions, .anthropicMessageBatches]
    allowedModels := [ascii "m"] }

/-- A match of a route with a bound of a kilobyte. -/
def matchOf (route : Route) : RouteMatch ℤ :=
  ⟨route, .liteLlm, 1024, none⟩

/-- The completion is accepted, and its features are within the policy. -/
theorem complete_check_completion :
    checkCompleteRequestPolicy requestReader modelPolicy (matchOf .chatCompletions)
        (.new requestReader chatBody) (extractGenerationFeatures requestReader chatBody) 0 =
      .ok () ∧
    ModelsAllowed requestReader modelPolicy
      (fun name ↦ requestReader.occurrences name chatMembers) ∧
    FeaturesAllowed modelPolicy fun name ↦ requestReader.occurrences name chatMembers := by
  have hok : checkCompleteRequestPolicy requestReader modelPolicy (matchOf .chatCompletions)
      (.new requestReader chatBody) (extractGenerationFeatures requestReader chatBody) 0 =
    .ok () := by decide
  obtain ⟨hmodels, hfeatures⟩ := (complete_check_sound requestReader modelPolicy
    (matchOf .chatCompletions) chatBody chatMembers 0 rfl hok).1 (by decide)
  exact ⟨hok, hmodels, hfeatures (.inl rfl)⟩

/-- The batch is accepted under the policy that forbids streams, and a stream is true in it. -/
theorem streaming_batch_accepted :
    requestReader.shape streamingBatch = some (.object streamingMembers) ∧
    checkCompleteRequestPolicy requestReader modelPolicy (matchOf .anthropicMessageBatches)
        (.new requestReader streamingBatch)
        (extractGenerationFeatures requestReader streamingBatch) 0 = .ok () ∧
    ¬ (modelPolicy.allowStreaming = false →
      ∀ tree ∈ requestReader.occurrences (ascii "stream") streamingMembers, tree ≠ .bool true) := by
  refine ⟨rfl, by decide, fun hnone ↦ ?_⟩
  exact hnone rfl (.bool true) ((requestReader.mem_occurrences _ _ _).mpr
    ⟨_, List.mem_cons_self, rfl, rfl⟩) rfl

end Relayna.Policy

import Mathlib.Algebra.BigOperators.Ring.List
import Mathlib.Data.List.Forall2
import Relayna.Library.Json.Reader
import Relayna.Library.MachineWord
import Relayna.Policy.KeyPolicy

/-!
# The cap on output tokens

`enforce_output_token_limit` decides before any paid work whether the output that a request asks for
is within the cap of its policy. It reads the body three times: as a whole value, whose fields must
all be known, into a record of the limit fields, and into a record of `extra_body`. Each reading
refuses what another would let pass, a limit that is given twice or an unknown field that would
override it.

`output_cap_enforced` states what an accepted body looks like, for single requests and for batches.
-/

set_option autoImplicit false
set_option relaxedAutoImplicit false

namespace Relayna.Policy

open Library.Json Library.MachineWord

/-! ### The fields of a request -/

/-- The fields that a capped request may have: those of its protocol. -/
def allowedFields : Route → Option (List Text)
  | .chatCompletions => some (["model", "messages", "stream", "stream_options", "max_tokens",
      "max_completion_tokens", "max_output_tokens", "n", "temperature", "top_p", "stop",
      "frequency_penalty", "presence_penalty", "logit_bias", "logprobs", "top_logprobs", "seed",
      "user", "tools", "tool_choice", "functions", "function_call", "parallel_tool_calls",
      "response_format", "metadata", "store", "reasoning_effort", "service_tier", "modalities",
      "audio", "prediction", "web_search_options", "verbosity", "prompt_cache_key",
      "safety_identifier", "guardrails", "extra_body"].map ascii)
  | .responses => some (["model", "input", "instructions", "stream", "stream_options",
      "max_output_tokens", "max_tool_calls", "max_tokens", "max_completion_tokens", "n",
      "temperature", "top_p", "top_logprobs", "tools", "tool_choice", "parallel_tool_calls",
      "metadata", "store", "reasoning", "service_tier", "truncation", "include", "text",
      "previous_response_id", "conversation", "background", "prompt", "user", "prompt_cache_key",
      "safety_identifier", "guardrails", "extra_body"].map ascii)
  | .anthropicMessages => some (["model", "messages", "system", "stream", "max_tokens",
      "max_completion_tokens", "max_output_tokens", "n", "temperature", "top_p", "top_k",
      "stop_sequences", "metadata", "tools", "tool_choice", "thinking", "output_config",
      "service_tier", "cache_control", "container", "context_management", "guardrails",
      "extra_body"].map ascii)
  | _ => none

/-- `OutputMaximumProbe`, where nothing stands for `Missing`. -/
structure OutputMaximumProbe where
  maxTokens : Option ℕ
  maxCompletionTokens : Option ℕ
  maxOutputTokens : Option ℕ
  n : Option ℕ

/-- Reading an `OutputMaximumProbe`. -/
def readOutputMaximumProbe (reader : Reader) (tree : Tree) : Option OutputMaximumProbe :=
  match reader.fields [ascii "max_tokens", ascii "max_completion_tokens",
    ascii "max_output_tokens", ascii "n"] 0 tree with
  | some [maxTokens, maxCompletionTokens, maxOutputTokens, n] => do
    let maxTokens ← field readU64 maxTokens
    let maxCompletionTokens ← field readU64 maxCompletionTokens
    let maxOutputTokens ← field readU64 maxOutputTokens
    let n ← field readU64 n
    return ⟨maxTokens, maxCompletionTokens, maxOutputTokens, n⟩
  | _ => none

/-- The limit that the protocol of a route requires. -/
def OutputMaximumProbe.required (probe : OutputMaximumProbe) : Route → Option ℕ
  | .chatCompletions => probe.maxCompletionTokens.or probe.maxTokens
  | .responses => probe.maxOutputTokens
  | .anthropicMessages => probe.maxTokens
  | _ => none

/-- The largest output that the limit fields allow. -/
def OutputMaximumProbe.maximum (probe : OutputMaximumProbe) (route : Route) :
    Except GatewayError ℕ :=
  match probe.required route with
  | none => .error .policyDenied
  | some required =>
    if required = 0 then .error .policyDenied
    else if [probe.maxTokens, probe.maxCompletionTokens, probe.maxOutputTokens].any
        (·.any (· ≠ required)) then .error .policyDenied
    else
      let count := probe.n.getD 1
      if count = 0 ∨ route ≠ .chatCompletions ∧ count ≠ 1 then .error .policyDenied
      else
        match checkedMul 64 required count with
        | some maximum => .ok maximum
        | none => .error .policyDenied

/-- `provider_output_maximum`. -/
def providerOutputMaximum (reader : Reader) (route : Route) (tree : Option Tree) :
    Except GatewayError ℕ :=
  match allowedFields route, tree.filter (reader.value 127) with
  | some allowed, some (.object members) =>
    if (members.filterMap fun member ↦ reader.text member.1).any (· ∉ allowed) then
      .error .policyDenied
    else
      match readOutputMaximumProbe reader (.object members) with
      | some probe => probe.maximum route
      | none => .error .policyDenied
  | _, _ => .error .policyDenied

/-! ### Extensions and batches -/

/-- A map of whole values, inside a record. -/
def readMap (reader : Reader) : Tree → Option (List (List UInt8 × Tree))
  | .object members => if reader.value 126 (.object members) then some members else none
  | _ => none

/-- Reading the record that has `extra_body` only. -/
def readExtraBody (reader : Reader) (tree : Tree) : Option (Option (List (List UInt8 × Tree))) :=
  match reader.fields [ascii "extra_body"] 1 tree with
  | some [extraBody] => (field (optional (readMap reader)) extraBody).map Option.join
  | _ => none

def containsKey (reader : Reader) (members : List (List UInt8 × Tree)) (key : Text) : Bool :=
  reader.occurrences key members ≠ []

/-- Reading an entry of a batch: its parameters as they are written. -/
def readEntry (reader : Reader) (entry : Tree) : Option Tree :=
  match reader.fields [ascii "params"] 1 entry with
  | some [[params]] => some params
  | _ => none

/-- Reading a batch: the parameters of its entries. -/
def readBatch (reader : Reader) (tree : Tree) : Option (List Tree) :=
  match reader.fields [ascii "requests"] 1 tree with
  | some [[.array entries]] => entries.mapM (readEntry reader)
  | _ => none

section Usd

variable {Usd : Type}

/-- `reject_provider_parameter_overrides` for a route other than that of batches. -/
def rejectOverrides (reader : Reader) (policy : KeyPolicy Usd) (route : Route)
    (tree : Option Tree) : Except GatewayError Unit :=
  let wildcard := route = .liteLlmPassthrough
  if wildcard ∧ ((tree.filter (reader.value 127)).any Tree.isObject) = false then .ok ()
  else if ¬ wildcard ∧ route ∉ [Route.chatCompletions, .responses, .anthropicMessages,
      .liteLlmEmbeddings, .liteLlmRerank] then .ok ()
  else
    match tree.bind (readExtraBody reader) with
    | none => .error .policyDenied
    | some none => .ok ()
    | some (some extra) =>
      if containsKey reader extra (ascii "model") then .error .policyDenied
      else if wildcard then .ok ()
      else if (policy.maxOutputTokensPerRequest.isSome ∧
            route ∈ [Route.chatCompletions, .responses, .anthropicMessages] ∧ extra ≠ []) ∨
          (policy.allowStreaming = false ∧ containsKey reader extra (ascii "stream")) ∨
          (policy.allowTools = false ∧ (["tools", "functions", "tool_choice", "function_call"].any
            fun name ↦ containsKey reader extra (ascii name))) then .error .policyDenied
      else .ok ()

/-- `reject_provider_parameter_overrides`. -/
def rejectProviderParameterOverrides (reader : Reader) (policy : KeyPolicy Usd) (route : Route)
    (tree : Option Tree) : Except GatewayError Unit :=
  if route = .anthropicMessageBatches then
    match tree.bind (readBatch reader) with
    | none => .error .policyDenied
    | some entries =>
      entries.forM fun params ↦ rejectOverrides reader policy .anthropicMessages (some params)
  else rejectOverrides reader policy route tree

/-- The output that the entries of a batch ask for, added to a total. -/
def batchMaximum (reader : Reader) : ℕ → List Tree → Except GatewayError ℕ
  | total, [] => .ok total
  | total, params :: entries => do
    let maximum ← providerOutputMaximum reader .anthropicMessages (some params)
    match checkedAdd 64 total maximum with
    | some total => batchMaximum reader total entries
    | none => .error .policyDenied

/-- The output that a body asks for. -/
def requestedMaximum (reader : Reader) (route : Route) (tree : Option Tree) :
    Except GatewayError ℕ :=
  if route = .anthropicMessageBatches then
    match tree.bind (readBatch reader) with
    | none => .error .policyDenied
    | some entries => if entries = [] then .error .policyDenied else batchMaximum reader 0 entries
  else providerOutputMaximum reader route tree

/-- `enforce_output_token_limit`. -/
def enforceOutputTokenLimit (reader : Reader) (policy : KeyPolicy Usd) (route : Route)
    (body : List UInt8) : Except GatewayError Unit := do
  let tree := reader.shape body
  rejectProviderParameterOverrides reader policy route tree
  match policy.maxOutputTokensPerRequest with
  | none => .ok ()
  | some limit =>
    if route ∈ [Route.liteLlmEmbeddings, .liteLlmRerank, .anthropicMessagesCountTokens,
        .anthropicModels] then .ok ()
    else if limit < 0 then .error .policyDenied
    else do
      let maximum ← requestedMaximum reader route tree
      if limit < maximum then .error .policyDenied else .ok ()

end Usd

/-! ### What an accepted body looks like -/

def limitFields : List Text :=
  [ascii "max_tokens", ascii "max_completion_tokens", ascii "max_output_tokens"]

/-- The members of a request that asks for so many completions of so many tokens: every limit field
that is given, and one is, has that number of tokens; the count is given or is one; no limit field,
count or extension is given twice; the extension is absent, null or empty; every field is allowed.
-/
structure Bounded (reader : Reader) (allowed : List Text) (members : List (List UInt8 × Tree))
    (tokens count : ℕ) : Prop where
  given : ∃ name ∈ limitFields, reader.occurrences name members ≠ []
  limit : ∀ name ∈ limitFields, ∀ tree ∈ reader.occurrences name members, readU64 tree = some tokens
  limit_once : ∀ name ∈ limitFields, (reader.occurrences name members).length ≤ 1
  count_eq : reader.occurrences (ascii "n") members = [] ∧ count = 1 ∨
    ∃ tree, reader.occurrences (ascii "n") members = [tree] ∧ readU64 tree = some count
  extension_once : (reader.occurrences (ascii "extra_body") members).length ≤ 1
  extension : ∀ tree ∈ reader.occurrences (ascii "extra_body") members,
    tree = .null ∨ tree = .object []
  known : ∀ member ∈ members, ∃ name ∈ allowed, reader.text member.1 = some name

theorem text_of_readableMembers {reader : Reader} {members : List (List UInt8 × Tree)}
    (hreadable : Tree.readableMembers reader members = true) :
    ∀ member ∈ members, (reader.text member.1).isSome = true := by
  induction members with
  | nil => exact fun member hmember ↦ absurd hmember List.not_mem_nil
  | cons first members ih =>
    obtain ⟨key, tree⟩ := first
    rw [Tree.readableMembers, Bool.and_eq_true, Bool.and_eq_true] at hreadable
    rw [List.forall_mem_cons]
    exact ⟨hreadable.1.1, ih hreadable.2⟩

/-- What a probe of an object says about its members. -/
theorem readOutputMaximumProbe_object {reader : Reader} {members : List (List UInt8 × Tree)}
    {probe : OutputMaximumProbe}
    (hprobe : readOutputMaximumProbe reader (.object members) = some probe) :
    field readU64 (reader.occurrences (ascii "max_tokens") members) = some probe.maxTokens ∧
      field readU64 (reader.occurrences (ascii "max_completion_tokens") members) =
        some probe.maxCompletionTokens ∧
      field readU64 (reader.occurrences (ascii "max_output_tokens") members) =
        some probe.maxOutputTokens ∧
      field readU64 (reader.occurrences (ascii "n") members) = some probe.n := by
  unfold readOutputMaximumProbe at hprobe
  rcases reader.fields_object [ascii "max_tokens", ascii "max_completion_tokens",
    ascii "max_output_tokens", ascii "n"] 0 members with hfields | hfields
  · rw [hfields] at hprobe
    simp only [List.map_cons, List.map_nil, Option.bind_eq_bind, Option.bind_eq_some_iff,
      Option.pure_def, Option.some.injEq] at hprobe
    obtain ⟨maxTokens, hmaxTokens, maxCompletion, hmaxCompletion, maxOutput, hmaxOutput, n, hn,
      rfl⟩ := hprobe
    exact ⟨hmaxTokens, hmaxCompletion, hmaxOutput, hn⟩
  · rw [hfields] at hprobe
    cases hprobe

/-- Assumes: a maximum. It is the product of the count and of the number that every given limit has.
-/
theorem maximum_eq_ok {probe : OutputMaximumProbe} {route : Route} {maximum : ℕ}
    (hmaximum : probe.maximum route = .ok maximum) :
    ∃ tokens, probe.required route = some tokens ∧
      (∀ given ∈ [probe.maxTokens, probe.maxCompletionTokens, probe.maxOutputTokens],
        ∀ value, given = some value → value = tokens) ∧
      maximum = tokens * probe.n.getD 1 := by
  unfold OutputMaximumProbe.maximum at hmaximum
  split at hmaximum
  · cases hmaximum
  rename_i tokens hrequired
  refine ⟨tokens, hrequired, ?_⟩
  dsimp only at hmaximum
  split_ifs at hmaximum with hzero hgiven hcount
  split at hmaximum
  · rename_i product hproduct
    obtain rfl := Except.ok.inj hmaximum
    refine ⟨fun given hmem value hvalue ↦ ?_, (checkedMul_eq_some.mp hproduct).1.symm⟩
    by_contra hne
    refine hgiven (List.any_eq_true.mpr ⟨given, hmem, ?_⟩)
    rw [hvalue, Option.any_some, decide_eq_true_eq]
    exact hne
  · cases hmaximum

/-- The limit that a route requires is one of those that are given. -/
theorem required_given {probe : OutputMaximumProbe} {route : Route} {tokens : ℕ}
    (hrequired : probe.required route = some tokens) :
    probe.maxTokens = some tokens ∨ probe.maxCompletionTokens = some tokens ∨
      probe.maxOutputTokens = some tokens := by
  unfold OutputMaximumProbe.required at hrequired
  split at hrequired
  · rcases hcompletion : probe.maxCompletionTokens with _ | completion
    · rw [hcompletion, Option.none_or] at hrequired
      exact .inl hrequired
    · rw [hcompletion, Option.some_or] at hrequired
      exact .inr (.inl hrequired)
  · exact .inr (.inr hrequired)
  · exact .inl hrequired
  · cases hrequired

/-- Assumes: a field that was read. Its values have the number that was read. -/
theorem readU64_of_field {trees : List Tree} {given : Option ℕ}
    (hfield : field readU64 trees = some given) {tokens : ℕ}
    (htokens : ∀ value, given = some value → value = tokens) :
    ∀ tree ∈ trees, readU64 tree = some tokens := by
  intro tree htree
  rcases given with _ | value
  · rw [field_eq_some_none hfield] at htree
    exact absurd htree List.not_mem_nil
  · obtain ⟨single, rfl, hread⟩ := field_eq_some_some hfield
    rw [List.mem_singleton.mp htree, hread, htokens value rfl]

/-- Assumes: a maximum of a request and an extension that is absent, null or empty. The request is
bounded, and the maximum is what it asks for. -/
theorem bounded_of_maximum {reader : Reader} {route : Route} {tree : Option Tree} {maximum : ℕ}
    (hmaximum : providerOutputMaximum reader route tree = .ok maximum)
    (hextra : ∀ members, tree = some (.object members) →
      (reader.occurrences (ascii "extra_body") members).length ≤ 1 ∧
        ∀ extension ∈ reader.occurrences (ascii "extra_body") members,
          extension = .null ∨ extension = .object []) :
    ∃ allowed members tokens count, allowedFields route = some allowed ∧
      tree = some (.object members) ∧ Bounded reader allowed members tokens count ∧
      maximum = tokens * count := by
  unfold providerOutputMaximum at hmaximum
  split at hmaximum
  · rename_i allowed members hallowed htree
    obtain ⟨hshape, hvalue⟩ := Option.filter_eq_some_iff.mp htree
    have hreadable : Tree.readableMembers reader members = true :=
      (Bool.and_eq_true_iff.mp hvalue).2
    split_ifs at hmaximum with hunknown
    split at hmaximum
    · rename_i probe hprobe
      obtain ⟨hmaxTokens, hmaxCompletion, hmaxOutput, hn⟩ := readOutputMaximumProbe_object hprobe
      obtain ⟨tokens, hrequired, hsame, hproduct⟩ := maximum_eq_ok hmaximum
      simp only [List.forall_mem_cons, List.not_mem_nil, false_imp_iff, implies_true,
        and_true] at hsame
      refine ⟨allowed, members, tokens, probe.n.getD 1, hallowed, hshape, ?_, hproduct⟩
      refine ⟨?_, ?_, ?_, ?_, (hextra members hshape).1, (hextra members hshape).2, ?_⟩
      · have hgiven {name : Text} {given : Option ℕ}
            (hfield : field readU64 (reader.occurrences name members) = some given)
            (hsome : given = some tokens) : reader.occurrences name members ≠ [] := by
          subst hsome
          obtain ⟨single, hsingle, -⟩ := field_eq_some_some hfield
          rw [hsingle]
          exact List.cons_ne_nil _ _
        rcases required_given hrequired with htokens | htokens | htokens
        · exact ⟨_, by simp [limitFields], hgiven hmaxTokens htokens⟩
        · exact ⟨_, by simp [limitFields], hgiven hmaxCompletion htokens⟩
        · exact ⟨_, by simp [limitFields], hgiven hmaxOutput htokens⟩
      · simp only [limitFields, List.forall_mem_cons, List.not_mem_nil, false_imp_iff, implies_true,
          and_true]
        exact ⟨readU64_of_field hmaxTokens hsame.1, readU64_of_field hmaxCompletion hsame.2.1,
          readU64_of_field hmaxOutput hsame.2.2⟩
      · simp only [limitFields, List.forall_mem_cons, List.not_mem_nil, false_imp_iff, implies_true,
          and_true]
        exact ⟨length_le_of_field hmaxTokens, length_le_of_field hmaxCompletion,
          length_le_of_field hmaxOutput⟩
      · rcases hcount : probe.n with _ | count
        · rw [hcount] at hn
          exact .inl ⟨field_eq_some_none hn, rfl⟩
        · rw [hcount] at hn
          exact .inr (field_eq_some_some hn)
      · intro member hmember
        obtain ⟨name, hname⟩ :=
          Option.isSome_iff_exists.mp (text_of_readableMembers hreadable member hmember)
        refine ⟨name, ?_, hname⟩
        by_contra hnot
        refine hunknown (List.any_eq_true.mpr ⟨name, ?_, by simpa using hnot⟩)
        exact List.mem_filterMap.mpr ⟨member, hmember, hname⟩
    · cases hmaximum
  · cases hmaximum

section Usd

variable {Usd : Type}

/-- The routes of single requests that a cap can be enforced on. -/
def isCappedSingle (route : Route) : Bool :=
  route ∈ [Route.chatCompletions, .responses, .anthropicMessages]

/-- Assumes: a capped request whose overrides are not rejected. Its extension is given at most once,
and is null or empty. -/
theorem extension_of_rejectOverrides {reader : Reader} {policy : KeyPolicy Usd} {route : Route}
    {members : List (List UInt8 × Tree)} (hcap : policy.maxOutputTokensPerRequest.isSome = true)
    (hroute : isCappedSingle route = true)
    (hok : rejectOverrides reader policy route (some (.object members)) = .ok ()) :
    (reader.occurrences (ascii "extra_body") members).length ≤ 1 ∧
      ∀ extension ∈ reader.occurrences (ascii "extra_body") members,
        extension = .null ∨ extension = .object [] := by
  have hwildcard : route ≠ .liteLlmPassthrough := by
    rintro rfl
    exact absurd hroute (by decide)
  have hlisted : route ∈ [Route.chatCompletions, .responses, .anthropicMessages] := by
    simpa [isCappedSingle] using hroute
  have hgeneration : route ∈ [Route.chatCompletions, .responses, .anthropicMessages,
      .liteLlmEmbeddings, .liteLlmRerank] := by
    simp only [List.mem_cons, List.not_mem_nil, or_false] at hlisted ⊢
    tauto
  unfold rejectOverrides at hok
  simp only [hwildcard, false_and, if_false, not_false_eq_true, true_and, hgeneration,
    not_true_eq_false, Option.bind_some, hlisted, hcap] at hok
  unfold readExtraBody at hok
  rcases reader.fields_object [ascii "extra_body"] 1 members with hfields | hfields
  · rw [hfields] at hok
    simp only [List.map_cons, List.map_nil] at hok
    rcases hfield : field (optional (readMap reader))
        (reader.occurrences (ascii "extra_body") members) with _ | given
    · rw [hfield] at hok
      cases hok
    · refine ⟨length_le_of_field hfield, fun extension hextension ↦ ?_⟩
      rcases given with _ | given
      · rw [field_eq_some_none hfield] at hextension
        exact absurd hextension List.not_mem_nil
      · obtain ⟨single, hsingle, hoptional⟩ := field_eq_some_some hfield
        rw [hsingle, List.mem_singleton] at hextension
        subst hextension
        rcases given with _ | extra
        · exact .inl (optional_eq_some_none hoptional)
        · have hmap := optional_eq_some_some hoptional
          rw [hfield] at hok
          simp only [Option.map_some, Option.join_some, ite_error_eq_ok, not_or, not_and,
            not_not] at hok
          obtain rfl := hok.2.1.1
          unfold readMap at hmap
          split at hmap
          · split_ifs at hmap
            rw [Option.some.inj hmap]
            exact .inr rfl
          · cases hmap
  · rw [hfields] at hok
    cases hok

/-- Fields are allowed on the capped routes of single requests only. -/
theorem isCappedSingle_of_allowedFields {route : Route} {allowed : List Text}
    (hallowed : allowedFields route = some allowed) : isCappedSingle route = true := by
  unfold allowedFields at hallowed
  split at hallowed
  · rfl
  · rfl
  · rfl
  · cases hallowed

/-- Assumes: a cap, a request whose overrides are not rejected, and its maximum. The request is
bounded, and the maximum is what it asks for. -/
theorem bounded_of_accepted {reader : Reader} {policy : KeyPolicy Usd} {route : Route}
    {tree : Option Tree} {maximum : ℕ} (hcap : policy.maxOutputTokensPerRequest.isSome = true)
    (hoverrides : rejectOverrides reader policy route tree = .ok ())
    (hmaximum : providerOutputMaximum reader route tree = .ok maximum) :
    ∃ allowed members tokens count, allowedFields route = some allowed ∧
      tree = some (.object members) ∧ Bounded reader allowed members tokens count ∧
      maximum = tokens * count := by
  refine bounded_of_maximum hmaximum fun members htree ↦ ?_
  subst htree
  have hroute : isCappedSingle route = true := by
    rcases hallowed : allowedFields route with _ | allowed
    · unfold providerOutputMaximum at hmaximum
      rw [hallowed] at hmaximum
      cases hmaximum
    · exact isCappedSingle_of_allowedFields hallowed
  exact extension_of_rejectOverrides hcap hroute hoverrides

/-! ### Whole bodies -/

/-- The requests that a body holds: the parameters of the entries of a batch, or the body itself. -/
def requestsOf (reader : Reader) (route : Route) (body : List UInt8) : Option (List Tree) :=
  if route = .anthropicMessageBatches then (reader.shape body).bind (readBatch reader)
  else (reader.shape body).map fun tree ↦ [tree]

/-- The route that each request of a body is for. -/
def requestRoute (route : Route) : Route :=
  if route = .anthropicMessageBatches then .anthropicMessages else route

/-- A request asks for at most so many completions of so many tokens. -/
def Demands (reader : Reader) (allowed : List Text) (request : Tree) (demand : ℕ × ℕ) : Prop :=
  ∃ members, request = .object members ∧ Bounded reader allowed members demand.1 demand.2

/-- The tokens that several requests ask for. -/
def demanded (demands : List (ℕ × ℕ)) : ℕ :=
  (demands.map fun demand ↦ demand.1 * demand.2).sum

/-- Assumes: a cap, and a batch whose entries have no rejected override and a total. Every entry is
bounded, and the total grew by what they ask for. -/
theorem demands_of_batchMaximum {reader : Reader} {policy : KeyPolicy Usd} {allowed : List Text}
    (hcap : policy.maxOutputTokensPerRequest.isSome = true)
    (hallowed : allowedFields .anthropicMessages = some allowed) (entries : List Tree)
    (hoverrides : ∀ params ∈ entries,
      rejectOverrides reader policy .anthropicMessages (some params) = .ok ())
    {total maximum : ℕ} (hmaximum : batchMaximum reader total entries = .ok maximum) :
    ∃ demands, List.Forall₂ (Demands reader allowed) entries demands ∧
      maximum = total + demanded demands := by
  induction entries generalizing total with
  | nil =>
    obtain rfl := Except.ok.inj hmaximum
    exact ⟨[], .nil, rfl⟩
  | cons params entries ih =>
    rw [List.forall_mem_cons] at hoverrides
    rw [batchMaximum, bind_eq_ok] at hmaximum
    obtain ⟨entryMaximum, hentry, hrest⟩ := hmaximum
    obtain ⟨allowed', members, tokens, count, hallowed', hmembers, hbounded, hproduct⟩ :=
      bounded_of_accepted hcap hoverrides.1 hentry
    rw [hallowed] at hallowed'
    obtain rfl := Option.some.inj hallowed'
    rcases hsum : checkedAdd 64 total entryMaximum with _ | sum
    · rw [hsum] at hrest
      cases hrest
    · rw [hsum] at hrest
      obtain ⟨demands, hdemands, hmaximum⟩ := ih hoverrides.2 hrest
      refine ⟨(tokens, count) :: demands,
        .cons ⟨members, Option.some.inj hmembers, hbounded⟩ hdemands, ?_⟩
      rw [hmaximum, ← (checkedAdd_eq_some.mp hsum).1, hproduct, Nat.add_assoc]
      rfl

/-- Assumes: a cap, and a body without a rejected override whose maximum was found. Every request of
the body is bounded, and the maximum is what they ask for together. -/
theorem demands_of_requestedMaximum {reader : Reader} {policy : KeyPolicy Usd} {route : Route}
    {body : List UInt8} {maximum : ℕ} (hcap : policy.maxOutputTokensPerRequest.isSome = true)
    (hoverrides : rejectProviderParameterOverrides reader policy route (reader.shape body) = .ok ())
    (hmaximum : requestedMaximum reader route (reader.shape body) = .ok maximum) :
    ∃ requests allowed demands, requestsOf reader route body = some requests ∧ requests ≠ [] ∧
      allowedFields (requestRoute route) = some allowed ∧
      List.Forall₂ (Demands reader allowed) requests demands ∧ maximum = demanded demands := by
  unfold rejectProviderParameterOverrides at hoverrides
  unfold requestedMaximum at hmaximum
  unfold requestsOf requestRoute
  split_ifs at hoverrides hmaximum ⊢ with hbatch
  · rcases hentries : (reader.shape body).bind (readBatch reader) with _ | entries
    · rw [hentries] at hmaximum
      cases hmaximum
    · rw [hentries] at hoverrides hmaximum
      dsimp only at hoverrides hmaximum
      split_ifs at hmaximum with hempty
      obtain ⟨demands, hdemands, htotal⟩ := demands_of_batchMaximum hcap rfl entries
        ((forM_eq_ok _ entries).mp hoverrides) hmaximum
      exact ⟨entries, _, demands, rfl, hempty, rfl, hdemands, htotal.trans (Nat.zero_add _)⟩
  · obtain ⟨allowed, members, tokens, count, hallowed, hmembers, hbounded, hproduct⟩ :=
      bounded_of_accepted hcap hoverrides hmaximum
    refine ⟨[.object members], allowed, [(tokens, count)], by rw [hmembers]; rfl,
      List.cons_ne_nil _ _, hallowed, .cons ⟨members, rfl, hbounded⟩ .nil, ?_⟩
    rw [hproduct]
    exact (Nat.add_zero _).symm

/-- Assumes: a cap, a route that generates output, and a body that was accepted. Every request of
the body is an object whose limit fields agree, whose limits, count and extension are given once,
whose extension has nothing in it and whose fields are all allowed; and the tokens that the requests
ask for together are within the cap. -/
theorem output_cap_enforced (reader : Reader) (policy : KeyPolicy Usd) (limit : ℤ) (route : Route)
    (body : List UInt8) (hcap : policy.maxOutputTokensPerRequest = some limit)
    (hroute : route ∉ [Route.liteLlmEmbeddings, .liteLlmRerank, .anthropicMessagesCountTokens,
      .anthropicModels])
    (hok : enforceOutputTokenLimit reader policy route body = .ok ()) :
    ∃ requests allowed demands, requestsOf reader route body = some requests ∧ requests ≠ [] ∧
      allowedFields (requestRoute route) = some allowed ∧
      List.Forall₂ (Demands reader allowed) requests demands ∧ (demanded demands : ℤ) ≤ limit := by
  unfold enforceOutputTokenLimit at hok
  rw [then_eq_ok, hcap] at hok
  obtain ⟨hoverrides, hlimit⟩ := hok
  simp only [hroute, if_false] at hlimit
  rw [ite_error_eq_ok, bind_eq_ok] at hlimit
  obtain ⟨-, maximum, hmaximum, hbelow⟩ := hlimit
  rw [ite_error_eq_ok] at hbelow
  have hsome : policy.maxOutputTokensPerRequest.isSome = true := by
    rw [hcap]
    rfl
  obtain ⟨requests, allowed, demands, hrequests, hnonempty, hallowed, hdemands, rfl⟩ :=
    demands_of_requestedMaximum hsome hoverrides hmaximum
  exact ⟨requests, allowed, demands, hrequests, hnonempty, hallowed, hdemands,
    not_lt.mp hbelow.1⟩

/-- A batch of two requests, for 10 and for 20 tokens. -/
def batchBody : List UInt8 :=
  ascii ("\x7b\"requests\":[\x7b\"params\":\x7b\"max_tokens\":10\x7d\x7d," ++
    "\x7b\"params\":\x7b\"max_tokens\":20,\"n\":1,\"extra_body\":\x7b\x7d\x7d\x7d]\x7d")

def batchReader : Reader :=
  .ofShapes [(batchBody, .object [(ascii "requests", .array [
    .object [(ascii "params", .object [(ascii "max_tokens", .number (ascii "10"))])],
    .object [(ascii "params", .object [(ascii "max_tokens", .number (ascii "20")),
      (ascii "n", .number (ascii "1")), (ascii "extra_body", .object [])])]])])]

/-- A policy that caps the output. -/
def cappedPolicy (limit : ℤ) : KeyPolicy ℤ :=
  { KeyPolicy.default ℤ with maxOutputTokensPerRequest := some limit }

/-- A batch that asks for 30 tokens is accepted under a cap of 30, and the cap bounds it. -/
theorem output_cap_batch_of_thirty :
    enforceOutputTokenLimit batchReader (cappedPolicy 30) .anthropicMessageBatches batchBody =
      .ok () ∧
      ∃ requests allowed demands,
        requestsOf batchReader .anthropicMessageBatches batchBody = some requests ∧ requests ≠ [] ∧
        allowedFields (requestRoute .anthropicMessageBatches) = some allowed ∧
        List.Forall₂ (Demands batchReader allowed) requests demands ∧
        (demanded demands : ℤ) ≤ 30 := by
  have hok : enforceOutputTokenLimit batchReader (cappedPolicy 30)
    .anthropicMessageBatches batchBody =
      .ok () := by decide
  exact ⟨hok, output_cap_enforced batchReader (cappedPolicy 30) 30
    .anthropicMessageBatches batchBody
    rfl (by decide) hok⟩

end Usd

end Relayna.Policy

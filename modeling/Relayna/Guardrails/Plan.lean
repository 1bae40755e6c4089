import Relayna.Policy.Layers

/-!
# Guardrail plans

`resolve_guardrail_plan` of `crates/gateway-core/src/guardrails.rs` selects the guardrails of a
request: those that are on by default, then those that a policy layer makes mandatory, then those
that the client asks for. A name that is selected twice is taken once, at its first place.

`Selects` says what one of the three loops adds to a plan. `client_requests_only_add` puts them
together: whatever a client asks for, its plan begins with the plan of a client that asks for
nothing.
-/

set_option autoImplicit false
set_option relaxedAutoImplicit false

namespace Relayna.Guardrails

open Library.Json (Value StringBody)
open Policy (Text GuardrailPolicy)

/-! ### Data -/

/-- The errors of guarded requests and responses. -/
inductive GatewayError
  | invalidGuardrailRequest
  | guardrailForbidden
  | guardrailUnavailable
  | guardrailBlocked
  | policyDenied
  | requestBodyTooLarge
  | responseBodyTooLarge
  deriving DecidableEq

/-- The errors of policies are among them. -/
def GatewayError.ofPolicy : Policy.GatewayError → GatewayError
  | .policyDenied => .policyDenied
  | .requestBodyTooLarge => .requestBodyTooLarge
  | .responseBodyTooLarge => .responseBodyTooLarge
  | .invalidGuardrailRequest => .invalidGuardrailRequest
  | .guardrailForbidden => .guardrailForbidden

inductive GuardrailMode
  | preCall
  | postCall
  | duringCall
  deriving DecidableEq

inductive GuardrailFailurePolicy
  | failClosed
  | failOpen
  | dryRun
  deriving DecidableEq

structure GuardrailDefinition where
  name : Text
  description : Text
  modes : List GuardrailMode
  defaultOn : Bool
  failurePolicy : GuardrailFailurePolicy
  configSchema : Value
  config : Value
  enabled : Bool

def GuardrailDefinition.supportsMode (definition : GuardrailDefinition) (mode : GuardrailMode) :
    Bool :=
  definition.enabled && decide (mode ∈ definition.modes)

structure GuardrailPlanEntry where
  definition : GuardrailDefinition

/-- `GuardrailPlan`, by its entries. -/
abbrev GuardrailPlan := List GuardrailPlanEntry

def GuardrailPlan.names (plan : GuardrailPlan) : List Text :=
  plan.map (·.definition.name)

structure GuardrailPolicySet where
  keyPolicy : GuardrailPolicy
  teamPolicy : Option GuardrailPolicy
  routePolicy : Option GuardrailPolicy
  modelPolicy : Option GuardrailPolicy

structure GuardrailPlanRequest where
  mode : GuardrailMode
  definitions : List GuardrailDefinition
  policies : GuardrailPolicySet
  clientRequestedGuardrails : List Text

/-! ### Configurations -/

/-- The members of an object. Other values have none. -/
def membersOf : Value → List (StringBody × Value)
  | .object members => members
  | _ => []

/-- `Map::insert`, for members in the order of their keys. -/
def insertMember (key : StringBody) (value : Value) :
    List (StringBody × Value) → List (StringBody × Value)
  | [] => [(key, value)]
  | (other, held) :: rest =>
    if Library.Json.decode key.1 = Library.Json.decode other.1 then (other, value) :: rest
    else if Library.Json.decode key.1 < Library.Json.decode other.1 then
      (key, value) :: (other, held) :: rest
    else (other, held) :: insertMember key value rest

/-- `merge_object_config`: the members of the second object replace those of the first. -/
def mergeObjectConfig (base overriding : Value) : Value :=
  .object ((membersOf overriding).foldl (fun merged member ↦ insertMember member.1 member.2 merged)
    (membersOf base))

/-- The key `provider_config`. -/
def providerConfig : StringBody :=
  ⟨Library.Json.ascii "provider_config", Library.Json.body_of_plain (by decide +kernel)⟩

/-- `provider_kind` is the text `http`. -/
def isHttpProvider (config : Value) : Bool :=
  match config.get (Library.Json.ascii "provider_kind") with
  | some (.string raw) => decide (Library.Json.decode raw.1 = Library.Json.ascii "http")
  | _ => false

def mergeHttpProviderConfig (base overriding : Value) : Value :=
  let provider := (base.get providerConfig.1).getD (.object [])
  let others := (membersOf base).filter fun member ↦
    decide (Library.Json.decode member.1.1 ≠ providerConfig.1)
  .object (insertMember providerConfig (mergeObjectConfig provider overriding) others)

def mergeRuntimeConfig (base overriding : Value) : Value :=
  if isHttpProvider base then mergeHttpProviderConfig base overriding
  else mergeObjectConfig base overriding

/-! ### Resolution -/

/-- `policy_iter`. -/
def GuardrailPolicySet.policies (policies : GuardrailPolicySet) : List GuardrailPolicy :=
  policies.keyPolicy :: (policies.teamPolicy.toList ++ policies.routePolicy.toList ++
    policies.modelPolicy.toList)

/-- `effective_forbidden_guardrails`. -/
def GuardrailPolicySet.forbidden (policies : GuardrailPolicySet) : List Text :=
  policies.policies.flatMap (·.forbiddenGuardrails)

/-- The optional guardrails of all policies. -/
def GuardrailPolicySet.optional (policies : GuardrailPolicySet) : List Text :=
  policies.policies.flatMap (·.optionalGuardrails)

def validateGuardrailConfigOverrides (request : GuardrailPlanRequest) :
    Except GatewayError Unit :=
  request.policies.policies.forM fun policy ↦ do
    policy.validate.mapError GatewayError.ofPolicy
    policy.guardrailConfigOverrides.forM fun entry ↦
      if entry.1 ∉ request.definitions.map (·.name) then .error .invalidGuardrailRequest
      else if entry.1 ∈ request.policies.forbidden then .error .guardrailForbidden
      else .ok ()

def withEffectiveConfig (definition : GuardrailDefinition) (policies : GuardrailPolicySet) :
    GuardrailDefinition :=
  { definition with
    config := policies.policies.foldl (fun config policy ↦
      match policy.guardrailConfigOverrides.lookup definition.name with
      | some overriding => mergeRuntimeConfig config overriding
      | none => config) definition.config }

/-- `BTreeMap::insert`, for definitions in the order of their names. -/
def insertDefinition (definition : GuardrailDefinition) :
    List GuardrailDefinition → List GuardrailDefinition
  | [] => [definition]
  | held :: rest =>
    if definition.name = held.name then definition :: rest
    else if definition.name < held.name then definition :: held :: rest
    else held :: insertDefinition definition rest

/-- The definitions that support the mode of a request, by name. -/
def GuardrailPlanRequest.supported (request : GuardrailPlanRequest) : List GuardrailDefinition :=
  request.definitions.foldl (fun definitions definition ↦
    if definition.supportsMode request.mode then
      insertDefinition (withEffectiveConfig definition request.policies) definitions
    else definitions) []

def pushDefinitionOnce (plan : GuardrailPlan) (definition : GuardrailDefinition) : GuardrailPlan :=
  if plan.any fun entry ↦ decide (entry.definition.name = definition.name) then plan
  else plan ++ [⟨definition⟩]

def mandatoryDefinition (request : GuardrailPlanRequest) (name : Text) :
    Except GatewayError GuardrailDefinition :=
  if name ∈ request.policies.forbidden then .error .guardrailForbidden
  else
    match request.supported.find? fun definition ↦ decide (definition.name = name) with
    | none => .error .guardrailUnavailable
    | some definition => .ok definition

/-- The definition of a guardrail that a client asks for. -/
def requestedDefinition (request : GuardrailPlanRequest) (name : Text) :
    Except GatewayError GuardrailDefinition :=
  if name ∈ request.policies.forbidden then .error .guardrailForbidden
  else if name ∉ request.policies.optional then .error .guardrailForbidden
  else
    match request.supported.find? fun definition ↦ decide (definition.name = name) with
    | none => .error .invalidGuardrailRequest
    | some definition => .ok definition

/-- The loops of `resolve_guardrail_plan` over names. -/
def pushNamed (define : Text → Except GatewayError GuardrailDefinition) (plan : GuardrailPlan)
    (names : List Text) : Except GatewayError GuardrailPlan :=
  names.foldlM (fun plan name ↦ do
    let definition ← define name
    return pushDefinitionOnce plan definition) plan

def resolveGuardrailPlan (request : GuardrailPlanRequest) : Except GatewayError GuardrailPlan := do
  validateGuardrailConfigOverrides request
  let plan := (request.supported.filter (·.defaultOn)).foldl pushDefinitionOnce []
  let plan ← request.policies.policies.foldlM
    (fun plan policy ↦ pushNamed (mandatoryDefinition request) plan policy.mandatoryGuardrails) plan
  pushNamed (requestedDefinition request) plan request.clientRequestedGuardrails

/-! ### Definitions by name -/

section Definitions

theorem mem_insertDefinition_self (definition : GuardrailDefinition)
    (definitions : List GuardrailDefinition) :
    definition ∈ insertDefinition definition definitions := by
  induction definitions with
  | nil => exact List.mem_singleton_self definition
  | cons held rest ih =>
    rw [insertDefinition]
    split_ifs
    · exact List.mem_cons_self
    · exact List.mem_cons_self
    · exact List.mem_cons_of_mem held ih

/-- A definition of another name stays. -/
theorem mem_insertDefinition_of_ne {definition other : GuardrailDefinition}
    {definitions : List GuardrailDefinition} (hother : other ∈ definitions)
    (hname : other.name ≠ definition.name) : other ∈ insertDefinition definition definitions := by
  induction definitions with
  | nil => cases hother
  | cons held rest ih =>
    rw [insertDefinition]
    split_ifs with hsame
    · rcases List.mem_cons.mp hother with rfl | hmem
      · exact absurd hsame.symm hname
      · exact List.mem_cons_of_mem definition hmem
    · exact List.mem_cons_of_mem definition hother
    · rcases List.mem_cons.mp hother with rfl | hmem
      · exact List.mem_cons_self
      · exact List.mem_cons_of_mem held (ih hmem)

/-- Assumes: a definition that supports the mode, and no later one of its name that does. It counts.
-/
theorem mem_supported {request : GuardrailPlanRequest} {before after : List GuardrailDefinition}
    {definition : GuardrailDefinition}
    (hsplit : request.definitions = before ++ definition :: after)
    (hsupports : definition.supportsMode request.mode = true)
    (hlast : ∀ other ∈ after, other.name = definition.name →
      other.supportsMode request.mode = false) :
    withEffectiveConfig definition request.policies ∈ request.supported := by
  have hrun : ∀ definitions : List GuardrailDefinition,
      withEffectiveConfig definition request.policies ∈ definitions →
      withEffectiveConfig definition request.policies ∈ after.foldl (fun definitions definition ↦
        if definition.supportsMode request.mode then
          insertDefinition (withEffectiveConfig definition request.policies) definitions
        else definitions) definitions := by
    clear hsplit
    induction after with
    | nil => exact fun _ hmem ↦ hmem
    | cons other rest ih =>
      intro definitions hmem
      rw [List.foldl_cons]
      refine ih (fun later hlater ↦ hlast later (List.mem_cons_of_mem other hlater)) _ ?_
      split_ifs with hother
      · refine mem_insertDefinition_of_ne hmem fun hname ↦ ?_
        have hnot := hlast other List.mem_cons_self hname.symm
        rw [hother] at hnot
        cases hnot
      · exact hmem
  rw [GuardrailPlanRequest.supported, hsplit, List.foldl_append, List.foldl_cons, if_pos hsupports]
  exact hrun _ (mem_insertDefinition_self _ _)

end Definitions

/-! ### Selection by name -/

section Selection

/-- A name is pushed when it is new. -/
theorem pushDefinitionOnce_eq (plan : GuardrailPlan) (definition : GuardrailDefinition) :
    pushDefinitionOnce plan definition =
      if definition.name ∈ plan.names then plan else plan ++ [⟨definition⟩] := by
  rw [pushDefinitionOnce]
  congr 1
  rw [eq_iff_iff, List.any_eq_true, GuardrailPlan.names, List.mem_map]
  constructor
  · rintro ⟨entry, hentry, hname⟩
    exact ⟨entry, hentry, of_decide_eq_true hname⟩
  · rintro ⟨entry, hentry, hname⟩
    exact ⟨entry, hentry, decide_eq_true hname⟩

theorem names_append (plan added : GuardrailPlan) :
    GuardrailPlan.names (plan ++ added) = plan.names ++ GuardrailPlan.names added :=
  List.map_append

/-- What a loop over definitions adds to a plan: definitions of names that are new, each name once.
-/
structure Selects (plan added : GuardrailPlan) (definitions : List GuardrailDefinition) : Prop where
  new : ∀ name ∈ GuardrailPlan.names added, name ∉ plan.names
  nodup : (GuardrailPlan.names added).Nodup
  selected : ∀ entry ∈ added, entry.definition ∈ definitions
  covers : ∀ definition ∈ definitions, definition.name ∈ GuardrailPlan.names (plan ++ added)

theorem exists_selects (plan : GuardrailPlan) (definitions : List GuardrailDefinition) :
    ∃ added, definitions.foldl pushDefinitionOnce plan = plan ++ added ∧
      Selects plan added definitions := by
  induction definitions generalizing plan with
  | nil => exact ⟨[], (List.append_nil plan).symm, nofun, List.nodup_nil, nofun, nofun⟩
  | cons definition rest ih =>
    rw [List.foldl_cons, pushDefinitionOnce_eq]
    split_ifs with hknown
    · obtain ⟨added, hplan, hselects⟩ := ih plan
      refine ⟨added, hplan, hselects.new, hselects.nodup, fun entry hentry ↦
        List.mem_cons_of_mem definition (hselects.selected entry hentry), fun other hother ↦ ?_⟩
      rcases List.mem_cons.mp hother with rfl | hmem
      · rw [names_append]
        exact List.mem_append_left _ hknown
      · exact hselects.covers other hmem
    · obtain ⟨added, hplan, hselects⟩ := ih (plan ++ [⟨definition⟩])
      have hplan' : plan ++ [⟨definition⟩] ++ added = plan ++ (⟨definition⟩ :: added) := by
        rw [List.append_assoc, List.singleton_append]
      rw [hplan'] at hplan
      refine ⟨⟨definition⟩ :: added, hplan, ?_, ?_, ?_, ?_⟩
      · intro name hname hold
        rcases List.mem_cons.mp hname with rfl | hmem
        · exact hknown hold
        · refine hselects.new name hmem ?_
          rw [names_append]
          exact List.mem_append_left _ hold
      · refine List.nodup_cons.mpr ⟨fun hmem ↦ hselects.new _ hmem ?_, hselects.nodup⟩
        rw [names_append]
        exact List.mem_append_right _ (List.mem_singleton_self _)
      · intro entry hentry
        rcases List.mem_cons.mp hentry with rfl | hmem
        · exact List.mem_cons_self
        · exact List.mem_cons_of_mem definition (hselects.selected entry hmem)
      · intro other hother
        rw [← hplan']
        rcases List.mem_cons.mp hother with rfl | hmem
        · rw [names_append, names_append]
          exact List.mem_append_left _ (List.mem_append_right _ (List.mem_singleton_self _))
        · exact hselects.covers other hmem

/-- A loop over names succeeds when every name has a definition, and pushes the definitions. -/
theorem pushNamed_eq_ok {define : Text → Except GatewayError GuardrailDefinition}
    {plan plan' : GuardrailPlan} {names : List Text} :
    pushNamed define plan names = .ok plan' ↔
      (∀ name ∈ names, ∃ definition, define name = .ok definition) ∧
        plan' = (names.filterMap fun name ↦
          (define name).toOption).foldl pushDefinitionOnce plan := by
  induction names generalizing plan with
  | nil =>
    constructor
    · intro hplan
      exact ⟨nofun, (Except.ok.inj hplan).symm⟩
    · rintro ⟨-, hplan⟩
      rw [hplan]
      rfl
  | cons name rest ih =>
    rw [pushNamed, List.foldlM_cons, Policy.bind_eq_ok]
    constructor
    · rintro ⟨pushed, hpushed, hrest⟩
      obtain ⟨definition, hdefinition, hpush⟩ := (Policy.bind_eq_ok _ _ _).mp hpushed
      obtain ⟨hdefined, hplan⟩ := ih.mp hrest
      refine ⟨List.forall_mem_cons.mpr ⟨⟨definition, hdefinition⟩, hdefined⟩, ?_⟩
      rw [hplan, ← Except.ok.inj hpush, List.filterMap_cons, hdefinition]
      rfl
    · rintro ⟨hdefined, hplan⟩
      obtain ⟨⟨definition, hdefinition⟩, hrest⟩ := List.forall_mem_cons.mp hdefined
      refine ⟨_, (Policy.bind_eq_ok _ _ _).mpr ⟨definition, hdefinition, rfl⟩, ?_⟩
      rw [List.filterMap_cons, hdefinition] at hplan
      exact ih.mpr ⟨hrest, hplan⟩

/-- Two loops over names, one after the other. -/
theorem pushNamed_append (define : Text → Except GatewayError GuardrailDefinition)
    (plan : GuardrailPlan) (first second : List Text) :
    pushNamed define plan (first ++ second) =
      (pushNamed define plan first >>= fun plan ↦ pushNamed define plan second) :=
  List.foldlM_append

theorem foldlM_pushNamed (define : Text → Except GatewayError GuardrailDefinition)
    (names : GuardrailPolicy → List Text) (policies : List GuardrailPolicy) (plan : GuardrailPlan) :
    policies.foldlM (fun plan policy ↦ pushNamed define plan (names policy)) plan =
      pushNamed define plan (policies.flatMap names) := by
  induction policies generalizing plan with
  | nil => rfl
  | cons policy rest ih =>
    rw [List.foldlM_cons, List.flatMap_cons, pushNamed_append]
    congr 1
    funext pushed
    exact ih pushed

/-- What a loop over names adds to a plan: for every new name its definition, once. -/
structure Adds (define : Text → Except GatewayError GuardrailDefinition)
    (plan added : GuardrailPlan) (names : List Text) : Prop where
  nodup : (GuardrailPlan.names added).Nodup
  mem_iff : ∀ entry, entry ∈ added ↔ entry.definition.name ∈ names ∧
    entry.definition.name ∉ plan.names ∧ define entry.definition.name = .ok entry.definition

/-- Assumes: every definition that is found for a name has that name. -/
theorem exists_adds {define : Text → Except GatewayError GuardrailDefinition}
    (hnamed : ∀ name definition, define name = .ok definition → definition.name = name)
    {plan plan' : GuardrailPlan} {names : List Text}
    (hplan : pushNamed define plan names = .ok plan') :
    ∃ added, plan' = plan ++ added ∧ Adds define plan added names ∧
      ∀ name ∈ names, name ∈ plan'.names := by
  obtain ⟨hdefined, hplan⟩ := pushNamed_eq_ok.mp hplan
  obtain ⟨added, hadded, hselects⟩ := exists_selects plan
    (names.filterMap fun name ↦ (define name).toOption)
  have hfound : ∀ definition, definition ∈ names.filterMap (fun name ↦ (define name).toOption) ↔
      definition.name ∈ names ∧ define definition.name = .ok definition := by
    intro definition
    rw [List.mem_filterMap]
    constructor
    · rintro ⟨name, hname, hdefinition⟩
      obtain ⟨other, hother⟩ := hdefined name hname
      rw [hother] at hdefinition
      obtain rfl : other = definition := Option.some.inj hdefinition
      obtain rfl := hnamed name other hother
      exact ⟨hname, hother⟩
    · rintro ⟨hname, hdefine⟩
      refine ⟨_, hname, ?_⟩
      rw [hdefine]
      rfl
  rw [hadded] at hplan
  refine ⟨added, hplan, ⟨hselects.nodup, fun entry ↦ ?_⟩, fun name hname ↦ ?_⟩
  · constructor
    · intro hentry
      obtain ⟨hname, hdefine⟩ := (hfound _).mp (hselects.selected entry hentry)
      exact ⟨hname, hselects.new _ (List.mem_map_of_mem hentry), hdefine⟩
    · rintro ⟨hname, hnew, hdefine⟩
      have hcovered := hselects.covers _ ((hfound _).mpr ⟨hname, hdefine⟩)
      rw [names_append] at hcovered
      obtain ⟨other, hother, hsame⟩ :=
        List.mem_map.mp ((List.mem_append.mp hcovered).resolve_left hnew)
      obtain ⟨-, hdefine'⟩ := (hfound _).mp (hselects.selected other hother)
      rw [hsame, hdefine] at hdefine'
      obtain ⟨definition⟩ := entry
      obtain ⟨definition'⟩ := other
      obtain rfl : definition = definition' := Except.ok.inj hdefine'
      exact hother
  · obtain ⟨definition, hdefine⟩ := hdefined name hname
    obtain rfl := hnamed name definition hdefine
    rw [hplan]
    exact hselects.covers definition ((hfound definition).mpr ⟨hname, hdefine⟩)

end Selection

/-! ### Plans -/

section Plans

variable {request : GuardrailPlanRequest} {plan : GuardrailPlan}

theorem mandatoryDefinition_eq_ok {name : Text} {definition : GuardrailDefinition}
    (hdefine : mandatoryDefinition request name = .ok definition) :
    definition.name = name ∧ name ∉ request.policies.forbidden := by
  unfold mandatoryDefinition at hdefine
  split_ifs at hdefine with hforbidden
  split at hdefine
  · cases hdefine
  · rename_i found hfound
    obtain rfl := Except.ok.inj hdefine
    have hname := List.find?_some hfound
    exact ⟨of_decide_eq_true hname, hforbidden⟩

theorem requestedDefinition_eq_ok {name : Text} {definition : GuardrailDefinition}
    (hdefine : requestedDefinition request name = .ok definition) :
    definition.name = name ∧ name ∉ request.policies.forbidden ∧
      name ∈ request.policies.optional := by
  unfold requestedDefinition at hdefine
  split_ifs at hdefine with hforbidden hoptional
  split at hdefine
  · cases hdefine
  · rename_i found hfound
    obtain rfl := Except.ok.inj hdefine
    have hname := List.find?_some hfound
    exact ⟨of_decide_eq_true hname, hforbidden, hoptional⟩

/-- The mandatory guardrails of all policies. -/
def GuardrailPolicySet.mandatory (policies : GuardrailPolicySet) : List Text :=
  policies.policies.flatMap (·.mandatoryGuardrails)

/-- The plan of the guardrails that are on by default. -/
def GuardrailPlanRequest.defaults (request : GuardrailPlanRequest) : GuardrailPlan :=
  (request.supported.filter (·.defaultOn)).foldl pushDefinitionOnce []

/-- A plan is resolved in three parts, and only the last one reads what the client asks for. -/
theorem resolveGuardrailPlan_eq_ok :
    resolveGuardrailPlan request = .ok plan ↔
      ∃ base, validateGuardrailConfigOverrides request = .ok () ∧
        pushNamed (mandatoryDefinition request) request.defaults request.policies.mandatory =
          .ok base ∧
        pushNamed (requestedDefinition request) base request.clientRequestedGuardrails =
          .ok plan := by
  unfold resolveGuardrailPlan
  rw [Policy.bind_eq_ok]
  constructor
  · rintro ⟨valid, hvalid, hplan⟩
    obtain ⟨base, hbase, hplan⟩ := (Policy.bind_eq_ok _ _ _).mp hplan
    rw [foldlM_pushNamed] at hbase
    exact ⟨base, hvalid, hbase, hplan⟩
  · rintro ⟨base, hvalid, hbase, hplan⟩
    refine ⟨(), hvalid, (Policy.bind_eq_ok _ _ _).mpr ⟨base, ?_, hplan⟩⟩
    rw [foldlM_pushNamed]
    exact hbase

/-- The plan of the default guardrails has each of them, each name once. -/
theorem defaults_spec (request : GuardrailPlanRequest) :
    request.defaults.names.Nodup ∧
      (∀ entry ∈ request.defaults, entry.definition.defaultOn = true) ∧
      ∀ definition ∈ request.supported, definition.defaultOn = true →
        definition.name ∈ request.defaults.names := by
  obtain ⟨added, hdefaults, hselects⟩ := exists_selects []
    (request.supported.filter (·.defaultOn))
  rw [GuardrailPlanRequest.defaults, hdefaults, List.nil_append]
  refine ⟨hselects.nodup, fun entry hentry ↦ ?_, fun definition hmem hdefault ↦ ?_⟩
  · exact (List.mem_filter.mp (hselects.selected entry hentry)).2
  · exact hselects.covers definition (List.mem_filter.mpr ⟨hmem, hdefault⟩)

theorem Adds.nodup_append {define : Text → Except GatewayError GuardrailDefinition}
    {plan added : GuardrailPlan} {names : List Text} (hadds : Adds define plan added names)
    (hplan : plan.names.Nodup) : (GuardrailPlan.names (plan ++ added)).Nodup := by
  rw [names_append, List.nodup_append]
  refine ⟨hplan, hadds.nodup, fun name hold other hnew hsame ↦ ?_⟩
  obtain ⟨entry, hentry, rfl⟩ := List.mem_map.mp hnew
  rw [hsame] at hold
  exact ((hadds.mem_iff entry).mp hentry).2.1 hold

/-- Assumes: two lists with the same names. A loop over the second adds the same entries. -/
theorem Adds.exists_perm {define : Text → Except GatewayError GuardrailDefinition}
    (hnamed : ∀ name definition, define name = .ok definition → definition.name = name)
    {base added : GuardrailPlan} {names others : List Text} (hadds : Adds define base added names)
    (hplan : pushNamed define base names = .ok (base ++ added))
    (hsame : ∀ name, name ∈ others ↔ name ∈ names) :
    ∃ added', pushNamed define base others = .ok (base ++ added') ∧ added'.Perm added := by
  obtain ⟨hdefined, -⟩ := pushNamed_eq_ok.mp hplan
  obtain ⟨plan', hothers⟩ : ∃ plan', pushNamed define base others = .ok plan' :=
    ⟨_, pushNamed_eq_ok.mpr ⟨fun name hname ↦ hdefined name ((hsame name).mp hname), rfl⟩⟩
  obtain ⟨added', rfl, hadds', -⟩ := exists_adds hnamed hothers
  refine ⟨added', hothers, ?_⟩
  rw [List.perm_ext_iff_of_nodup (List.Nodup.of_map _ hadds'.nodup)
    (List.Nodup.of_map _ hadds.nodup)]
  intro entry
  rw [hadds'.mem_iff, hadds.mem_iff, hsame]

/-- Assumes: a plan. It begins with the plan of a client that asks for nothing, and what follows is
optional and not forbidden, and up to its order the same however the client orders and repeats its
names. It has every mandatory guardrail of every policy and every default guardrail of the mode (of
several definitions with one name the last one counts), no name twice, and a forbidden name only if
its guardrail is on by default. -/
theorem client_requests_only_add (request : GuardrailPlanRequest) (plan : GuardrailPlan)
    (hplan : resolveGuardrailPlan request = .ok plan) :
    (∃ base added,
      resolveGuardrailPlan { request with clientRequestedGuardrails := [] } = .ok base ∧
      plan = base ++ added ∧
      (∀ entry ∈ added, entry.definition.name ∈ request.policies.optional ∧
        entry.definition.name ∉ request.policies.forbidden) ∧
      ∀ requested, (∀ name, name ∈ requested ↔ name ∈ request.clientRequestedGuardrails) →
        ∃ added', resolveGuardrailPlan { request with clientRequestedGuardrails := requested } =
          .ok (base ++ added') ∧ added'.Perm added) ∧
      (∀ policy ∈ request.policies.policies, ∀ name ∈ policy.mandatoryGuardrails,
        name ∈ plan.names) ∧
      (∀ before definition after, request.definitions = before ++ definition :: after →
        definition.supportsMode request.mode = true → definition.defaultOn = true →
        (∀ other ∈ after, other.name = definition.name →
          other.supportsMode request.mode = false) → definition.name ∈ plan.names) ∧
      plan.names.Nodup ∧
      ∀ entry ∈ plan, entry.definition.name ∈ request.policies.forbidden →
        entry.definition.defaultOn = true := by
  obtain ⟨base, hvalid, hbase, hpushed⟩ := resolveGuardrailPlan_eq_ok.mp hplan
  have hmandatoryNamed : ∀ name definition,
      mandatoryDefinition request name = .ok definition → definition.name = name :=
    fun name definition hdefine ↦ (mandatoryDefinition_eq_ok hdefine).1
  have hrequestedNamed : ∀ name definition,
      requestedDefinition request name = .ok definition → definition.name = name :=
    fun name definition hdefine ↦ (requestedDefinition_eq_ok hdefine).1
  obtain ⟨mandatory, rfl, hmandatory, hcovered⟩ := exists_adds hmandatoryNamed hbase
  obtain ⟨added, rfl, hadded, -⟩ := exists_adds hrequestedNamed hpushed
  obtain ⟨hnodup, hdefaultOn, hdefaults⟩ := defaults_spec request
  have hkept : ∀ name ∈ GuardrailPlan.names (request.defaults ++ mandatory),
      name ∈ GuardrailPlan.names (request.defaults ++ mandatory ++ added) := by
    intro name hname
    rw [names_append]
    exact List.mem_append_left _ hname
  refine ⟨⟨_, added, ?_, rfl, fun entry hentry ↦ ?_, fun requested hsame ↦ ?_⟩, ?_, ?_, ?_, ?_⟩
  · exact resolveGuardrailPlan_eq_ok.mpr ⟨_, hvalid, hbase, rfl⟩
  · obtain ⟨-, hforbidden, hoptional⟩ :=
      requestedDefinition_eq_ok ((hadded.mem_iff entry).mp hentry).2.2
    exact ⟨hoptional, hforbidden⟩
  · obtain ⟨added', hplan', hperm⟩ := hadded.exists_perm hrequestedNamed hpushed hsame
    exact ⟨added', resolveGuardrailPlan_eq_ok.mpr ⟨_, hvalid, hbase, hplan'⟩, hperm⟩
  · intro policy hpolicy name hname
    exact hkept name (hcovered name (List.mem_flatMap.mpr ⟨policy, hpolicy, hname⟩))
  · intro before definition after hsplit hsupports hdefault hlast
    have hname := hdefaults _ (mem_supported hsplit hsupports hlast) hdefault
    refine hkept _ ?_
    rw [names_append]
    exact List.mem_append_left _ hname
  · exact hadded.nodup_append (hmandatory.nodup_append hnodup)
  · intro entry hentry hforbidden
    rcases List.mem_append.mp hentry with hentry | hentry
    · rcases List.mem_append.mp hentry with hentry | hentry
      · exact hdefaultOn entry hentry
      · obtain ⟨-, hnot⟩ := mandatoryDefinition_eq_ok ((hmandatory.mem_iff entry).mp hentry).2.2
        exact absurd hforbidden hnot
    · obtain ⟨-, hnot, -⟩ := requestedDefinition_eq_ok ((hadded.mem_iff entry).mp hentry).2.2
      exact absurd hforbidden hnot

end Plans

/-- A guardrail for requests, without configuration. -/
def plainGuardrail (name : Text) (defaultOn : Bool) : GuardrailDefinition where
  name := name
  description := []
  modes := [.preCall]
  defaultOn := defaultOn
  failurePolicy := .failClosed
  configSchema := .object []
  config := .object []
  enabled := true

/-- A request for the guardrails `c` and `c`, where `a` is on by default, `b` mandatory for the key
and `c` optional for the team. -/
def sampleRequest : GuardrailPlanRequest where
  mode := .preCall
  definitions := [plainGuardrail [99] false, plainGuardrail [97] true, plainGuardrail [98] false]
  policies :=
    { keyPolicy := ⟨[[98]], [], [], []⟩
      teamPolicy := some ⟨[], [[99]], [], []⟩
      routePolicy := none
      modelPolicy := none }
  clientRequestedGuardrails := [[99], [99]]

/-- The plan is `a`, `b`, `c`. Asked for once, `c` still follows the plan of a client that asks for
nothing. -/
theorem client_requests_only_add_sample :
    ∃ plan, resolveGuardrailPlan sampleRequest = .ok plan ∧ [97] ∈ plan.names ∧
      [98] ∈ plan.names ∧ plan.names.Nodup ∧
      ∃ base added added', plan = base ++ added ∧
        resolveGuardrailPlan { sampleRequest with clientRequestedGuardrails := [] } = .ok base ∧
        resolveGuardrailPlan { sampleRequest with clientRequestedGuardrails := [[99]] } =
          .ok (base ++ added') ∧ added'.Perm added := by
  have hplan : resolveGuardrailPlan sampleRequest = .ok [⟨plainGuardrail [97] true⟩,
    ⟨plainGuardrail [98] false⟩, ⟨plainGuardrail [99] false⟩] := rfl
  obtain ⟨⟨base, added, hbase, hadded, -, hordered⟩, hmandatory, hdefault, hnodup, -⟩ :=
    client_requests_only_add sampleRequest _ hplan
  obtain ⟨added', hplan', hperm⟩ := hordered [[99]] (by simp [sampleRequest])
  have hon := hdefault [plainGuardrail [99] false] (plainGuardrail [97] true)
    [plainGuardrail [98] false] rfl rfl rfl (by decide)
  have hheld := hmandatory ⟨[[98]], [], [], []⟩ (List.mem_cons_self) [98]
    (List.mem_singleton_self _)
  exact ⟨_, hplan, hon, hheld, hnodup, base, added, added', hadded, hbase, hplan', hperm⟩

end Relayna.Guardrails

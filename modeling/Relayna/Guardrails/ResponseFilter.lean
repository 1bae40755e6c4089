import Relayna.Guardrails.Plan
import Relayna.Guardrails.Streaming
import Relayna.Library.MachineWord

/-!
# Guardrails of a streamed response

`response_body_filter` of `crates/gateway-proxy/src/pingora_plane.rs` is called for every chunk of a
response. When the plan for the time during a call has an entry, it hands the chunk to
`apply_streaming_guardrails` and then counts what is left of it against the limits of the route and
the policy. The guardrails run in `GuardrailExecutor::execute` of
`crates/gateway-core/src/guardrails.rs`; what a guardrail itself does is a parameter.

A released body is what the guardrails returned for the text of that call, with two exceptions: text
that is held back until a last call without a body is released without them, and the error of a call
that failed is not read by the calls after it (`streamed_error`), so that a later chunk of text is
released. Both are shown in `screening_bypassed`; without them nothing passes the guardrails and a
block is final (`streamed_output_screened`).
-/

set_option autoImplicit false
set_option relaxedAutoImplicit false

namespace Relayna.Guardrails

open Library.Utf8
open Library.Json (Value ascii)
open Library.MachineWord (saturatingAdd)
open Policy (Text KeyPolicy evaluatePolicyLimits)

/-! ### The executor -/

def GatewayError.code : GatewayError → Text
  | .invalidGuardrailRequest => ascii "invalid_guardrail_request"
  | .guardrailForbidden => ascii "guardrail_forbidden"
  | .guardrailUnavailable => ascii "guardrail_unavailable"
  | .guardrailBlocked => ascii "guardrail_blocked"
  | .policyDenied => ascii "policy_denied"
  | .requestBodyTooLarge => ascii "request_body_too_large"
  | .responseBodyTooLarge => ascii "response_body_too_large"

inductive GuardrailAction
  | allow
  | block
  | modify
  | warn
  deriving DecidableEq

/-- `GuardrailExecutionRecord`, without its latency. -/
structure GuardrailExecutionRecord where
  guardrailName : Text
  mode : GuardrailMode
  action : GuardrailAction
  failurePolicy : GuardrailFailurePolicy
  reason : Option Text
  metadata : Value

/-- The part of `GuardrailContext` that an execution adds to. -/
structure GuardrailContext where
  piiMappings : List (Text × Text)
  appliedGuardrails : List Text
  guardrailResults : List GuardrailExecutionRecord

/-- A request or a response as guardrails see it: a text, or another value of JSON. -/
inductive Payload
  | string (value : List Char)
  | other (value : Value)

/-- `Value::as_str`. -/
def Payload.asStr : Payload → Option (List Char)
  | .string value => some value
  | .other _ => none

structure GuardrailInput where
  mode : GuardrailMode
  request : Option Payload
  response : Option Payload
  context : GuardrailContext
  config : Value

structure GuardrailResult where
  action : GuardrailAction
  request : Option Payload
  response : Option Payload
  reason : Option Text
  metadata : Value
  piiMappings : List (Text × Text)

/-- `InMemoryGuardrailExecutor`: its handlers by name. -/
abbrev Handlers := Text → Option (GuardrailInput → Except GatewayError GuardrailResult)

/-- `GuardrailExecution`, without the list of records, which the context has too. -/
structure GuardrailExecution where
  request : Option Payload
  response : Option Payload
  context : GuardrailContext

def GuardrailContext.applied (context : GuardrailContext) (record : GuardrailExecutionRecord) :
    GuardrailContext :=
  { context with
    appliedGuardrails := context.appliedGuardrails ++ [record.guardrailName]
    guardrailResults := context.guardrailResults ++ [record] }

def handleGuardrailFailure (execution : GuardrailExecution) (definition : GuardrailDefinition)
    (mode : GuardrailMode) (error : GatewayError) : Except GatewayError GuardrailExecution :=
  match definition.failurePolicy with
  | .failClosed => .error error
  | .failOpen | .dryRun =>
    .ok { execution with
      context := execution.context.applied
        ⟨definition.name, mode, .warn, definition.failurePolicy, some error.code, .object []⟩ }

/-- What the result of a guardrail makes of an execution. -/
def handleGuardrailResult (execution : GuardrailExecution) (definition : GuardrailDefinition)
    (mode : GuardrailMode) (result : GuardrailResult) : Except GatewayError GuardrailExecution :=
  let dryRun := decide (definition.failurePolicy = .dryRun)
  let mapped := { execution.context with
    piiMappings := execution.context.piiMappings ++ result.piiMappings }
  let noted := { execution with
    context := mapped.applied ⟨definition.name, mode, if dryRun then .warn else result.action,
      definition.failurePolicy, result.reason, result.metadata⟩ }
  if dryRun then .ok noted
  else
    match result.action with
    | .allow | .warn => .ok noted
    | .modify =>
      .ok { noted with
        request := result.request.or noted.request
        response := result.response.or noted.response }
    | .block => .error .guardrailBlocked

/-- The turn of `execute` for one entry of the plan. -/
def executeEntry (handlers : Handlers) (mode : GuardrailMode) (execution : GuardrailExecution)
    (entry : GuardrailPlanEntry) : Except GatewayError GuardrailExecution :=
  match handlers entry.definition.name with
  | none => handleGuardrailFailure execution entry.definition mode .guardrailUnavailable
  | some handler =>
    match handler ⟨mode, execution.request, execution.response, execution.context,
        entry.definition.config⟩ with
    | .ok result => handleGuardrailResult execution entry.definition mode result
    | .error error => handleGuardrailFailure execution entry.definition mode error

/-- `GuardrailExecutor::execute`. -/
def execute (handlers : Handlers) (plan : GuardrailPlan) (mode : GuardrailMode)
    (context : GuardrailContext) (request response : Option Payload) :
    Except GatewayError GuardrailExecution :=
  plan.foldlM (executeEntry handlers mode) ⟨request, response, context⟩

/-- The executor that `apply_streaming_guardrails` runs, on a response that is a text. -/
def duringCall (handlers : Handlers) : Executor GuardrailPlan GuardrailContext GatewayError where
  execute := fun plan context text ↦
    (execute handlers plan .duringCall context none (some (.string text))).map fun execution ↦
      (execution.context, execution.response.bind Payload.asStr)
  guardrailUnavailable := .guardrailUnavailable

/-! ### The filter -/

section Filter

variable {Usd : Type} [LinearOrder Usd]

/-- What `response_body_filter` uses of the context of a streamed response: that of the guardrails,
the bytes that it has let through, their prefix, and the limits. -/
structure ResponseContext (Usd : Type) extends
    PingoraContext GuardrailPlan GuardrailContext GatewayError where
  responseBytesSeen : ℕ
  responseBodyPrefix : List UInt8
  maxResponseBodyBytes : Option ℕ
  policy : Option (KeyPolicy Usd)

/-- What is read off the prefix of a response when it ends: `response_usage_tokens` and
`resolved_usage_cost`. -/
structure UsageReaders (Usd : Type) where
  outputTokens : List UInt8 → Option ℤ
  estimatedCostUsd : List UInt8 → Option Usd

structure Call where
  body : Option (List UInt8)
  endOfStream : Bool
  now : Timestamp

/-- `observe_response_body_chunk`, as to the prefix. -/
def observeResponseBodyChunk (responsePrefix body : List UInt8) : List UInt8 :=
  if responsePrefix.length < 65536 then
    responsePrefix ++ body.take (65536 - responsePrefix.length)
  else responsePrefix

/-- The integers of `i32` and `i64`. -/
def fits (width : ℕ) (value : ℤ) : Bool :=
  decide (-2 ^ (width - 1) ≤ value ∧ value < 2 ^ (width - 1))

/-- A check of `evaluate_policy_limits`, when there is a policy. -/
def checkPolicy (policy : Option (KeyPolicy Usd)) (now : Timestamp)
    (responseBodyBytes outputTokens : Option ℤ) (estimatedCostUsd : Option Usd) :
    Except GatewayError Unit :=
  match policy with
  | none => .ok ()
  | some policy =>
    (evaluatePolicyLimits policy now none responseBodyBytes none outputTokens
      estimatedCostUsd).mapError GatewayError.ofPolicy

/-- The checks of `response_body_filter` on the body that it is about to release. They give the
bytes seen and their prefix. -/
def checkLimits (readers : UsageReaders Usd) (call : Call) (body : List UInt8)
    (ctx : ResponseContext Usd) : Except GatewayError (ℕ × List UInt8) := do
  let seen := saturatingAdd 64 ctx.responseBytesSeen body.length
  if ctx.maxResponseBodyBytes.any (· < seen) then .error .responseBodyTooLarge
  checkPolicy ctx.policy call.now ((some (seen : ℤ)).filter (fits 64)) none none
  let observed := observeResponseBodyChunk ctx.responseBodyPrefix body
  if call.endOfStream then
    checkPolicy ctx.policy call.now none ((readers.outputTokens observed).filter (fits 32))
      (readers.estimatedCostUsd observed)
  return (seen, observed)

/-- `response_body_filter` for a streamed response, which has no plan for the time after the call:
the body that it releases, and the context. After an error nothing more is released. -/
def responseBodyFilter (handlers : Handlers) (readers : UsageReaders Usd) (call : Call)
    (ctx : ResponseContext Usd) : Except GatewayError (List UInt8 × ResponseContext Usd) :=
  let (body, streamed) :=
    if ctx.duringGuardrailPlan.any (!·.isEmpty) then
      applyStreamingGuardrails (duringCall handlers) call.body call.endOfStream ctx.toPingoraContext
    else (call.body, ctx.toPingoraContext)
  match body with
  | none => .ok ([], { ctx with toPingoraContext := streamed })
  | some body => do
    let (seen, observed) ← checkLimits readers call body ctx
    return (body, { ctx with
      toPingoraContext := streamed
      responseBytesSeen := seen
      responseBodyPrefix := observed })

/-- A call of a run, the context that it finds, and the body that it releases. -/
structure Step (Usd : Type) where
  ctx : ResponseContext Usd
  call : Call
  released : List UInt8

/-- The calls of a response, one after the other, until one fails. -/
def steps (handlers : Handlers) (readers : UsageReaders Usd) :
    List Call → ResponseContext Usd → List (Step Usd)
  | [], _ => []
  | call :: rest, ctx =>
    match responseBodyFilter handlers readers call ctx with
    | .error _ => []
    | .ok (body, next) => ⟨ctx, call, body⟩ :: steps handlers readers rest next

end Filter

/-! ### What a call releases -/

section Release

variable {Usd : Type}

/-- The guardrails return `output` for the text that a call takes out of the stream: what has been
held back and its own chunk, up to the point of release. -/
def Returned (handlers : Handlers) (ctx : ResponseContext Usd) (call : Call) (output : List Char) :
    Prop :=
  ∃ chunk text plan context next, call.body = some chunk ∧ fromUtf8 chunk = some text ∧
    ctx.duringGuardrailPlan = some plan ∧ ctx.guardrailContext = some context ∧
    (duringCall handlers).execute plan context
        (redactPiiText ((ctx.guardrailStreamHoldback ++ text).take
          (splitAt (ctx.guardrailStreamHoldback ++ text) call.endOfStream))) =
      .ok (next, some output)

/-- A released body is an output of the guardrails for the text of the call. -/
def Step.Screened (handlers : Handlers) (step : Step Usd) : Prop :=
  step.released = [] ∨
    ∃ output, Returned handlers step.ctx step.call output ∧ step.released = encode output

/-- A call without a body ends the stream while text is held back. -/
def Step.Flushes (step : Step Usd) : Prop :=
  step.call.body = none ∧ step.call.endOfStream = true ∧ step.ctx.guardrailStreamHoldback ≠ []

/-- A call carries a chunk that is a text. -/
def Step.CarriesText (step : Step Usd) : Prop :=
  ∃ chunk, step.call.body = some chunk ∧ (fromUtf8 chunk).isSome

/-- A response whose plan for the time during the call is in force. The plan and the context of the
guardrails are set together, in `request_body_filter`. -/
structure Guarded (ctx : ResponseContext Usd) : Prop where
  plan : ∃ plan, ctx.duringGuardrailPlan = some plan ∧ plan ≠ []
  context : ∃ context, ctx.guardrailContext = some context

/-- What a call of the filter leaves of its body. -/
def streamed (handlers : Handlers) (call : Call) (ctx : ResponseContext Usd) :
    Option (List UInt8) × PingoraContext GuardrailPlan GuardrailContext GatewayError :=
  applyStreamingGuardrails (duringCall handlers) call.body call.endOfStream ctx.toPingoraContext

/-- The cases of a call of the guardrails: the flush of the text held back, nothing, or their
output. -/
theorem streamed_cases (handlers : Handlers) (call : Call) {ctx : ResponseContext Usd}
    (hguarded : Guarded ctx) :
    (call.body = none ∧ call.endOfStream = true ∧ ctx.guardrailStreamHoldback ≠ [] ∧
        (streamed handlers call ctx).1 =
          some (encode (redactPiiText ctx.guardrailStreamHoldback))) ∨
      ((call.body = none → call.endOfStream = true → ctx.guardrailStreamHoldback = []) ∧
        (streamed handlers call ctx).1.getD [] = []) ∨
      ∃ output, Returned handlers ctx call output ∧
        (streamed handlers call ctx).1 = some (encode output) := by
  obtain ⟨⟨plan, hplan, -⟩, ⟨context, hcontext⟩⟩ := hguarded
  rw [streamed, applyStreamingGuardrails.eq_def]
  cases hbody : call.body with
  | none =>
    dsimp only
    split_ifs with hflush
    · left
      rw [Bool.and_eq_true, Bool.not_eq_true', List.isEmpty_eq_false_iff] at hflush
      exact ⟨rfl, hflush.1, hflush.2, rfl⟩
    · right
      left
      refine ⟨fun _ hend ↦ ?_, rfl⟩
      rw [hend, Bool.true_and, Bool.not_eq_true, Bool.not_eq_false', List.isEmpty_iff] at hflush
      exact hflush
  | some chunk =>
    right
    dsimp only
    cases htext : fromUtf8 chunk with
    | none => exact Or.inl ⟨nofun, rfl⟩
    | some text =>
      dsimp only
      rw [hplan, hcontext]
      dsimp only
      cases hexecute : (duringCall handlers).execute plan context
          (redactPiiText ((ctx.guardrailStreamHoldback ++ text).take
            (splitAt (ctx.guardrailStreamHoldback ++ text) call.endOfStream))) with
      | error error => exact Or.inl ⟨nofun, rfl⟩
      | ok result =>
        obtain ⟨next, response⟩ := result
        cases response with
        | none => exact Or.inl ⟨nofun, rfl⟩
        | some output =>
          exact Or.inr ⟨output, ⟨chunk, text, plan, context, next, hbody, htext, hplan, hcontext,
            hexecute⟩, rfl⟩

/-- A call does not read the error: it leaves of its body what it would leave without one. -/
theorem streamed_error (handlers : Handlers) (call : Call) (ctx : ResponseContext Usd)
    (error : Option GatewayError) :
    (streamed handlers call { ctx with guardrailError := error }).1 =
      (streamed handlers call ctx).1 := by
  unfold streamed
  rw [applyStreamingGuardrails.eq_def, applyStreamingGuardrails.eq_def]
  cases call.body with
  | none =>
    dsimp only
    split_ifs
    · rfl
    · rfl
  | some chunk =>
    dsimp only
    cases fromUtf8 chunk with
    | none => rfl
    | some text =>
      dsimp only
      split
      · split
        · rfl
        · rfl
      · rfl

/-- A call keeps the plan, and a context. -/
theorem guarded_streamed (handlers : Handlers) (call : Call) {ctx : ResponseContext Usd}
    (hguarded : Guarded ctx) :
    (streamed handlers call ctx).2.duringGuardrailPlan = ctx.duringGuardrailPlan ∧
      ∃ context, (streamed handlers call ctx).2.guardrailContext = some context := by
  obtain ⟨⟨plan, hplan, -⟩, ⟨context, hcontext⟩⟩ := hguarded
  rw [streamed, applyStreamingGuardrails.eq_def]
  cases call.body with
  | none =>
    dsimp only
    split_ifs
    · exact ⟨rfl, context, hcontext⟩
    · exact ⟨rfl, context, hcontext⟩
  | some chunk =>
    dsimp only
    cases fromUtf8 chunk with
    | none => exact ⟨rfl, context, hcontext⟩
    | some text =>
      dsimp only
      rw [hplan, hcontext]
      dsimp only
      split
      · exact ⟨rfl, _, rfl⟩
      · exact ⟨rfl, context, rfl⟩

section Step

variable {handlers : Handlers} {step : Step Usd}

/-- A released body is screened unless it is a flush. -/
theorem Step.screened_iff (hguarded : Guarded step.ctx)
    (hreleased : step.released = (streamed handlers step.call step.ctx).1.getD []) :
    step.Screened handlers ↔ ¬ step.Flushes := by
  rcases streamed_cases handlers step.call hguarded with
    ⟨hbody, hend, hheld, hflush⟩ | ⟨hquiet, hnone⟩ | ⟨output, hreturned, hbody⟩
  · rw [hflush, Option.getD_some] at hreleased
    constructor
    · rintro (hnil | ⟨output, ⟨chunk, text, plan, context, next, hchunk, -⟩, -⟩)
      · rw [hreleased, encode_eq_nil_iff] at hnil
        exact absurd (eq_nil_of_redactPiiText hnil) hheld
      · rw [hbody] at hchunk
        exact nomatch hchunk
    · intro hnot
      exact absurd ⟨hbody, hend, hheld⟩ hnot
  · constructor
    · rintro - ⟨hbody, hend, hheld⟩
      exact hheld (hquiet hbody hend)
    · intro _
      exact Or.inl (hreleased.trans hnone)
  · rw [hbody, Option.getD_some] at hreleased
    constructor
    · rintro - ⟨hnone, -⟩
      obtain ⟨chunk, text, plan, context, next, hchunk, -⟩ := hreturned
      rw [hnone] at hchunk
      exact nomatch hchunk
    · intro _
      exact Or.inr ⟨output, hreturned, hreleased⟩

/-- A call that is no flush and carries no text releases nothing. -/
theorem Step.released_eq_nil (hguarded : Guarded step.ctx)
    (hreleased : step.released = (streamed handlers step.call step.ctx).1.getD [])
    (hnoflush : ¬ step.Flushes) (hnotext : ¬ step.CarriesText) : step.released = [] := by
  rcases (Step.screened_iff hguarded hreleased).mpr hnoflush with hnil | ⟨output, hreturned, -⟩
  · exact hnil
  · obtain ⟨chunk, text, plan, context, next, hchunk, htext, -⟩ := hreturned
    exact absurd ⟨chunk, hchunk, by rw [htext]; rfl⟩ hnotext

end Step

/-! ### What a run releases -/

variable [LinearOrder Usd]

/-- A call that does not fail releases what the guardrails leave of its body. -/
theorem responseBodyFilter_ok {handlers : Handlers} {readers : UsageReaders Usd} {call : Call}
    {ctx next : ResponseContext Usd} {released : List UInt8} (hguarded : Guarded ctx)
    (hok : responseBodyFilter handlers readers call ctx = .ok (released, next)) :
    released = (streamed handlers call ctx).1.getD [] ∧
      next.toPingoraContext = (streamed handlers call ctx).2 := by
  obtain ⟨⟨plan, hplan, hne⟩, -⟩ := hguarded
  have hany : ctx.duringGuardrailPlan.any (!·.isEmpty) = true := by
    rw [hplan, Option.any_some, Bool.not_eq_true', List.isEmpty_eq_false_iff]
    exact hne
  rw [responseBodyFilter, if_pos hany, ← streamed] at hok
  dsimp only at hok
  cases hbody : (streamed handlers call ctx).1 with
  | none =>
    rw [hbody] at hok
    obtain ⟨rfl, rfl⟩ := Prod.mk.inj (Except.ok.inj hok)
    exact ⟨rfl, rfl⟩
  | some body =>
    rw [hbody] at hok
    dsimp only at hok
    rw [Policy.bind_eq_ok] at hok
    obtain ⟨checked, -, hrest⟩ := hok
    obtain ⟨rfl, rfl⟩ := Prod.mk.inj (Except.ok.inj hrest)
    exact ⟨rfl, rfl⟩

theorem Guarded.of_ok {handlers : Handlers} {readers : UsageReaders Usd} {call : Call}
    {ctx next : ResponseContext Usd} {released : List UInt8} (hguarded : Guarded ctx)
    (hok : responseBodyFilter handlers readers call ctx = .ok (released, next)) : Guarded next := by
  have hnext := (responseBodyFilter_ok hguarded hok).2
  obtain ⟨hplan, hcontext⟩ := guarded_streamed handlers call hguarded
  rw [← hnext] at hplan hcontext
  constructor
  · rw [hplan]
    exact hguarded.plan
  · exact hcontext

/-- A step of a guarded response releases what the filter leaves of its body. -/
theorem steps_ok {handlers : Handlers} {readers : UsageReaders Usd} {calls : List Call}
    {ctx : ResponseContext Usd} (hguarded : Guarded ctx) {step : Step Usd}
    (hstep : step ∈ steps handlers readers calls ctx) :
    Guarded step.ctx ∧ step.released = (streamed handlers step.call step.ctx).1.getD [] := by
  induction calls generalizing ctx with
  | nil => exact absurd hstep List.not_mem_nil
  | cons call rest ih =>
    rw [steps] at hstep
    cases hfilter : responseBodyFilter handlers readers call ctx with
    | error error =>
      rw [hfilter] at hstep
      exact absurd hstep List.not_mem_nil
    | ok result =>
      rw [hfilter] at hstep
      rcases List.mem_cons.mp hstep with rfl | hrest
      · exact ⟨hguarded, (responseBodyFilter_ok hguarded hfilter).1⟩
      · exact ih (hguarded.of_ok hfilter) hrest

end Release

/-! ### The guarantee -/

/-- Assumes: a response whose plan is in force. In a run of calls every released body is an output
of the guardrails for the text of its call if and only if no call without a body ends the stream
while text is held back. Where besides no call that finds the error set carries a text, nothing is
released after the error. -/
theorem streamed_output_screened {Usd : Type} [LinearOrder Usd] (handlers : Handlers)
    (readers : UsageReaders Usd) (calls : List Call) (ctx : ResponseContext Usd)
    (hguarded : Guarded ctx) :
    ((∀ step ∈ steps handlers readers calls ctx, step.Screened handlers) ↔
        ∀ step ∈ steps handlers readers calls ctx, ¬ step.Flushes) ∧
      ((∀ step ∈ steps handlers readers calls ctx,
          ¬ step.Flushes ∧ (step.ctx.guardrailError.isSome → ¬ step.CarriesText)) →
        ∀ step ∈ steps handlers readers calls ctx,
          step.ctx.guardrailError.isSome → step.released = []) := by
  constructor
  · apply forall₂_congr
    intro step hstep
    obtain ⟨hstepGuarded, hreleased⟩ := steps_ok hguarded hstep
    exact Step.screened_iff hstepGuarded hreleased
  · intro hcalls step hstep herror
    obtain ⟨hstepGuarded, hreleased⟩ := steps_ok hguarded hstep
    obtain ⟨hnoflush, hnotext⟩ := hcalls step hstep
    exact Step.released_eq_nil hstepGuarded hreleased hnoflush (hnotext herror)

/-- A guardrail that blocks every text with an exclamation mark. -/
def blocking : Handlers :=
  fun _ ↦ some fun input ↦ .ok
    { action := if (input.response.bind Payload.asStr).any (·.contains '!') then .block else .allow
      request := none
      response := none
      reason := none
      metadata := .object []
      piiMappings := [] }

/-- No usage is read off a response. -/
def noUsage : UsageReaders ℕ where
  outputTokens := fun _ ↦ none
  estimatedCostUsd := fun _ ↦ none

/-- A response under one guardrail, at its start. -/
def guardedStart : ResponseContext ℕ where
  guardrailStreamHoldback := []
  guardrailError := none
  duringGuardrailPlan :=
    some [⟨{ plainGuardrail (ascii "moderation") true with modes := [.postCall, .duringCall] }⟩]
  guardrailContext := some ⟨[], [], []⟩
  responseBytesSeen := 0
  responseBodyPrefix := []
  maxResponseBodyBytes := some 1048576
  policy := none

theorem guarded_guardedStart : Guarded guardedStart :=
  ⟨⟨_, rfl, List.cons_ne_nil _ _⟩, ⟨_, rfl⟩⟩

/-- A text without the mark, which its last chunk ends. -/
theorem streamed_output_screened_sample :
    Guarded guardedStart ∧
      (∀ step ∈ steps blocking noUsage [⟨some (encode ['y', 'e', 's']), true, 0⟩] guardedStart,
        step.Screened blocking) ∧
      ∀ step ∈ steps blocking noUsage [⟨some (encode ['y', 'e', 's']), true, 0⟩] guardedStart,
        step.ctx.guardrailError.isSome → step.released = [] := by
  have hcalls : ∀ step ∈ steps blocking noUsage [⟨some (encode ['y', 'e', 's']), true, 0⟩]
      guardedStart, ¬ step.Flushes ∧ (step.ctx.guardrailError.isSome → ¬ step.CarriesText) := by
    intro step hstep
    obtain rfl := List.mem_singleton.mp hstep
    constructor
    · rintro ⟨hnone, -⟩
      exact nomatch hnone
    · intro herror
      exact nomatch herror
  obtain ⟨hscreened, hfinal⟩ :=
    streamed_output_screened blocking noUsage _ guardedStart guarded_guardedStart
  exact ⟨guarded_guardedStart, hscreened.mpr fun step hstep ↦ (hcalls step hstep).1, hfinal hcalls⟩

/-- The flush of a text that the guardrail blocks, and a chunk that is released after one that the
guardrail has blocked. -/
theorem screening_bypassed :
    Guarded guardedStart ∧
      (∃ step ∈ steps blocking noUsage
          [⟨some (encode ['n', 'o', '!']), false, 0⟩, ⟨none, true, 0⟩] guardedStart,
        ¬ step.Screened blocking) ∧
      ∃ step ∈ steps blocking noUsage
          [⟨some (encode ('!' :: List.replicate 65 'a')), false, 0⟩,
            ⟨some (encode ['b']), true, 0⟩] guardedStart,
        step.ctx.guardrailError.isSome ∧ step.released ≠ [] := by
  refine ⟨guarded_guardedStart, ?_, ?_⟩
  · refine ⟨_, List.mem_cons_of_mem _ List.mem_cons_self, ?_⟩
    rintro (hnil | ⟨output, ⟨chunk, text, plan, context, next, hbody, -⟩, -⟩)
    · have hsent : encode (redactPiiText ['n', 'o', '!']) = [] := hnil
      exact absurd (eq_nil_of_redactPiiText (encode_eq_nil_iff.mp hsent)) (List.cons_ne_nil _ _)
    · exact nomatch hbody
  · refine ⟨_, List.mem_cons_of_mem _ List.mem_cons_self, rfl, ?_⟩
    decide

end Relayna.Guardrails

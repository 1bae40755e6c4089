import Relayna.Proxy.Accounting

/-!
# Rejected requests and their charges

A request that the gateway rejects through `record_terminal_usage` is never charged. One that is
rejected through `guardrail_error` is charged by `logging` when it holds a reservation, and one that
is only answered whenever it has a key and a price: `logging` leaves the cost out for an error
without a reservation alone. So a request that finds no upstream slot, whose streamed body is too
large, or whose lease cannot be bound pays its price although no upstream has seen it
(`overload_charged`), and so does one to an upstream that is not configured. A request whose
upstream cannot be reached is answered by `fail_to_proxy`, which does not set `guardrail_error`: it
pays its price with a reservation and without one (`unreachable_charged`).

`rejection_unbilled` shows that there is no other way to be charged for a rejection: where each step
is `Fair`, a rejected request costs nothing and leaves no reservation.
-/

set_option autoImplicit false
set_option relaxedAutoImplicit false

namespace Relayna.Proxy

open Library.Transition Relayna.Budget Relayna.Budget.Scripts Relayna.Budget.Reservations
open Relayna.Budget.RequestAdmission (Fate)
open Relayna.Budget.Settlement
open Relayna.Usage (DateTime)

variable {ticket : Ticket} {state : State}

/-! ### Fair steps -/

/-- `logging` finds no cost for a rejection of this request that `guardrail_error` records. -/
def Context.Released (ctx : Context) : Prop :=
  ctx.budgetReserved = true → ctx.usageCost = none

/-- The gateway does not reject a request that `logging` would charge for it: one without a
configured upstream that has a key and a price; one with a reservation and a price that finds no
slot, whose body is over its limits, whose lease is not converted, or whose response is refused; or
one with a key and a cost that `fail_to_proxy` answers. Once an upstream has been handed the body,
every step is fair. -/
def Event.Fair (state : State) (event : Event) : Prop :=
  state.handed = true ∨
    match event with
    | .proxyUpstreamFilter answers =>
      answers.upstream = true ∨ state.ctx.key = false ∨ state.ctx.usageCost = none
    | .upstreamPeer slot _ =>
      slot ≠ some false ∨ state.ctx.upstreamLease = true ∨ state.ctx.Released
    | .requestBodyFilter answers =>
      answers.withinLimits = true ∨ state.ctx.bodyEmpty = true ∨ state.ctx.Released
    | .bindRequestBodyAdmission converted => converted = true ∨ state.ctx.Released
    | .responseFilter cost verdict =>
      verdict ≠ .refused ∨ Context.Released { state.ctx with responseCost := cost }
    | .failToProxy responseWritten =>
      ∀ error, state.phase = .failed error →
        (state.ctx.guardrailError = false ∧
          (responseWritten = true ∨ defaultProxyFailureStatus error = 0)) ∨
        state.ctx.key = false ∨ state.ctx.estimatedCost = none
    | _ => True

/-- The phases of the attempts to reach an upstream. -/
def Phase.Attempting (phase : Phase) : Prop :=
  phase = .upstreamPeer ∨ phase = .connecting ∨ phase = .requestBody ∨
    ∃ error, phase = .failed error

/-- A rejected request is not charged. -/
structure Unbilled (state : State) : Prop where
  ended : state.rejected = true → state.phase = .ended ∨ state.phase = .logged
  free : state.rejected = true → state.ctx.terminalUsageRecorded = false →
    state.ctx.route = false ∨ state.ctx.key = false ∨ state.ctx.estimatedCost = none
  events : state.rejected = true → ∀ event ∈ state.events, event.estimatedCost = none
  new : state.phase = .requestFilter → state.ctx = Context.new
  unseen : state.phase = .proxyUpstreamFilter →
    state.ctx.bodyBytesSeen = 0 ∧ state.ctx.routeMatch.isSome = true
  streamed : state.handed = false → state.phase.Attempting →
    state.ctx.budgetReserved = true → state.ctx.socket = true ∨ state.ctx.canStream = true ∨
      (state.ctx.bodyEmpty = true ∧ state.ctx.bodyBytesSeen = 0)
  buffered : state.handed = false → state.phase = .completeBody → state.ctx.budgetReserved = false

/-- A request that the gateway has not rejected, at a phase before its end: a reservation without a
body that is handed on is that of a request without a buffer. -/
def Underway (state : State) : Prop :=
  state.rejected = false ∧ (state.handed = false → state.ctx.budgetReserved = true →
    state.ctx.socket = true ∨ state.ctx.canStream = true ∨
      (state.ctx.bodyEmpty = true ∧ state.ctx.bodyBytesSeen = 0))

theorem Unbilled.rejected_eq_false (hunbilled : Unbilled state) (hended : state.phase ≠ .ended)
    (hlogged : state.phase ≠ .logged) : state.rejected = false := by
  by_contra hrejected
  rcases hunbilled.ended (by simpa using hrejected) with h | h
  · exact hended h
  · exact hlogged h

theorem Phase.Attempting.ne {phase : Phase} (hphase : phase.Attempting) :
    phase ≠ .requestFilter ∧ phase ≠ .proxyUpstreamFilter ∧ phase ≠ .completeBody ∧
      phase ≠ .binding ∧ phase ≠ .ended ∧ phase ≠ .logged := by
  rcases hphase with h | h | h | ⟨error, h⟩ <;> simp [h]

/-- Assumes: a request at its end that is not charged if it was rejected. -/
theorem unbilled_of_ended (hphase : state.phase = .ended ∨ state.phase = .logged)
    (hfree : state.rejected = true → state.ctx.terminalUsageRecorded = false →
      state.ctx.route = false ∨ state.ctx.key = false ∨ state.ctx.estimatedCost = none)
    (hevents : state.rejected = true → ∀ event ∈ state.events, event.estimatedCost = none) :
    Unbilled state where
  ended := fun _ ↦ hphase
  free := hfree
  events := hevents
  new := fun h ↦ by rw [h] at hphase; simp at hphase
  unseen := fun h ↦ by rw [h] at hphase; simp at hphase
  streamed := fun _ h ↦ by
    rcases hphase with hphase | hphase
    · exact absurd hphase h.ne.2.2.2.2.1
    · exact absurd hphase h.ne.2.2.2.2.2
  buffered := fun _ h ↦ by rw [h] at hphase; simp at hphase

theorem unbilled_onward (hrejected : state.rejected = false) {phase : Phase}
    (hphase : phase = .binding ∨ phase = .ended ∨ phase = .logged) :
    Unbilled (state.onward phase) where
  ended := fun h ↦ absurd h (by simp [State.onward, hrejected])
  free := fun h ↦ absurd h (by simp [State.onward, hrejected])
  events := fun h ↦ absurd h (by simp [State.onward, hrejected])
  new := fun h ↦ by rcases hphase with rfl | rfl | rfl <;> cases h
  unseen := fun h ↦ by rcases hphase with rfl | rfl | rfl <;> cases h
  streamed := fun _ h ↦ by
    rcases hphase with rfl | rfl | rfl
    · exact absurd rfl h.ne.2.2.2.1
    · exact absurd rfl h.ne.2.2.2.2.1
    · exact absurd rfl h.ne.2.2.2.2.2
  buffered := fun _ h ↦ by rcases hphase with rfl | rfl | rfl <;> cases h

theorem Underway.unbilled (hunderway : Underway state) (hphase : state.phase.Attempting) :
    Unbilled state where
  ended := fun h ↦ absurd h (by simp [hunderway.1])
  free := fun h ↦ absurd h (by simp [hunderway.1])
  events := fun h ↦ absurd h (by simp [hunderway.1])
  new := fun h ↦ absurd h hphase.ne.1
  unseen := fun h ↦ absurd h hphase.ne.2.1
  streamed := fun hhanded _ ↦ hunderway.2 hhanded
  buffered := fun _ h ↦ absurd h hphase.ne.2.2.1

/-- Assumes: a request that has not been rejected and has inserted no event, and that is not charged
if this is its rejection. -/
theorem unbilled_answered (hrejected : state.rejected = false) (hevents : state.events = [])
    (hfree : state.handed = false → state.ctx.terminalUsageRecorded = false →
      state.ctx.route = false ∨ state.ctx.key = false ∨ state.ctx.estimatedCost = none) :
    Unbilled state.answered := by
  apply unbilled_of_ended
  · exact .inl rfl
  · intro h
    exact hfree (by simpa [State.answered, hrejected] using h)
  · intro _ event hevent
    change event ∈ state.events at hevent
    rw [hevents] at hevent
    cases hevent

theorem unbilled_refused (hrejected : state.rejected = false) (hevents : state.events = [])
    (hreleased : state.handed = false → state.ctx.Released) : Unbilled state.refused := by
  apply unbilled_answered
  · exact hrejected
  · exact hevents
  · intro hhanded _
    right
    right
    change Context.estimatedCost { state.ctx with guardrailError := true } = none
    rw [Context.estimatedCost]
    cases hreserved : state.ctx.budgetReserved with
    | false => rfl
    | true => exact hreleased hhanded hreserved

/-- Assumes: a request whose account is open. A rejection that `record_terminal_usage` records is
not charged. -/
theorem Open.unbilled_denied (hopen : Open ticket state) (release : Fate) (now : DateTime) :
    Unbilled (state.denied ticket release now) := by
  obtain ⟨world, charged, hsettled⟩ := settled_eq ticket state release none now
  unfold State.denied State.recordTerminalUsage
  rw [if_neg (by rw [hopen.recorded]; simp), hsettled]
  apply unbilled_of_ended
  · exact .inl rfl
  · intro _ h
    simp [State.answered] at h
  · intro _ event hevent
    change event ∈ state.events ++ [⟨none, now⟩] at hevent
    rw [hopen.events, List.nil_append, List.mem_singleton] at hevent
    rw [hevent]

/-! ### The callbacks -/

/-- Assumes: a new request. What `request_filter` rejects has no price. -/
theorem Open.unbilled_requestFilter (hopen : Open ticket state) (hrejected : state.rejected = false)
    (hnew : state.ctx = Context.new) (outcome : FilterOutcome) :
    Unbilled (requestFilter state outcome) := by
  cases outcome with
  | rejected route key =>
    apply unbilled_answered
    · exact hrejected
    · exact hopen.events
    · intro _ _
      right
      right
      change Context.estimatedCost { state.ctx with route := route, key := key } = none
      rw [hnew]
      rfl
  | accepted matched key socket accessa passthrough foundry =>
    exact {
      ended := fun h ↦ absurd h (by simp [requestFilter, State.onward, hrejected])
      free := fun h ↦ absurd h (by simp [requestFilter, State.onward, hrejected])
      events := fun h ↦ absurd h (by simp [requestFilter, State.onward, hrejected])
      new := fun h ↦ by cases h
      unseen := fun _ ↦ by
        refine ⟨?_, rfl⟩
        change state.ctx.bodyBytesSeen = 0
        rw [hnew]
        rfl
      streamed := fun _ h ↦ absurd rfl h.ne.2.1
      buffered := fun _ h ↦ by cases h }

/-- A socket, a request that is passed through and an Accessa connection have no price. -/
theorem Context.usageCost_eq_none {ctx : Context}
    (hunpriced : ctx.socket = true ∨ ctx.passthrough ≠ .none ∨ ctx.accessa = true) :
    ctx.usageCost = none := by
  rw [Context.usageCost, if_pos hunpriced]

/-- An upstream that does not answer in time is reported to the client. -/
theorem defaultProxyFailureStatus_of_timeout {error : PingoraError}
    (htimeout : isUpstreamTimeoutError error = true) : defaultProxyFailureStatus error = 502 := by
  obtain ⟨source, etype⟩ := error
  rw [isUpstreamTimeoutError, Bool.and_eq_true, decide_eq_true_eq] at htimeout
  obtain ⟨rfl, hkind⟩ := htimeout
  cases etype with
  | httpStatus code => cases hkind
  | connectTimedout | tlsHandshakeTimedout | readTimedout | writeTimedout | readError | writeError
  | connectionClosed | other => rfl

theorem Context.estimatedCost_eq_none {ctx : Context} (hcost : ctx.usageCost = none) :
    ctx.estimatedCost = none := by
  rw [Context.estimatedCost, hcost, ite_self]

theorem Open.unbilled_admitWebsocket (hopen : Open ticket state)
    (hrejected : state.rejected = false)
    (hsocket : state.ctx.socket = true) (answers : UpstreamFilterAnswers) :
    Unbilled (admitWebsocket ticket answers state) := by
  have hanswered : ∀ state' : State, state'.rejected = false → state'.events = [] →
      state'.ctx.socket = true → Unbilled state'.answered := by
    intro state' hrejected' hevents hsocket'
    refine unbilled_answered hrejected' hevents fun _ _ ↦ .inr (.inr ?_)
    exact Context.estimatedCost_eq_none (Context.usageCost_eq_none (.inl hsocket'))
  have honward : ∀ state' : State, state'.rejected = false → state'.ctx.socket = true →
      Unbilled (state'.onward .upstreamPeer) := fun state' hrejected' hsocket' ↦
    Underway.unbilled ⟨hrejected', fun _ _ ↦ .inl hsocket'⟩ (.inl rfl)
  obtain ⟨world, charged, reserved, reservedAt, hresult⟩ :=
    admitted_ctx ticket state answers.admission 0 answers.now
  unfold admitWebsocket
  dsimp only
  rw [hresult]
  split_ifs
  · exact hanswered _ hrejected hopen.events hsocket
  · exact honward _ hrejected hsocket
  · exact hanswered _ hrejected hopen.events hsocket
  · exact hanswered _ hrejected hopen.events hsocket
  · exact honward _ hrejected hsocket
  · exact hanswered _ hrejected hopen.events hsocket

/-- A governed request reserves its budget before its body only when it has none or streams it. -/
theorem Open.unbilled_admitGoverned (hopen : Open ticket state) (hrejected : state.rejected = false)
    (hreserved : state.ctx.budgetReserved = false) (hroute : state.ctx.route = true)
    (hkey : state.ctx.key = true) {answers : UpstreamFilterAnswers}
    (hempty : state.ctx.bodyEmpty = answers.bodyEmpty)
    (hstream : state.ctx.canStream = answers.canStream) (hseen : state.ctx.bodyBytesSeen = 0)
    (hsound : answers.admission.Sound ticket state.ctx.amount answers.now state.world) :
    Unbilled (admitGoverned ticket answers state) := by
  have hadmitted := hopen.admitted hreserved ⟨hroute, hkey⟩ hsound
  obtain ⟨world, charged, reserved, reservedAt, hresult⟩ :=
    admitted_ctx ticket state answers.admission state.ctx.amount answers.now
  unfold admitGoverned
  dsimp only
  split_ifs with hreserves hallowed hfoundry
  · exact hadmitted.unbilled_denied answers.release answers.now
  · rw [hresult]
    refine Underway.unbilled ⟨hrejected, fun _ _ ↦ .inr ?_⟩ (.inl rfl)
    rw [Bool.or_eq_true] at hreserves
    rcases hreserves with h | h
    · exact .inr ⟨hempty.trans h, hseen⟩
    · exact .inl (hstream.trans h)
  · exact hadmitted.unbilled_denied answers.release answers.now
  · exact hopen.unbilled_denied answers.release answers.now
  · refine Underway.unbilled ⟨hrejected, fun _ h ↦ absurd h ?_⟩ (.inl rfl)
    exact Bool.eq_false_iff.mp hreserved
  · exact hopen.unbilled_denied answers.release answers.now

theorem Open.unbilled_admitKeyed (hopen : Open ticket state) (hrejected : state.rejected = false)
    (hreserved : state.ctx.budgetReserved = false) (hroute : state.ctx.route = true)
    (hkey : state.ctx.key = true) {answers : UpstreamFilterAnswers}
    (hempty : state.ctx.bodyEmpty = answers.bodyEmpty) (hseen : state.ctx.bodyBytesSeen = 0)
    (hsound : answers.admission.Sound ticket state.ctx.amount answers.now state.world) :
    Unbilled (admitKeyed ticket answers state) := by
  unfold admitKeyed
  split_ifs
  · exact hopen.unbilled_denied answers.release answers.now
  · refine Underway.unbilled ⟨hrejected, fun _ h ↦ absurd h ?_⟩ (.inl rfl)
    exact Bool.eq_false_iff.mp hreserved
  · exact hopen.unbilled_denied answers.release answers.now
  · apply Open.unbilled_admitGoverned
    · exact hopen.congr rfl rfl rfl rfl rfl rfl rfl
    · exact hrejected
    · exact hreserved
    · exact hroute
    · exact hkey
    · exact hempty
    · rfl
    · exact hseen
    · exact hsound
  · exact hopen.unbilled_denied answers.release answers.now

theorem Open.unbilled_proxyUpstreamFilter (hopen : Open ticket state)
    (hrejected : state.rejected = false) (hreserved : state.ctx.budgetReserved = false)
    (hroute : state.ctx.route = true) (hseen : state.ctx.bodyBytesSeen = 0)
    (hmatch : state.ctx.routeMatch.isSome = true) {answers : UpstreamFilterAnswers}
    (hsound : answers.admission.Sound ticket (answers.amount state.ctx) answers.now state.world)
    (hfair : (Event.proxyUpstreamFilter answers).Fair state) :
    Unbilled (proxyUpstreamFilter ticket answers state) := by
  have hunreserved : ∀ state' : State, state'.rejected = state.rejected →
      state'.ctx.budgetReserved = state.ctx.budgetReserved →
      Unbilled (state'.onward .upstreamPeer) := by
    intro state' hrejected' hreserved'
    refine Underway.unbilled ⟨hrejected'.trans hrejected, fun _ h ↦ absurd h ?_⟩ (.inl rfl)
    exact Bool.eq_false_iff.mp (hreserved'.trans hreserved)
  have hunpriced : state.ctx.usageCost = none → Unbilled state.answered := fun hcost ↦
    unbilled_answered hrejected hopen.events fun _ _ ↦
      .inr (.inr (Context.estimatedCost_eq_none hcost))
  unfold UpstreamFilterAnswers.amount at hsound
  rcases proxyUpstreamFilter_cases ticket answers state with
    ⟨hfinal, hmissing | hupstream | hdirect | hkey | haccessa⟩ | hfinal | hfinal |
    ⟨hfinal, hsocket⟩ | ⟨hfinal, hsocket, hkey⟩
  · rw [Option.isNone_iff_eq_none] at hmissing
    rw [hmissing] at hmatch
    cases hmatch
  · rw [hfinal]
    refine unbilled_answered hrejected hopen.events fun hhanded _ ↦ ?_
    rcases hfair with h | h | h | h
    · rw [hhanded] at h
      cases h
    · rw [h] at hupstream
      cases hupstream
    · exact .inr (.inl h)
    · exact .inr (.inr (Context.estimatedCost_eq_none h))
  · rw [hfinal]
    exact hunpriced (Context.usageCost_eq_none (.inr (.inl (by rw [hdirect]; simp))))
  · rw [hfinal]
    exact unbilled_answered hrejected hopen.events fun _ _ ↦ .inr (.inl hkey)
  · rw [hfinal]
    exact hunpriced (Context.usageCost_eq_none (.inr (.inr haccessa)))
  · rw [hfinal]
    exact hopen.unbilled_denied answers.release answers.now
  · rw [hfinal]
    exact hunreserved state rfl rfl
  · rw [hfinal]
    rw [Bool.and_eq_true] at hsocket
    exact hopen.unbilled_admitWebsocket hrejected hsocket.1 answers
  · rw [if_neg (by rw [hsocket]; exact Bool.false_ne_true)] at hsound
    obtain ⟨routeMatch, serviceCost, hpriced⟩ := answers.priced_eq state.ctx
    rw [hpriced] at hsound hfinal
    rw [hfinal]
    apply Open.unbilled_admitKeyed
    · exact hopen.congr rfl rfl rfl rfl rfl rfl rfl
    · exact hrejected
    · exact hreserved
    · exact hroute
    · exact hkey
    · rfl
    · exact hseen
    · exact hsound

theorem Open.unbilled_upstreamPeer (hopen : Open ticket state) (hunderway : Underway state)
    {slot : Option Bool} {resolution : Resolution}
    (hfair : (Event.upstreamPeer slot resolution).Fair state) :
    Unbilled (upstreamPeer slot resolution state) := by
  unfold upstreamPeer
  split_ifs with hrefused
  · refine unbilled_refused hunderway.1 hopen.events fun hhanded ↦ ?_
    rw [Bool.and_eq_true, Bool.not_eq_true', decide_eq_true_eq] at hrefused
    rcases hfair with h | h | h | h
    · rw [hhanded] at h
      cases h
    · exact absurd hrefused.2 h
    · rw [hrefused.1] at h
      cases h
    · exact h
  · cases resolution with
    | resolved => exact Underway.unbilled hunderway (.inr (.inl rfl))
    | failed => exact Underway.unbilled hunderway (.inr (.inr (.inr ⟨_, rfl⟩)))
    | timeout => exact Underway.unbilled hunderway (.inr (.inr (.inr ⟨_, rfl⟩)))

theorem Underway.unbilled_connect (hunderway : Underway state) (failure : Option ErrorType) :
    Unbilled (connect failure state) := by
  cases failure with
  | none => exact Underway.unbilled hunderway (.inr (.inr (.inl rfl)))
  | some etype => exact Underway.unbilled hunderway (.inr (.inr (.inr ⟨_, rfl⟩)))

/-- `fail_to_proxy` answers nothing, or an error that costs nothing. -/
theorem Open.unbilled_failToProxy (hopen : Open ticket state) (hunderway : Underway state)
    {error : PingoraError} (hphase : state.phase = .failed error) {responseWritten : Bool}
    (hfair : (Event.failToProxy responseWritten).Fair state) :
    Unbilled (failToProxy error responseWritten state) := by
  have hanswered : ¬ (state.handed = false ∧ state.ctx.guardrailError = false ∧
      (responseWritten = true ∨ defaultProxyFailureStatus error = 0)) →
      Unbilled state.answered := by
    intro hanswers
    refine unbilled_answered hunderway.1 hopen.events fun hhanded _ ↦ ?_
    rcases hfair with h | h
    · rw [hhanded] at h
      cases h
    · rcases h error hphase with hsilent | hkey | hcost
      · exact absurd ⟨hhanded, hsilent⟩ hanswers
      · exact .inr (.inl hkey)
      · exact .inr (.inr hcost)
  have hended : Unbilled (state.onward .ended) := unbilled_onward hunderway.1 (.inr (.inl rfl))
  unfold failToProxy
  split_ifs with herror htimeout hwritten hstatus
  · refine hanswered fun h ↦ ?_
    rw [h.2.1] at herror
    cases herror
  · exact hended
  · refine hanswered fun h ↦ ?_
    rcases h.2.2 with hresponse | hstatus
    · exact hwritten hresponse
    · rw [defaultProxyFailureStatus_of_timeout htimeout] at hstatus
      cases hstatus
  · refine hanswered fun h ↦ ?_
    rw [Bool.and_eq_true, decide_eq_true_eq, Bool.not_eq_true'] at hstatus
    rcases h.2.2 with hresponse | hzero
    · rw [hresponse] at hstatus
      exact Bool.noConfusion hstatus.2
    · exact absurd hzero hstatus.1.ne'
  · exact hended

/-- Assumes: a request without a reservation. -/
theorem Open.unbilled_completeBody (hopen : Open ticket state) (hrejected : state.rejected = false)
    (hreserved : state.handed = false → state.ctx.budgetReserved = false) (answers : BodyAnswers) :
    Unbilled (completeBody answers state) := by
  obtain ⟨routeMatch, serviceCost, hpriced⟩ := state.ctx.priced_eq answers.resolved
  unfold completeBody
  rw [hpriced]
  dsimp only
  split_ifs
  · refine unbilled_refused hrejected hopen.events fun hhanded h ↦ ?_
    exact absurd h (Bool.eq_false_iff.mp (hreserved hhanded))
  · apply unbilled_onward
    · exact hrejected
    · exact .inl rfl
  · exact {
      ended := fun h ↦ absurd h (by simp [State.onward, hrejected])
      free := fun h ↦ absurd h (by simp [State.onward, hrejected])
      events := fun h ↦ absurd h (by simp [State.onward, hrejected])
      new := fun h ↦ by cases h
      unseen := fun h ↦ by cases h
      streamed := fun _ h ↦ absurd rfl h.ne.2.2.1
      buffered := fun hhanded _ ↦ hreserved hhanded }

/-- Assumes: a request that `request_body_filter` neither streams nor ends without a body. It holds
no reservation before its body is handed on. -/
theorem Underway.unreserved (hunderway : Underway state) (hsocket : ¬ state.ctx.socket = true)
    {answers : BodyAnswers}
    (hbuffers : ¬ (decide (state.ctx.passthrough = .direct) || state.ctx.canStream ||
      state.ctx.budgetReserved &&
        decide (state.ctx.bodyBytesSeen + (if state.ctx.bodyEmpty then 0 else answers.chunk) = 0) &&
        (state.ctx.bodyEmpty || answers.endOfStream)) = true)
    (hhanded : state.handed = false) : state.ctx.budgetReserved = false := by
  by_contra hreserved
  rw [Bool.not_eq_false] at hreserved
  rcases hunderway.2 hhanded hreserved with h | h | ⟨hempty, hseen⟩
  · exact hsocket h
  · simp [h] at hbuffers
  · simp [hreserved, hempty, hseen] at hbuffers

/-- A body is buffered only without a reservation, so its rejections cost nothing. -/
theorem Open.unbilled_requestBodyFilter (hopen : Open ticket state) (hunderway : Underway state)
    (hphase : state.phase = .requestBody) {answers : BodyAnswers}
    (hfair : (Event.requestBodyFilter answers).Fair state) :
    Unbilled (requestBodyFilter answers state) := by
  have hforwarded : ∀ ctx, Unbilled (State.forwarded { state with ctx := ctx }) := fun ctx ↦
    Underway.unbilled ⟨hunderway.1, fun h ↦ absurd h (by simp [State.forwarded])⟩
      (.inr (.inr (.inl hphase)))
  have hfailed : ∀ error, Unbilled (state.onward (.failed error)) := fun error ↦
    Underway.unbilled hunderway (.inr (.inr (.inr ⟨error, rfl⟩)))
  unfold requestBodyFilter
  dsimp only
  by_cases hsocket : state.ctx.socket = true
  · rw [if_pos hsocket]
    split_ifs
    · exact hforwarded state.ctx
    · exact hfailed _
  rw [if_neg hsocket]
  have hunreserved := @Underway.unreserved state hunderway hsocket answers
  generalize (if state.ctx.bodyEmpty = true then 0 else answers.chunk) = chunk at hunreserved ⊢
  split_ifs with herror hlimits hstreams hbuffered hlast
  · exact hfailed _
  · refine unbilled_refused hunderway.1 hopen.events fun hhanded ↦ ?_
    rw [Bool.and_eq_true, Bool.not_eq_true', Bool.not_eq_true'] at hlimits
    rcases hfair with h | h | h | h
    · rw [hhanded] at h
      cases h
    · rw [hlimits.2] at h
      cases h
    · rw [hlimits.1] at h
      cases h
    · exact h
  · exact hforwarded _
  · refine unbilled_refused hunderway.1 hopen.events fun hhanded h ↦ ?_
    exact absurd h (Bool.eq_false_iff.mp (hunreserved hstreams hhanded))
  · refine Underway.unbilled ⟨hunderway.1, fun hhanded h ↦ absurd h ?_⟩ (.inr (.inr (.inl hphase)))
    exact Bool.eq_false_iff.mp (hunreserved hstreams hhanded)
  · apply Open.unbilled_completeBody
    · exact hopen.congr rfl rfl rfl rfl rfl rfl rfl
    · exact hunderway.1
    · exact hunreserved hstreams

theorem Open.unbilled_admitCompleteBody (hopen : Open ticket state)
    (hrejected : state.rejected = false)
    (hunreserved : state.handed = false → state.ctx.budgetReserved = false)
    (answers : CompleteBodyAnswers) : Unbilled (admitCompleteBody ticket answers state) := by
  have hreleased : state.handed = false → state.ctx.Released := fun hhanded h ↦
    absurd h (Bool.eq_false_iff.mp (hunreserved hhanded))
  unfold admitCompleteBody
  split_ifs with hpolicy hreserved hrates
  · exact unbilled_refused hrejected hopen.events hreleased
  · apply unbilled_onward
    · exact hrejected
    · exact .inl rfl
  · exact unbilled_refused hrejected hopen.events hreleased
  · obtain ⟨world, charged, -, -, ⟨-, hresult⟩ | ⟨-, hresult⟩⟩ :=
      admitted_eq ticket state answers.admission state.ctx.amount answers.now
    · rw [hresult]
      apply unbilled_onward
      · exact hrejected
      · exact .inl rfl
    · rw [hresult]
      exact unbilled_refused hrejected hopen.events hreleased

/-- `logging` records no cost for a rejected request. -/
theorem Open.unbilled_logging (hopen : Open ticket state) (hunbilled : Unbilled state)
    (eventAt settledAt : DateTime) (fate : Fate) :
    Unbilled (logging ticket eventAt settledAt fate state) := by
  obtain ⟨world, charged, hsettled⟩ :=
    settled_eq ticket state fate state.ctx.estimatedCost settledAt
  unfold logging
  split_ifs with hskipped
  · apply unbilled_of_ended
    · exact .inr rfl
    · exact hunbilled.free
    · exact hunbilled.events
  · dsimp only
    rw [hsettled]
    apply unbilled_of_ended
    · exact .inr rfl
    · intro _ h
      cases h
    · intro hrejected event hevent
      change event ∈ state.events ++ [⟨state.ctx.estimatedCost, _⟩] at hevent
      rw [hopen.events, List.nil_append, List.mem_singleton] at hevent
      rw [hevent]
      rcases hunbilled.free hrejected hopen.recorded with h | h | h
      · simp [h] at hskipped
      · simp [h] at hskipped
      · exact h

theorem Open.unbilled_responseFilter (hopen : Open ticket state) (hunderway : Underway state)
    (hphase : state.phase = .requestBody) {cost : Option ℚ≥0} {verdict : ResponseVerdict}
    (hfair : (Event.responseFilter cost verdict).Fair state) :
    Unbilled (responseFilter cost verdict state) := by
  have hattempting : state.phase.Attempting := .inr (.inr (.inl hphase))
  cases verdict with
  | accepted => exact Underway.unbilled hunderway hattempting
  | blocked =>
    unfold responseFilter
    dsimp only
    split_ifs
    · exact Underway.unbilled hunderway hattempting
    · exact Underway.unbilled hunderway hattempting
  | refused =>
    refine unbilled_refused hunderway.1 hopen.events fun hhanded ↦ ?_
    rcases hfair with h | h | h
    · rw [show state.handed = false from hhanded] at h
      cases h
    · exact absurd rfl h
    · exact h

/-! ### Runs -/

/-- A rejected request whose account is closed stays unbilled. -/
theorem Closed.unbilled_advance (hclosed : Closed ticket state) (hunbilled : Unbilled state)
    (event : Event) : Unbilled (Proxy.advance ticket state event) := by
  by_cases hother : ∃ call, event = .other call
  · obtain ⟨call, rfl⟩ := hother
    exact ⟨hunbilled.ended, hunbilled.free, hunbilled.events, hunbilled.new, hunbilled.unseen,
      hunbilled.streamed, hunbilled.buffered⟩
  · rcases hclosed.advance_eq (not_exists.mp hother) with hsame | hlogged
    · rw [hsame]
      exact hunbilled
    · rw [hlogged]
      exact unbilled_of_ended (.inr rfl) hunbilled.free hunbilled.events

/-- One callback of a request whose account is open. -/
theorem Running.unbilled_advance (hrunning : Running ticket state) (hunbilled : Unbilled state)
    {event : Event} (hsound : event.Sound ticket state) (hfair : event.Fair state) :
    Unbilled (advance ticket state event) := by
  have hopen := hrunning.toOpen
  have hrejected : ∀ phase, state.phase = phase → phase ≠ .ended → state.rejected = false := by
    rintro phase rfl hphase
    exact hunbilled.rejected_eq_false hphase hrunning.unlogged
  have hunderway : state.phase.Attempting → Underway state := fun hphase ↦
    ⟨hrejected _ rfl hphase.ne.2.2.2.2.1, fun hhanded ↦ hunbilled.streamed hhanded hphase⟩
  cases event with
  | other call =>
    exact ⟨hunbilled.ended, hunbilled.free, hunbilled.events, hunbilled.new, hunbilled.unseen,
      hunbilled.streamed, hunbilled.buffered⟩
  | requestFilter outcome =>
    rw [advance]
    split_ifs with hphase
    · exact hopen.unbilled_requestFilter (hrejected _ hphase (by simp))
        (hunbilled.new hphase) outcome
    · exact hunbilled
  | proxyUpstreamFilter answers =>
    rw [advance]
    split_ifs with hphase
    · exact hopen.unbilled_proxyUpstreamFilter (hrejected _ hphase (by simp))
        (hrunning.unreserved (.inr hphase)) (hrunning.routed (by simp [hphase]) (by simp [hphase]))
        (hunbilled.unseen hphase).1 (hunbilled.unseen hphase).2 hsound.1 hfair
    · exact hunbilled
  | upstreamPeer slot resolution =>
    rw [advance]
    split_ifs with hphase
    · exact hopen.unbilled_upstreamPeer (hunderway (.inl hphase)) hfair
    · exact hunbilled
  | connect failure =>
    rw [advance]
    split_ifs with hphase
    · exact (hunderway (.inr (.inl hphase))).unbilled_connect failure
    · exact hunbilled
  | requestBodyFilter answers =>
    rw [advance]
    split_ifs with hphase
    · exact hopen.unbilled_requestBodyFilter (hunderway (.inr (.inr (.inl hphase)))) hphase hfair
    · exact hunbilled
  | admitCompleteBody answers =>
    rw [advance]
    split_ifs with hphase
    · exact hopen.unbilled_admitCompleteBody (hrejected _ hphase (by simp))
        (fun hhanded ↦ hunbilled.buffered hhanded hphase) answers
    · exact hunbilled
  | bindRequestBodyAdmission converted =>
    rw [advance]
    split_ifs with hphase
    · rw [bindRequestBodyAdmission]
      split_ifs with hconverted
      · apply Underway.unbilled
        · exact ⟨hrejected _ hphase (by simp), fun h ↦ absurd h (by simp [State.onward,
            State.forwarded])⟩
        · exact .inr (.inr (.inl rfl))
      · refine unbilled_refused (hrejected _ hphase (by simp)) hopen.events fun hhanded ↦ ?_
        rcases hfair with h | h | h
        · rw [hhanded] at h
          cases h
        · exact absurd h hconverted
        · exact h
    · exact hunbilled
  | responseFilter cost verdict =>
    rw [advance]
    split_ifs with hphase
    · exact hopen.unbilled_responseFilter (hunderway (.inr (.inr (.inl hphase)))) hphase hfair
    · exact hunbilled
  | errorWhileProxy error =>
    rw [advance]
    split_ifs with hphase
    · exact Underway.unbilled (hunderway (.inr (.inr (.inl hphase)))) (.inr (.inr (.inr ⟨_, rfl⟩)))
    · exact hunbilled
  | retry =>
    rw [advance]
    split
    · rename_i error hphase
      split_ifs
      · exact hunbilled
      · exact Underway.unbilled (hunderway (.inr (.inr (.inr ⟨error, hphase⟩)))) (.inl rfl)
    · exact hunbilled
  | failToProxy responseWritten =>
    rw [advance]
    split
    · rename_i error hphase
      exact hopen.unbilled_failToProxy (hunderway (.inr (.inr (.inr ⟨error, hphase⟩)))) hphase hfair
    · exact hunbilled
  | finish =>
    rw [advance]
    split_ifs with hphase
    · exact unbilled_onward (hunderway (.inr (.inr (.inl hphase)))).1 (.inr (.inl rfl))
    · exact hunbilled
  | logging eventAt settledAt fate =>
    rw [advance]
    split_ifs with hphase
    · exact hopen.unbilled_logging hunbilled eventAt settledAt fate
    · exact hunbilled

/-- One fair event keeps the account and charges no rejection. -/
theorem unbilled_advance (state : State) (event : Event)
    (hevent : event.Sound ticket state ∧ event.Fair state)
    (hstate : Accounted ticket state ∧ Unbilled state) :
    Accounted ticket (advance ticket state event) ∧ Unbilled (advance ticket state event) := by
  refine ⟨accounted_advance state event hevent.1 hstate.1, ?_⟩
  rcases hstate.1 with hrunning | hclosed
  · exact hrunning.unbilled_advance hstate.2 hevent.1 hevent.2
  · exact hclosed.unbilled_advance hstate.2 event

theorem unbilled_new (world : World) : Unbilled (State.new world) where
  ended := fun h ↦ by cases h
  free := fun h ↦ by cases h
  events := fun h ↦ by cases h
  new := fun _ ↦ rfl
  unseen := fun h ↦ by cases h
  streamed := fun _ h ↦ absurd rfl h.ne.1
  buffered := fun _ h ↦ by cases h

/-- Assumes: a reachable store without the reservation of the request, and events that are sound and
fair where they occur. A request that the gateway has rejected before an upstream was handed its
body, once logged, has recorded no cost, has added nothing to a committed counter, and has no
reservation. -/
theorem rejection_unbilled {ticket : Ticket} {calls : List Call}
    (hfresh : (run step World.initial calls).gateway.store
      (.reservation ticket.keyId ticket.reservationId) = none)
    {events : List Event} (hevents : Guarded (advance ticket)
      (fun state event ↦ event.Sound ticket state ∧ event.Fair state)
      (State.new (run step World.initial calls)) events) :
    let final := run (advance ticket) (State.new (run step World.initial calls)) events
    final.phase = .logged → final.rejected = true →
      (∀ event ∈ final.events, event.estimatedCost = none) ∧
      (∀ counter, final.charged counter = 0) ∧
      final.world.gateway.store (.reservation ticket.keyId ticket.reservationId) = none := by
  intro final hlogged hrejected
  have hfinal : Accounted ticket final ∧ Unbilled final :=
    run_guarded_invariant unbilled_advance events _ hevents
      ⟨accounted_new hfresh, unbilled_new _⟩
  have hcosts := hfinal.2.events hrejected
  refine ⟨hcosts, ?_, hfinal.1.absent_of_logged hlogged⟩
  have hsum : final.recordedCost = 0 := by
    rw [State.recordedCost]
    apply List.sum_eq_zero
    intro cost hcost
    obtain ⟨event, hevent, rfl⟩ := List.mem_map.mp hcost
    rw [UsageRecord.cost, hcosts event hevent]
    rfl
  intro counter
  obtain ⟨date, hcharged⟩ := hfinal.1.chargedOnce.2
  rw [hcharged, hsum, ite_self]

/-- A request to Foundry that gets no token after its reservation: the reservation is released, and
the event has no cost. -/
theorem rejection_unbilled_token :
    let final := run (advance ⟨0, "epoch", 7, "request"⟩)
      (State.new (run step World.initial [.arm 0 "epoch", .seed 0 7 0 0 ⟨2026, 1, 31⟩]))
      [.requestFilter (.accepted ⟨.internalService, none⟩ true false false .none true),
        .proxyUpstreamFilter { UpstreamFilterAnswers.allowing 3 ⟨⟨2026, 1, 31⟩, 0⟩ with
          foundryToken := false },
        .logging ⟨⟨2026, 1, 31⟩, 0⟩ ⟨⟨2026, 1, 31⟩, 0⟩ .delivered]
    (final.phase = .logged ∧ final.rejected = true) ∧
      (∀ event ∈ final.events, event.estimatedCost = none) ∧
      (∀ counter, final.charged counter = 0) ∧
      final.world.gateway.store (.reservation 7 "request") = none := by
  intro final
  have hend : final.phase = .logged ∧ final.rejected = true := by decide
  refine ⟨hend, @rejection_unbilled ⟨0, "epoch", 7, "request"⟩
    [.arm 0 "epoch", .seed 0 7 0 0 ⟨2026, 1, 31⟩] (by decide) _ ?_ hend.1 hend.2⟩
  refine ⟨⟨trivial, .inr trivial⟩, ⟨⟨?_, nofun⟩, .inr (.inl rfl)⟩, ⟨nofun, .inr trivial⟩, trivial⟩
  apply AdmissionAnswers.FaultFree.sound
  simp [AdmissionAnswers.FaultFree, UpstreamFilterAnswers.allowing, AdmissionAnswers.quiet,
    RequestAdmission.Surroundings.Foreign]

/-- A request to a service at the price of `3` that is reserved and then finds no upstream slot. It
is rejected before anything is sent, no store has failed, and `logging` reconciles the reservation
with the price: the event costs `3`, and so much is added to the committed counters. -/
theorem overload_charged :
    let final := run (advance ⟨0, "epoch", 7, "request"⟩)
      (State.new (run step World.initial [.arm 0 "epoch", .seed 0 7 0 0 ⟨2026, 1, 31⟩]))
      [.requestFilter (.accepted ⟨.internalService, none⟩ true false false .none false),
        .proxyUpstreamFilter (.allowing 3 ⟨⟨2026, 1, 31⟩, 0⟩), .upstreamPeer (some false) .resolved,
        .logging ⟨⟨2026, 1, 31⟩, 0⟩ ⟨⟨2026, 1, 31⟩, 0⟩ .delivered]
    final.phase = .logged ∧ final.rejected = true ∧ final.handed = false ∧
      final.events.map UsageRecord.estimatedCost = [some 3] ∧
      final.charged (.daily 7 2026 1 31) = 3 ∧ final.charged (.monthly 7 2026 1) = 3 := by
  decide +kernel

/-- A request to a service at the price of `3` whose upstream does not accept a connection, without
a body and so with a reservation, or with a body and so without one. `fail_to_proxy` answers it, no
upstream is handed a body, and the event costs `3`, which is added to the committed counters. -/
theorem unreachable_charged (bodyEmpty : Bool) :
    let final := run (advance ⟨0, "epoch", 7, "request"⟩)
      (State.new (run step World.initial [.arm 0 "epoch", .seed 0 7 0 0 ⟨2026, 1, 31⟩]))
      [.requestFilter (.accepted ⟨.internalService, none⟩ true false false .none false),
        .proxyUpstreamFilter { UpstreamFilterAnswers.allowing 3 ⟨⟨2026, 1, 31⟩, 0⟩ with
          bodyEmpty := bodyEmpty },
        .upstreamPeer (some true) .resolved, .connect (some .connectTimedout), .failToProxy false,
        .logging ⟨⟨2026, 1, 31⟩, 0⟩ ⟨⟨2026, 1, 31⟩, 0⟩ .delivered]
    final.phase = .logged ∧ final.rejected = true ∧ final.handed = false ∧
      final.ctx.budgetReserved = bodyEmpty ∧
      final.events.map UsageRecord.estimatedCost = [some 3] ∧
      final.charged (.daily 7 2026 1 31) = 3 ∧ final.charged (.monthly 7 2026 1) = 3 := by
  revert bodyEmpty
  decide +kernel

end Relayna.Proxy

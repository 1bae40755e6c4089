import Relayna.Proxy.Lifecycle

/-!
# Usage is accounted once

Until its usage is recorded a request is `Open`: it has inserted no event and added nothing to the
committed counters, and its reservation is outstanding exactly when `budget_reserved` says so. Both
`record_terminal_usage` and `logging` close it: the reservation is gone, one event is inserted, and
the two counters of one date have grown by the cost of that event (`Open.settled`). Nothing opens it
again, since every callback but `logging` comes before its end.

`usage_accounted_once` carries this along every run of the callbacks. What the request adds to the
counters is taken from the store around each of its commands, and the admissions turn out to add
nothing (`admissionSpend_eq_zero`). They may lose commands but no reply: an admission whose reply is
lost is one that the request never learns of. The call that settles the account may lose its reply
but not the command, which no later callback repeats (`Budget.RequestAdmission`).
-/

set_option autoImplicit false
set_option relaxedAutoImplicit false

namespace Relayna.Proxy

open Library.Transition Relayna.Budget Relayna.Budget.Scripts Relayna.Budget.Reservations
open Relayna.Budget.RequestAdmission Relayna.Budget.Settlement
open Relayna.Usage (DateTime)

variable {ticket : Ticket} {state : State}

/-! ### Open and closed accounts -/

/-- What the events of a request cost together. -/
def State.recordedCost (state : State) : ℚ :=
  (state.events.map UsageRecord.cost).sum

/-- A request has inserted at most one event, and has added its cost to the counters of one date. -/
def State.ChargedOnce (ticket : Ticket) (state : State) : Prop :=
  state.events.length ≤ 1 ∧ ∃ date, ∀ counter, state.charged counter =
    if Covers ticket.keyId date counter then state.recordedCost else 0

/-- The usage of a request is not recorded yet. -/
structure Open (ticket : Ticket) (state : State) : Prop where
  consistent : Consistent state.world
  epoch : EpochText state.world
  recorded : state.ctx.terminalUsageRecorded = false
  outstanding : state.world.ledger.lookup ticket.key = none ↔ state.ctx.budgetReserved = false
  keyed : state.ctx.budgetReserved = true → state.ctx.route = true ∧ state.ctx.key = true
  events : state.events = []
  charged : state.charged = fun _ ↦ 0

/-- The usage of a request is recorded, or there is no key to record it for. -/
structure Closed (ticket : Ticket) (state : State) : Prop where
  consistent : Consistent state.world
  epoch : EpochText state.world
  absent : state.world.ledger.lookup ticket.key = none
  recorded : state.phase ≠ .logged → state.ctx.terminalUsageRecorded = true
  ended : state.phase = .ended ∨ state.phase = .logged
  once : state.ChargedOnce ticket

/-- A request is open between two callbacks: it reserves nothing before `proxy_upstream_filter`, and
it has a route after `request_filter` unless that has ended it. -/
structure Running (ticket : Ticket) (state : State) : Prop extends Open ticket state where
  unlogged : state.phase ≠ .logged
  unreserved : state.phase = .requestFilter ∨ state.phase = .proxyUpstreamFilter →
    state.ctx.budgetReserved = false
  routed : state.phase ≠ .requestFilter → state.phase ≠ .ended → state.ctx.route = true

/-- A request is open until its usage is recorded. -/
def Accounted (ticket : Ticket) (state : State) : Prop :=
  Running ticket state ∨ Closed ticket state

theorem Open.chargedOnce (hopen : Open ticket state) : state.ChargedOnce ticket := by
  refine ⟨by rw [hopen.events]; exact Nat.zero_le 1, ⟨0, 0, 0⟩, ?_⟩
  intro counter
  rw [hopen.charged, State.recordedCost, hopen.events, List.map_nil, List.sum_nil, ite_self]

theorem Accounted.chargedOnce (haccounted : Accounted ticket state) : state.ChargedOnce ticket := by
  rcases haccounted with hrunning | hclosed
  · exact hrunning.toOpen.chargedOnce
  · exact hclosed.once

/-- Assumes: a state with the world, the events, the charges and the flags of an open one. It is
open. -/
theorem Open.congr (hopen : Open ticket state) {state' : State}
    (hworld : state'.world = state.world) (hevents : state'.events = state.events)
    (hcharged : state'.charged = state.charged)
    (hrecorded : state'.ctx.terminalUsageRecorded = state.ctx.terminalUsageRecorded)
    (hreserved : state'.ctx.budgetReserved = state.ctx.budgetReserved)
    (hroute : state'.ctx.route = state.ctx.route) (hkey : state'.ctx.key = state.ctx.key) :
    Open ticket state' where
  consistent := hworld ▸ hopen.consistent
  epoch := hworld ▸ hopen.epoch
  recorded := hrecorded.trans hopen.recorded
  outstanding := by rw [hworld, hreserved]; exact hopen.outstanding
  keyed := by rw [hreserved, hroute, hkey]; exact hopen.keyed
  events := hevents.trans hopen.events
  charged := hcharged.trans hopen.charged

/-- The phases after `proxy_upstream_filter` in which a request goes on. -/
def Phase.Serving (phase : Phase) : Prop :=
  phase ≠ .requestFilter ∧ phase ≠ .proxyUpstreamFilter ∧ phase ≠ .ended ∧ phase ≠ .logged
  deriving Decidable

/-- Assumes: an open state with a route in a phase after `proxy_upstream_filter`. -/
theorem Open.running (hopen : Open ticket state) (hroute : state.ctx.route = true)
    (hphase : state.phase.Serving) : Running ticket state where
  toOpen := hopen
  unlogged := hphase.2.2.2
  unreserved := fun hearly ↦ absurd hearly (not_or.mpr ⟨hphase.1, hphase.2.1⟩)
  routed := fun _ _ ↦ hroute

theorem Open.running_ended (hopen : Open ticket state) (hphase : state.phase = .ended) :
    Running ticket state where
  toOpen := hopen
  unlogged := by simp [hphase]
  unreserved := by simp [hphase]
  routed := fun _ hended ↦ absurd hphase hended

theorem Open.accounted_onward (hopen : Open ticket state) (hroute : state.ctx.route = true)
    {phase : Phase} (hphase : phase.Serving) : Accounted ticket (state.onward phase) :=
  .inl (Open.running (hopen.congr rfl rfl rfl rfl rfl rfl rfl) hroute hphase)

theorem Open.accounted_ended (hopen : Open ticket state) : Accounted ticket (state.onward .ended) :=
  .inl (Open.running_ended (hopen.congr rfl rfl rfl rfl rfl rfl rfl) rfl)

theorem Open.accounted_answered (hopen : Open ticket state) : Accounted ticket state.answered :=
  .inl (Open.running_ended (hopen.congr rfl rfl rfl rfl rfl rfl rfl) rfl)

theorem Open.accounted_refused (hopen : Open ticket state) : Accounted ticket state.refused :=
  .inl (Open.running_ended (hopen.congr rfl rfl rfl rfl rfl rfl rfl) rfl)

/-- A pricing stage changes the price alone. -/
theorem Context.priced_eq (ctx : Context) (pricing : Pricing) :
    ∃ routeMatch serviceCost, ctx.priced pricing =
      { ctx with routeMatch := routeMatch, serviceCost := serviceCost } := by
  unfold Context.priced
  split
  · exact ⟨ctx.routeMatch, ctx.serviceCost, rfl⟩
  · split_ifs
    · exact ⟨_, _, rfl⟩
    · exact ⟨ctx.routeMatch, ctx.serviceCost, rfl⟩

/-! ### Admission -/

/-- The calls around an admission leave the reservation alone, and no reply of an admit command that
was admitted is lost. -/
def AdmissionAnswers.Sound (ticket : Ticket) (answers : AdmissionAnswers) (amount : ℚ)
    (now : DateTime) (world : World) : Prop :=
  answers.surroundings.Foreign ticket.key ∧
    ¬ LosesAdmission (ticket.request answers amount now) answers.surroundings world

/-- What `State.admitted` changes: the world, the charges, and the two fields of the reservation. -/
theorem admitted_eq (ticket : Ticket) (state : State) (answers : AdmissionAnswers) (amount : ℚ)
    (now : DateTime) :
    ∃ world charged, world = (admitRequestBudget (ticket.request answers amount now)
        answers.surroundings state.world).2 ∧
      (charged = fun counter ↦ state.charged counter +
        admissionSpend (ticket.request answers amount now) answers.surroundings state.world
          counter) ∧
      (((Context.admitted (admitRequestBudget (ticket.request answers amount now)
          answers.surroundings state.world).1).budgetReserved = true ∧
        state.admitted ticket answers amount now = (true, { state with
          world := world
          charged := charged
          ctx := { state.ctx with budgetReserved := true, budgetReservedAt := some now } })) ∨
      ((Context.admitted (admitRequestBudget (ticket.request answers amount now)
          answers.surroundings state.world).1).budgetReserved = false ∧
        state.admitted ticket answers amount now =
          (false, { state with world := world, charged := charged }))) := by
  refine ⟨_, _, rfl, rfl, ?_⟩
  unfold State.admitted
  dsimp only
  split
  · rename_i budget hallowed
    rw [hallowed]
    exact .inl ⟨rfl, rfl⟩
  · rename_i decision hnot
    refine .inr ⟨?_, rfl⟩
    unfold Budget.RequestAdmission.Context.admitted
    split
    · rename_i budget hallowed
      exact absurd hallowed (hnot budget)
    · rfl

/-- Assumes: an open request with a route and a key and without a reservation, and a sound
admission. The request stays open, and is reserved exactly when it was admitted. -/
theorem Open.admitted (hopen : Open ticket state) (hreserved : state.ctx.budgetReserved = false)
    (hkeyed : state.ctx.route = true ∧ state.ctx.key = true) {answers : AdmissionAnswers}
    {amount : ℚ} {now : DateTime} (hsound : answers.Sound ticket amount now state.world) :
    Open ticket (state.admitted ticket answers amount now).2 := by
  have htracked := @tracked_admitRequestBudget (ticket.request answers amount now) state.world
    hopen.consistent (hopen.outstanding.mpr hreserved) answers.surroundings hsound.1
  obtain ⟨calls, hcalls⟩ := exists_run_admitRequestBudget (ticket.request answers amount now)
    answers.surroundings state.world
  have hepoch : EpochText (admitRequestBudget (ticket.request answers amount now)
      answers.surroundings state.world).2 := by
    rw [hcalls]
    exact run_invariant epochText_step calls _ hopen.epoch
  have hcharged : (fun counter ↦ state.charged counter +
      admissionSpend (ticket.request answers amount now) answers.surroundings state.world
        counter) = fun _ ↦ 0 := by
    funext counter
    rw [hopen.charged, admissionSpend_eq_zero hopen.consistent, add_zero]
  obtain ⟨world, charged, rfl, rfl, ⟨hallowed, hresult⟩ | ⟨hallowed, hresult⟩⟩ :=
    admitted_eq ticket state answers amount now
  · rw [hresult]
    exact {
      consistent := htracked.consistent
      epoch := hepoch
      recorded := hopen.recorded
      outstanding := iff_of_false (htracked.outstanding hallowed).1 (by simp)
      keyed := fun _ ↦ hkeyed
      events := hopen.events
      charged := hcharged }
  · rw [hresult]
    exact {
      consistent := htracked.consistent
      epoch := hepoch
      recorded := hopen.recorded
      outstanding := iff_of_true ((htracked.forgotten hallowed).mpr hsound.2) hreserved
      keyed := hopen.keyed
      events := hopen.events
      charged := hcharged }

/-! ### Settling -/

/-- Assumes: a consistent world, and a date that is that of the reservation if there is one and
today otherwise. The budget call at the end of a request adds the cost to the counters of the date,
closes the reservation, and leaves the other reservations as they are. -/
theorem Ticket.settle_spec (ticket : Ticket) {world : World} (hworld : Consistent world)
    (hepoch : EpochText world) {reserved : Bool} {now : DateTime} {date : Date}
    (hreserved : reserved = true →
      ∃ amount, world.ledger.lookup ticket.key = some ⟨amount, date⟩)
    (hdate : reserved = false → date = now.date) (cost : Option ℚ≥0) :
    Consistent (ticket.settle reserved cost now world) ∧
      EpochText (ticket.settle reserved cost now world) ∧
      (∀ counter, committedSpend (ticket.settle reserved cost now world) counter =
        committedSpend world counter +
          if Covers ticket.keyId date counter then ((cost.getD 0 : ℚ≥0) : ℚ) else 0) ∧
      (reserved = true → (ticket.settle reserved cost now world).ledger.lookup ticket.key = none) ∧
      (reserved = false → (ticket.settle reserved cost now world).ledger = world.ledger) ∧
      ∀ key, key ≠ ticket.key →
        (ticket.settle reserved cost now world).ledger.lookup key = world.ledger.lookup key := by
  have hconsistent := consistent_step _ (.arm ticket.replica ticket.candidate) hworld
  have hepoch' := epochText_step _ (.arm ticket.replica ticket.candidate) hepoch
  have harmed := armed_arm hepoch ticket.replica ticket.candidate
  cases reserved with
  | false =>
    obtain rfl := hdate rfl
    cases cost with
    | none =>
      refine ⟨hworld, hepoch, fun counter ↦ ?_, nofun, fun _ ↦ rfl, fun _ _ ↦ rfl⟩
      change committedSpend world counter = _
      simp
    | some cost =>
      refine ⟨consistent_step _ _ hconsistent, epochText_step _ _ hepoch', fun counter ↦ ?_,
        nofun, fun _ ↦ rfl, fun _ _ ↦ rfl⟩
      rw [← committedSpend_arm world ticket.replica ticket.candidate]
      exact committedSpend_addSpend hconsistent harmed ticket.keyId cost.cast_nonneg
        now.date counter
  | true =>
    obtain ⟨amount, hlookup⟩ := hreserved rfl
    have hfinalize : ticket.settle true cost now world =
        step (step world (.arm ticket.replica ticket.candidate)) (.finalize ticket.replica
          ticket.keyId ticket.reservationId ((cost.getD 0 : ℚ≥0) : ℚ) now.date) := by
      cases cost with
      | none => exact step_release _ _ _ _ _
      | some cost => rfl
    rw [hfinalize]
    refine ⟨consistent_step _ _ hconsistent, epochText_step _ _ hepoch', fun counter ↦ ?_,
      fun _ ↦ ?_, nofun, fun key hkey ↦ ?_⟩
    · rw [← committedSpend_arm world ticket.replica ticket.candidate]
      exact committedSpend_finalize hconsistent hlookup harmed (NNRat.cast_nonneg _)
        now.date counter
    · exact @lookup_step_finalize (ticket.closing now) _ hconsistent harmed _
        (NNRat.cast_nonneg _) _
    · have hforeign : Foreign key (.finalize ticket.replica ticket.keyId ticket.reservationId
          ((cost.getD 0 : ℚ≥0) : ℚ) now.date) := ⟨fun h ↦ h, fun h ↦ hkey (Eq.symm h)⟩
      exact lookup_step_of_foreign hforeign _

/-- The call at the end of a request leaves the rest of the request as it is. -/
theorem settled_eq (ticket : Ticket) (state : State) (fate : Fate) (cost : Option ℚ≥0)
    (now : DateTime) :
    ∃ world charged, state.settled ticket fate cost now =
      { state with world := world, charged := charged } :=
  ⟨_, _, rfl⟩

/-- Assumes: a command that is not lost. What the budget call at the end of a request does: it
leaves the rest of the request as it is, closes the reservation and adds the cost to the counters of
one date. -/
theorem Open.settled (hopen : Open ticket state) {fate : Fate} (hfate : fate ≠ .requestLost)
    (cost : Option ℚ≥0) (now : DateTime) :
    ∃ world charged date, state.settled ticket fate cost now =
        { state with world := world, charged := charged } ∧
      Consistent world ∧ EpochText world ∧ world.ledger.lookup ticket.key = none ∧
      ∀ counter, charged counter =
        if Covers ticket.keyId date counter then ((cost.getD 0 : ℚ≥0) : ℚ) else 0 := by
  have hdate : ∃ date, (state.ctx.budgetReserved = true →
      ∃ amount, state.world.ledger.lookup ticket.key = some ⟨amount, date⟩) ∧
      (state.ctx.budgetReserved = false → date = now.date) := by
    cases hlookup : state.world.ledger.lookup ticket.key with
    | none =>
      have hreserved := hopen.outstanding.mp hlookup
      exact ⟨now.date, fun h ↦ absurd h (by simp [hreserved]), fun _ ↦ rfl⟩
    | some admission =>
      refine ⟨admission.admittedAt, fun _ ↦ ⟨admission.amount, rfl⟩, fun hreserved ↦ ?_⟩
      rw [hopen.outstanding.mpr hreserved] at hlookup
      cases hlookup
  obtain ⟨date, hreserved, htoday⟩ := hdate
  obtain ⟨hconsistent, hepoch, hspend, hclosed, hsame, -⟩ :=
    ticket.settle_spec hopen.consistent hopen.epoch hreserved htoday cost
  unfold State.settled
  rw [Fate.outcome_eq hfate]
  refine ⟨_, _, date, rfl, hconsistent, hepoch, ?_, ?_⟩
  · cases hflag : state.ctx.budgetReserved with
    | false =>
      rw [hflag] at hsame
      rw [hsame rfl]
      exact hopen.outstanding.mpr hflag
    | true =>
      rw [hflag] at hclosed
      exact hclosed rfl
  · intro counter
    rw [hopen.charged, zero_add, hspend, add_sub_cancel_left]

/-- Assumes: a state at its end that is an open one with its account settled at a cost and one event
of that cost. Its account is closed. -/
theorem Open.closed_of_settled (hopen : Open ticket state) {fate : Fate}
    (hfate : fate ≠ .requestLost) (cost : Option ℚ≥0) (now : DateTime) {state' : State}
    (hworld : state'.world = (state.settled ticket fate cost now).world)
    (hcharged : state'.charged = (state.settled ticket fate cost now).charged)
    (createdAt : DateTime)
    (hevents : state'.events = (state.settled ticket fate cost now).events ++ [⟨cost, createdAt⟩])
    (hrecorded : state'.ctx.terminalUsageRecorded = true)
    (hended : state'.phase = .ended ∨ state'.phase = .logged) : Closed ticket state' := by
  obtain ⟨world, charged, date, hsettled, hconsistent, hepoch, habsent, hadded⟩ :=
    hopen.settled hfate cost now
  rw [hsettled] at hworld hcharged hevents
  change state'.events = state.events ++ [⟨cost, createdAt⟩] at hevents
  rw [hopen.events, List.nil_append] at hevents
  refine {
    consistent := hworld ▸ hconsistent
    epoch := hworld ▸ hepoch
    absent := hworld ▸ habsent
    recorded := fun _ ↦ hrecorded
    ended := hended
    once := ⟨by rw [hevents]; exact le_refl 1, date, ?_⟩ }
  intro counter
  rw [hcharged, State.recordedCost, hevents, List.map_singleton, List.sum_singleton]
  exact hadded counter

theorem Open.accounted_denied (hopen : Open ticket state) {release : Fate}
    (hrelease : release ≠ .requestLost) (now : DateTime) :
    Accounted ticket (state.denied ticket release now) := by
  right
  unfold State.denied State.recordTerminalUsage
  rw [if_neg (by rw [hopen.recorded]; simp)]
  exact hopen.closed_of_settled hrelease none now rfl rfl now rfl rfl (.inl rfl)

/-- `logging` closes the account. -/
theorem Open.closed_logging (hopen : Open ticket state) (eventAt settledAt : DateTime) {fate : Fate}
    (hfate : fate ≠ .requestLost) :
    Closed ticket (logging ticket eventAt settledAt fate state) := by
  unfold logging
  split_ifs with hskipped
  · have hreserved : state.ctx.budgetReserved = false := by
      rw [hopen.recorded, Bool.or_false, Bool.or_eq_true, Bool.not_eq_true', Bool.not_eq_true']
        at hskipped
      by_contra hreserved
      obtain ⟨hroute, hkey⟩ := hopen.keyed (Bool.not_eq_false _ ▸ hreserved)
      rw [hroute, hkey] at hskipped
      simp at hskipped
    exact {
      consistent := hopen.consistent
      epoch := hopen.epoch
      absent := hopen.outstanding.mpr hreserved
      recorded := fun hphase ↦ absurd rfl hphase
      ended := .inr rfl
      once := hopen.chargedOnce }
  · exact hopen.closed_of_settled hfate state.ctx.estimatedCost settledAt rfl rfl _ rfl rfl
      (.inr rfl)

/-! ### The callbacks -/

/-- The amount that `proxy_upstream_filter` asks for: a socket reserves nothing. -/
def UpstreamFilterAnswers.amount (answers : UpstreamFilterAnswers) (ctx : Context) : ℚ :=
  if ctx.socket && !ctx.accessa then 0 else (answers.priced ctx).amount

/-- Other requests leave the reservation alone, the admission of an event is sound, and the call
that settles the account is not lost. -/
def Event.Sound (ticket : Ticket) (state : State) : Event → Prop
  | .other call => Foreign ticket.key call
  | .proxyUpstreamFilter answers =>
    answers.admission.Sound ticket (answers.amount state.ctx) answers.now state.world ∧
      answers.release ≠ .requestLost
  | .admitCompleteBody answers =>
    answers.admission.Sound ticket state.ctx.amount answers.now state.world
  | .logging _ _ fate => fate ≠ .requestLost
  | _ => True

/-- A pricing stage leaves the route, the key and the reservation alone. -/
theorem UpstreamFilterAnswers.priced_eq (answers : UpstreamFilterAnswers) (ctx : Context) :
    ∃ routeMatch serviceCost, answers.priced ctx = { ctx with
      routeMatch := routeMatch, serviceCost := serviceCost, bodyEmpty := answers.bodyEmpty } := by
  obtain ⟨routeMatch, serviceCost, hprepared⟩ := ctx.priced_eq answers.prepared
  unfold UpstreamFilterAnswers.priced
  dsimp only
  split_ifs
  · obtain ⟨routeMatch', serviceCost', hresolved⟩ :=
      (ctx.priced answers.prepared).priced_eq answers.resolved
    rw [hresolved, hprepared]
    exact ⟨_, _, rfl⟩
  · rw [hprepared]
    exact ⟨_, _, rfl⟩

/-- What an admission leaves of a request apart from its reservation. -/
theorem admitted_ctx (ticket : Ticket) (state : State) (answers : AdmissionAnswers) (amount : ℚ)
    (now : DateTime) :
    ∃ world charged reserved reservedAt, (state.admitted ticket answers amount now).2 =
      { state with
        world := world
        charged := charged
        ctx := { state.ctx with budgetReserved := reserved, budgetReservedAt := reservedAt } } := by
  obtain ⟨world, charged, -, -, ⟨-, hresult⟩ | ⟨-, hresult⟩⟩ :=
    admitted_eq ticket state answers amount now
  · exact ⟨_, _, _, _, by rw [hresult]⟩
  · exact ⟨_, _, state.ctx.budgetReserved, state.ctx.budgetReservedAt, by rw [hresult]⟩

theorem admitted_route (ticket : Ticket) (state : State) (answers : AdmissionAnswers) (amount : ℚ)
    (now : DateTime) :
    (state.admitted ticket answers amount now).2.ctx.route = state.ctx.route := by
  obtain ⟨world, charged, reserved, reservedAt, hresult⟩ :=
    admitted_ctx ticket state answers amount now
  rw [hresult]

theorem Open.accounted_admitWebsocket (hopen : Open ticket state)
    (hreserved : state.ctx.budgetReserved = false) (hroute : state.ctx.route = true)
    {answers : UpstreamFilterAnswers}
    (hsound : answers.admission.Sound ticket 0 answers.now state.world) :
    Accounted ticket (admitWebsocket ticket answers state) := by
  unfold admitWebsocket
  split_ifs with hchecks hdirect hcapacity hkey
  · exact hopen.accounted_answered
  · exact hopen.accounted_onward hroute (by decide)
  · exact hopen.accounted_answered
  · exact hopen.accounted_answered
  · have hadmitted := hopen.admitted hreserved ⟨hroute, by simpa using hkey⟩ hsound
    dsimp only
    split_ifs
    · exact hadmitted.accounted_onward ((admitted_route ..).trans hroute) (by decide)
    · exact hadmitted.accounted_answered

theorem Open.accounted_admitGoverned (hopen : Open ticket state)
    (hreserved : state.ctx.budgetReserved = false) (hroute : state.ctx.route = true)
    (hkey : state.ctx.key = true) {answers : UpstreamFilterAnswers}
    (hsound : answers.admission.Sound ticket state.ctx.amount answers.now state.world)
    (hrelease : answers.release ≠ .requestLost) :
    Accounted ticket (admitGoverned ticket answers state) := by
  have hadmitted := hopen.admitted hreserved ⟨hroute, hkey⟩ hsound
  have hadmittedRoute := (admitted_route ticket state answers.admission state.ctx.amount
    answers.now).trans hroute
  unfold admitGoverned
  dsimp only
  split_ifs
  · exact hadmitted.accounted_denied hrelease answers.now
  · exact hadmitted.accounted_onward hadmittedRoute (by decide)
  · exact hadmitted.accounted_denied hrelease answers.now
  · exact hopen.accounted_denied hrelease answers.now
  · exact hopen.accounted_onward hroute (by decide)
  · exact hopen.accounted_denied hrelease answers.now

theorem Open.accounted_admitKeyed (hopen : Open ticket state)
    (hreserved : state.ctx.budgetReserved = false) (hroute : state.ctx.route = true)
    (hkey : state.ctx.key = true) {answers : UpstreamFilterAnswers}
    (hsound : answers.admission.Sound ticket state.ctx.amount answers.now state.world)
    (hrelease : answers.release ≠ .requestLost) :
    Accounted ticket (admitKeyed ticket answers state) := by
  unfold admitKeyed
  split_ifs
  · exact hopen.accounted_denied hrelease answers.now
  · exact hopen.accounted_onward hroute (by decide)
  · exact hopen.accounted_denied hrelease answers.now
  · apply Open.accounted_admitGoverned
    · exact hopen.congr rfl rfl rfl rfl rfl rfl rfl
    · exact hreserved
    · exact hroute
    · exact hkey
    · exact hsound
    · exact hrelease
  · exact hopen.accounted_denied hrelease answers.now

/-- What `proxy_upstream_filter` can do: end a request, for one of five reasons, or deny it, or let
it go on, or hand it to the admission of a socket or to that of a key. -/
theorem proxyUpstreamFilter_cases (ticket : Ticket) (answers : UpstreamFilterAnswers)
    (state : State) :
    (proxyUpstreamFilter ticket answers state = state.answered ∧
      (state.ctx.routeMatch.isNone = true ∨ answers.upstream = false ∨
        state.ctx.passthrough = .direct ∨ state.ctx.key = false ∨ state.ctx.accessa = true)) ∨
    proxyUpstreamFilter ticket answers state =
      state.denied ticket answers.release answers.now ∨
    proxyUpstreamFilter ticket answers state = state.onward .upstreamPeer ∨
    (proxyUpstreamFilter ticket answers state = admitWebsocket ticket answers state ∧
      (state.ctx.socket && !state.ctx.accessa) = true) ∨
    (proxyUpstreamFilter ticket answers state =
        admitKeyed ticket answers { state with ctx := answers.priced state.ctx } ∧
      (state.ctx.socket && !state.ctx.accessa) = false ∧ state.ctx.key = true) := by
  unfold proxyUpstreamFilter
  by_cases hmatch : state.ctx.routeMatch.isNone = true
  · exact .inl ⟨if_pos hmatch, .inl hmatch⟩
  rw [if_neg hmatch]
  by_cases hupstream : answers.upstream = false
  · exact .inl ⟨if_pos (by rw [hupstream]; rfl), .inr (.inl hupstream)⟩
  rw [if_neg (by simpa using hupstream)]
  by_cases hsocket : (state.ctx.socket && !state.ctx.accessa) = true
  · exact .inr (.inr (.inr (.inl ⟨if_pos hsocket, hsocket⟩)))
  rw [if_neg hsocket]
  by_cases htrusted : state.ctx.passthrough = .trustedIngress
  · exact .inr (.inr (.inl (if_pos htrusted)))
  rw [if_neg htrusted]
  by_cases hdirect : state.ctx.passthrough = .direct
  · rw [if_pos hdirect]
    by_cases hcanonical : answers.canonicalRoute = true
    · exact .inr (.inr (.inl (if_pos hcanonical)))
    · exact .inl ⟨if_neg hcanonical, .inr (.inr (.inl hdirect))⟩
  rw [if_neg hdirect]
  by_cases hkey : state.ctx.key = true
  swap
  · rw [Bool.not_eq_true] at hkey
    exact .inl ⟨if_pos (by rw [hkey]; rfl), .inr (.inr (.inr (.inl hkey)))⟩
  rw [if_neg (by rw [hkey]; exact Bool.false_ne_true)]
  by_cases herror : state.ctx.guardrailError = true
  · exact .inr (.inl (if_pos herror))
  rw [if_neg herror]
  by_cases haccessa : state.ctx.accessa = true
  · rw [if_pos haccessa]
    by_cases hadmission : answers.accessaAdmission = true
    · exact .inr (.inr (.inl (if_pos hadmission)))
    · exact .inl ⟨if_neg hadmission, .inr (.inr (.inr (.inr haccessa)))⟩
  · exact .inr (.inr (.inr (.inr ⟨if_neg haccessa, (Bool.not_eq_true _).mp hsocket, hkey⟩)))

theorem Open.accounted_proxyUpstreamFilter (hopen : Open ticket state)
    (hreserved : state.ctx.budgetReserved = false) (hroute : state.ctx.route = true)
    {answers : UpstreamFilterAnswers}
    (hsound : answers.admission.Sound ticket (answers.amount state.ctx) answers.now state.world)
    (hrelease : answers.release ≠ .requestLost) :
    Accounted ticket (proxyUpstreamFilter ticket answers state) := by
  unfold UpstreamFilterAnswers.amount at hsound
  rcases proxyUpstreamFilter_cases ticket answers state with ⟨hfinal, -⟩ | hfinal | hfinal |
    ⟨hfinal, hsocket⟩ | ⟨hfinal, hsocket, hkey⟩
  · rw [hfinal]
    exact hopen.accounted_answered
  · rw [hfinal]
    exact hopen.accounted_denied hrelease answers.now
  · rw [hfinal]
    exact hopen.accounted_onward hroute (by decide)
  · rw [if_pos hsocket] at hsound
    rw [hfinal]
    exact hopen.accounted_admitWebsocket hreserved hroute hsound
  · rw [if_neg (by rw [hsocket]; exact Bool.false_ne_true)] at hsound
    obtain ⟨routeMatch, serviceCost, hpriced⟩ := answers.priced_eq state.ctx
    rw [hpriced] at hsound hfinal
    rw [hfinal]
    apply Open.accounted_admitKeyed
    · exact hopen.congr rfl rfl rfl rfl rfl rfl rfl
    · exact hreserved
    · exact hroute
    · exact hkey
    · exact hsound
    · exact hrelease

theorem Open.accounted_failed (hopen : Open ticket state) (hroute : state.ctx.route = true)
    (error : PingoraError) : Accounted ticket (state.onward (.failed error)) :=
  hopen.accounted_onward hroute ⟨nofun, nofun, nofun, nofun⟩

theorem Open.accounted_upstreamPeer (hopen : Open ticket state) (hroute : state.ctx.route = true)
    (slot : Option Bool) (resolution : Resolution) :
    Accounted ticket (upstreamPeer slot resolution state) := by
  unfold upstreamPeer
  dsimp only
  generalize (state.ctx.upstreamLease || slot.isSome) = lease
  have hleased : Open ticket { state with ctx := { state.ctx with upstreamLease := lease } } :=
    hopen.congr rfl rfl rfl rfl rfl rfl rfl
  split_ifs
  · exact hopen.accounted_refused
  · cases resolution with
    | resolved => exact hleased.accounted_onward hroute (by decide)
    | failed => exact hleased.accounted_failed hroute _
    | timeout => exact hleased.accounted_failed hroute _

theorem Open.accounted_connect (hopen : Open ticket state) (hroute : state.ctx.route = true)
    (failure : Option ErrorType) : Accounted ticket (connect failure state) := by
  cases failure with
  | none => exact hopen.accounted_onward hroute (by decide)
  | some etype => exact hopen.accounted_failed hroute _

theorem Open.accounted_failToProxy (hopen : Open ticket state) (error : PingoraError)
    (responseWritten : Bool) : Accounted ticket (failToProxy error responseWritten state) := by
  unfold failToProxy
  split_ifs
  · exact hopen.accounted_answered
  · exact hopen.accounted_ended
  · exact hopen.accounted_answered
  · exact hopen.accounted_answered
  · exact hopen.accounted_ended

theorem Open.accounted_responseFilter (hopen : Open ticket state) (hroute : state.ctx.route = true)
    (hserving : state.phase.Serving) (cost : Option ℚ≥0) (verdict : ResponseVerdict) :
    Accounted ticket (responseFilter cost verdict state) := by
  have hseen : Open ticket { state with ctx := { state.ctx with responseCost := cost } } :=
    hopen.congr rfl rfl rfl rfl rfl rfl rfl
  cases verdict with
  | accepted => exact .inl (hseen.running hroute hserving)
  | blocked =>
    unfold responseFilter
    dsimp only
    split_ifs
    · refine .inl (Open.running ?_ hroute hserving)
      exact hopen.congr rfl rfl rfl rfl rfl rfl rfl
    · exact .inl (hseen.running hroute hserving)
  | refused => exact hseen.accounted_refused

theorem Open.accounted_completeBody (hopen : Open ticket state) (hroute : state.ctx.route = true)
    (answers : BodyAnswers) : Accounted ticket (completeBody answers state) := by
  obtain ⟨routeMatch, serviceCost, hpriced⟩ := state.ctx.priced_eq answers.resolved
  unfold completeBody
  rw [hpriced]
  have hopen' : Open ticket { state with ctx := { state.ctx with
      routeMatch := routeMatch, serviceCost := serviceCost } } :=
    hopen.congr rfl rfl rfl rfl rfl rfl rfl
  dsimp only
  split_ifs
  · exact hopen'.accounted_refused
  · exact hopen'.accounted_onward hroute (by decide)
  · exact hopen'.accounted_onward hroute (by decide)

theorem Open.accounted_requestBodyFilter (hopen : Open ticket state)
    (hroute : state.ctx.route = true) (hphase : state.phase = .requestBody)
    (answers : BodyAnswers) : Accounted ticket (requestBodyFilter answers state) := by
  have hserving : state.phase.Serving := by rw [hphase]; decide
  unfold requestBodyFilter
  dsimp only
  generalize (if state.ctx.bodyEmpty = true then 0 else answers.chunk) = chunk
  have hseen : Open ticket { state with ctx := { state.ctx with
      bodyBytesSeen := state.ctx.bodyBytesSeen + chunk } } :=
    hopen.congr rfl rfl rfl rfl rfl rfl rfl
  split_ifs
  · refine .inl (Open.running ?_ hroute hserving)
    exact hopen.congr rfl rfl rfl rfl rfl rfl rfl
  · exact hopen.accounted_failed hroute _
  · exact hopen.accounted_failed hroute _
  · exact hseen.accounted_refused
  · refine .inl (Open.running ?_ hroute hserving)
    exact hseen.congr rfl rfl rfl rfl rfl rfl rfl
  · exact hseen.accounted_refused
  · exact .inl (hseen.running hroute hserving)
  · exact hseen.accounted_completeBody hroute answers

theorem Open.accounted_admitCompleteBody (hopen : Open ticket state)
    (hroute : state.ctx.route = true) {answers : CompleteBodyAnswers}
    (hsound : answers.admission.Sound ticket state.ctx.amount answers.now state.world) :
    Accounted ticket (admitCompleteBody ticket answers state) := by
  unfold admitCompleteBody
  split_ifs with hrejected hreserved hrates
  · exact hopen.accounted_refused
  · apply Open.accounted_onward
    · exact hopen.congr rfl rfl rfl rfl rfl rfl rfl
    · exact hroute
    · decide
  · exact hopen.accounted_refused
  · rw [Bool.or_eq_true, not_or, Bool.not_eq_true', Bool.not_eq_false] at hrejected
    have hadmitted := hopen.admitted (Bool.eq_false_iff.mpr hreserved) ⟨hroute, hrejected.1⟩ hsound
    dsimp only
    split_ifs
    · apply Open.accounted_onward
      · exact hadmitted.congr rfl rfl rfl rfl rfl rfl rfl
      · exact (admitted_route ..).trans hroute
      · decide
    · exact hadmitted.accounted_refused

theorem Running.accounted_other (hrunning : Running ticket state) {call : Call}
    (hforeign : Foreign ticket.key call) :
    Accounted ticket { state with world := step state.world call } := by
  left
  exact {
    consistent := consistent_step _ _ hrunning.consistent
    epoch := epochText_step _ _ hrunning.epoch
    recorded := hrunning.recorded
    outstanding := by
      rw [lookup_step_of_foreign hforeign]
      exact hrunning.outstanding
    keyed := hrunning.keyed
    events := hrunning.events
    charged := hrunning.charged
    unlogged := hrunning.unlogged
    unreserved := hrunning.unreserved
    routed := hrunning.routed }

theorem Closed.other (hclosed : Closed ticket state) {call : Call}
    (hforeign : Foreign ticket.key call) :
    Closed ticket { state with world := step state.world call } where
  consistent := consistent_step _ _ hclosed.consistent
  epoch := epochText_step _ _ hclosed.epoch
  absent := (lookup_step_of_foreign hforeign _).trans hclosed.absent
  recorded := hclosed.recorded
  ended := hclosed.ended
  once := hclosed.once

/-- `request_filter` finds the route and the key. -/
theorem Running.accounted_requestFilter (hrunning : Running ticket state)
    (hphase : state.phase = .requestFilter) (outcome : FilterOutcome) :
    Accounted ticket (requestFilter state outcome) := by
  have hreserved := hrunning.unreserved (.inl hphase)
  have hopen : ∀ state' : State, state'.world = state.world → state'.events = state.events →
      state'.charged = state.charged →
      state'.ctx.terminalUsageRecorded = state.ctx.terminalUsageRecorded →
      state'.ctx.budgetReserved = state.ctx.budgetReserved → Open ticket state' := by
    intro state' hworld hevents hcharged hrecorded hsame
    exact {
      consistent := hworld ▸ hrunning.consistent
      epoch := hworld ▸ hrunning.epoch
      recorded := hrecorded.trans hrunning.recorded
      outstanding := by rw [hworld, hsame]; exact hrunning.outstanding
      keyed := by rw [hsame, hreserved]; exact fun h ↦ absurd h (by simp)
      events := hevents.trans hrunning.events
      charged := hcharged.trans hrunning.charged }
  cases outcome with
  | rejected route key =>
    apply Open.accounted_answered
    exact hopen _ rfl rfl rfl rfl rfl
  | accepted matched key socket accessa passthrough foundry =>
    left
    exact {
      toOpen := hopen _ rfl rfl rfl rfl rfl
      unlogged := by simp [requestFilter, State.onward]
      unreserved := fun _ ↦ hreserved
      routed := fun _ _ ↦ rfl }

/-- Nothing but the budget calls of other requests happens to a request whose usage is recorded,
except that it is logged. -/
theorem Closed.advance_eq (hclosed : Closed ticket state) {event : Event}
    (hother : ∀ call, event ≠ .other call) :
    Proxy.advance ticket state event = state ∨
      Proxy.advance ticket state event = state.onward .logged := by
  cases event with
  | other call => exact absurd rfl (hother call)
  | logging eventAt settledAt fate =>
    rw [Proxy.advance]
    split_ifs with hphase
    · have hrecorded := hclosed.recorded (by rw [hphase]; simp)
      rw [logging, if_pos (by rw [hrecorded, Bool.or_true])]
      exact .inr rfl
    · exact .inl rfl
  | retry | failToProxy _ =>
    refine .inl ?_
    rw [Proxy.advance]
    rcases hclosed.ended with h | h <;> rw [h]
  | requestFilter _ | proxyUpstreamFilter _ | upstreamPeer _ _ | connect _ | requestBodyFilter _
  | admitCompleteBody _ | bindRequestBodyAdmission _ | responseFilter _ _ | errorWhileProxy _
  | finish =>
    refine .inl ?_
    rw [Proxy.advance, if_neg (by rcases hclosed.ended with h | h <;> simp [h])]

/-- A closed account takes no callback but `logging`, which leaves it as it is. -/
theorem Closed.advance (hclosed : Closed ticket state) {event : Event}
    (hsound : event.Sound ticket state) : Closed ticket (advance ticket state event) := by
  by_cases hother : ∃ call, event = .other call
  · obtain ⟨call, rfl⟩ := hother
    exact hclosed.other hsound
  · rcases hclosed.advance_eq (not_exists.mp hother) with hsame | hlogged
    · rw [hsame]
      exact hclosed
    · rw [hlogged]
      exact ⟨hclosed.consistent, hclosed.epoch, hclosed.absent, fun hnot ↦ absurd rfl hnot,
        .inr rfl, hclosed.once⟩

/-- One callback of a request whose account is open. -/
theorem Running.accounted_advance (hrunning : Running ticket state) {event : Event}
    (hsound : event.Sound ticket state) : Accounted ticket (advance ticket state event) := by
  have hroute : ∀ phase, state.phase = phase → phase.Serving → state.ctx.route = true := by
    rintro phase rfl hserving
    exact hrunning.routed hserving.1 hserving.2.2.1
  have hopen := hrunning.toOpen
  cases event with
  | other call => exact hrunning.accounted_other hsound
  | requestFilter outcome =>
    rw [advance]
    split_ifs with hphase
    · exact hrunning.accounted_requestFilter hphase outcome
    · exact .inl hrunning
  | proxyUpstreamFilter answers =>
    rw [advance]
    split_ifs with hphase
    · exact hopen.accounted_proxyUpstreamFilter (hrunning.unreserved (.inr hphase))
        (hrunning.routed (by simp [hphase]) (by simp [hphase])) hsound.1 hsound.2
    · exact .inl hrunning
  | upstreamPeer slot resolution =>
    rw [advance]
    split_ifs with hphase
    · exact hopen.accounted_upstreamPeer (hroute _ hphase (by decide)) slot resolution
    · exact .inl hrunning
  | connect failure =>
    rw [advance]
    split_ifs with hphase
    · exact hopen.accounted_connect (hroute _ hphase (by decide)) failure
    · exact .inl hrunning
  | requestBodyFilter answers =>
    rw [advance]
    split_ifs with hphase
    · exact hopen.accounted_requestBodyFilter (hroute _ hphase (by decide)) hphase answers
    · exact .inl hrunning
  | admitCompleteBody answers =>
    rw [advance]
    split_ifs with hphase
    · exact hopen.accounted_admitCompleteBody (hroute _ hphase (by decide)) hsound
    · exact .inl hrunning
  | bindRequestBodyAdmission converted =>
    rw [advance]
    split_ifs with hphase
    · rw [bindRequestBodyAdmission]
      split_ifs
      · apply Open.accounted_onward
        · exact hopen.congr rfl rfl rfl rfl rfl rfl rfl
        · exact hroute _ hphase (by decide)
        · decide
      · exact hopen.accounted_refused
    · exact .inl hrunning
  | responseFilter cost verdict =>
    rw [advance]
    split_ifs with hphase
    · exact hopen.accounted_responseFilter (hroute _ hphase (by decide)) (by rw [hphase]; decide)
        cost verdict
    · exact .inl hrunning
  | errorWhileProxy error =>
    rw [advance]
    split_ifs with hphase
    · exact hopen.accounted_failed (hroute _ hphase (by decide)) error
    · exact .inl hrunning
  | retry =>
    rw [advance]
    split
    · rename_i error hphase
      split_ifs
      · exact .inl hrunning
      · exact hopen.accounted_onward (hroute _ hphase ⟨nofun, nofun, nofun, nofun⟩) (by decide)
    · exact .inl hrunning
  | failToProxy responseWritten =>
    rw [advance]
    split
    · exact hopen.accounted_failToProxy _ responseWritten
    · exact .inl hrunning
  | finish =>
    rw [advance]
    split_ifs with hphase
    · exact hopen.accounted_ended
    · exact .inl hrunning
  | logging eventAt settledAt fate =>
    rw [advance]
    split_ifs with hphase
    · exact .inr (hopen.closed_logging eventAt settledAt hsound)
    · exact .inl hrunning

/-- One event keeps the account. -/
theorem accounted_advance (state : State) (event : Event) (hsound : event.Sound ticket state)
    (haccounted : Accounted ticket state) : Accounted ticket (advance ticket state event) := by
  rcases haccounted with hrunning | hclosed
  · exact hrunning.accounted_advance hsound
  · exact .inr (hclosed.advance hsound)

/-! ### Runs -/

/-- Assumes: a reachable store without the reservation of a request. The request starts with an open
account. -/
theorem accounted_new {calls : List Call}
    (hfresh : (run step World.initial calls).gateway.store
      (.reservation ticket.keyId ticket.reservationId) = none) :
    Accounted ticket (State.new (run step World.initial calls)) := by
  have hconsistent := consistent_run calls
  have hrecord := hconsistent.record ticket.keyId ticket.reservationId
  rw [hfresh] at hrecord
  left
  exact {
    consistent := hconsistent
    epoch := epochText_run calls
    recorded := rfl
    outstanding := iff_of_true (Option.map_eq_none_iff.mp hrecord.symm) rfl
    keyed := fun hreserved ↦ absurd hreserved (by simp [State.new, Context.new])
    events := rfl
    charged := rfl
    unlogged := by simp [State.new]
    unreserved := fun _ ↦ rfl
    routed := fun hphase ↦ absurd rfl hphase }

/-- A logged request has no reservation left. -/
theorem Accounted.absent_of_logged (haccounted : Accounted ticket state)
    (hlogged : state.phase = .logged) :
    state.world.gateway.store (.reservation ticket.keyId ticket.reservationId) = none := by
  rcases haccounted with hrunning | hclosed
  · exact absurd hlogged hrunning.unlogged
  · rw [hclosed.consistent.record]
    exact Option.map_eq_none_iff.mpr hclosed.absent

/-- No reply of an admission is lost, and other requests leave the reservation alone. -/
def AdmissionAnswers.FaultFree (ticket : Ticket) (answers : AdmissionAnswers) : Prop :=
  answers.surroundings.Foreign ticket.key ∧ answers.surroundings.first.fate ≠ .replyLost ∧
    answers.surroundings.retry.fate ≠ .replyLost

/-- The store answers the event without fault, and other requests leave the reservation alone. -/
def Event.FaultFree (ticket : Ticket) : Event → Prop
  | .other call => Foreign ticket.key call
  | .proxyUpstreamFilter answers =>
    answers.admission.FaultFree ticket ∧ answers.release ≠ .requestLost
  | .admitCompleteBody answers => answers.admission.FaultFree ticket
  | .logging _ _ fate => fate ≠ .requestLost
  | _ => True

theorem AdmissionAnswers.FaultFree.sound {answers : AdmissionAnswers}
    (hfree : answers.FaultFree ticket) (amount : ℚ) (now : DateTime) (world : World) :
    answers.Sound ticket amount now world := by
  refine ⟨hfree.1, ?_⟩
  rintro (⟨hfate, -⟩ | ⟨-, -, hfate, -⟩)
  · exact hfree.2.1 hfate
  · exact hfree.2.2 hfate

theorem Event.FaultFree.sound {event : Event} (hfree : event.FaultFree ticket) (state : State) :
    event.Sound ticket state := by
  cases event with
  | other call => exact hfree
  | proxyUpstreamFilter answers => exact ⟨hfree.1.sound _ _ _, hfree.2⟩
  | admitCompleteBody answers => exact AdmissionAnswers.FaultFree.sound hfree _ _ _
  | logging _ _ fate => exact hfree
  | requestFilter _ | upstreamPeer _ _ | connect _ | requestBodyFilter _
  | bindRequestBodyAdmission _ | responseFilter _ _ | errorWhileProxy _ | retry | failToProxy _
  | finish => trivial

/-- Usage is accounted once. Assumes: a reachable store without the reservation of the request, and
fault-free answers of the store. After any events of the request it has inserted at most one usage
event, and has added the cost of its events to the daily and the monthly committed counter of one
date and nothing to any other counter; and once it is logged the store holds no reservation of it.
-/
theorem usage_accounted_once {ticket : Ticket} {calls : List Call}
    (hfresh : (run step World.initial calls).gateway.store
      (.reservation ticket.keyId ticket.reservationId) = none)
    {events : List Event} (hevents : ∀ event ∈ events, event.FaultFree ticket) :
    let final := run (advance ticket) (State.new (run step World.initial calls)) events
    final.events.length ≤ 1 ∧
      (∃ date, ∀ counter, final.charged counter =
        if Covers ticket.keyId date counter then final.recordedCost else 0) ∧
      (final.phase = .logged →
        final.world.gateway.store (.reservation ticket.keyId ticket.reservationId) = none) := by
  have hguarded : Guarded (advance ticket) (fun state event ↦ event.Sound ticket state)
      (State.new (run step World.initial calls)) events :=
    guarded_of_forall events (fun event hevent state ↦ (hevents event hevent).sound state) _
  have haccounted := run_guarded_invariant accounted_advance events _ hguarded
    (accounted_new hfresh)
  exact ⟨haccounted.chargedOnce.1, haccounted.chargedOnce.2, haccounted.absent_of_logged⟩

/-- An admission without limits that meets no other request and no fault. -/
def AdmissionAnswers.quiet : AdmissionAnswers where
  dailyLimit := none
  monthlyLimit := none
  surroundings := ⟨⟨[], .delivered⟩, some ⟨0, 0⟩, ⟨[], .delivered⟩, ⟨[], .delivered⟩⟩

/-- The answers to a request without a body that passes every check, at a fixed price. -/
def UpstreamFilterAnswers.allowing (amount : ℚ≥0) (now : DateTime) : UpstreamFilterAnswers where
  upstream := true
  socketChecks := true
  socketCapacity := true
  accessaAdmission := true
  canonicalRoute := true
  delegated := false
  outputTokenLimit := true
  prepared := ⟨.fixed (some amount), some amount⟩
  resolved := ⟨.fixed (some amount), some amount⟩
  bodyEmpty := true
  canStream := false
  checks := fun _ ↦ true
  admission := .quiet
  foundryToken := true
  release := .delivered
  now := now

/-- A request to a service at the price of `3` that is reserved before midnight and logged after it:
the event costs `3`, and so much is added to the counters of the day of the reservation. -/
theorem usage_accounted_once_service :
    let final := run (advance ⟨0, "epoch", 7, "request"⟩)
      (State.new (run step World.initial [.arm 0 "epoch", .seed 0 7 0 0 ⟨2026, 1, 31⟩]))
      [.requestFilter (.accepted ⟨.internalService, none⟩ true false false .none false),
        .proxyUpstreamFilter (.allowing 3 ⟨⟨2026, 1, 31⟩, 0⟩), .upstreamPeer (some true) .resolved,
        .connect none, .requestBodyFilter ⟨0, true, true, true, true, ⟨.free, none⟩, true, false⟩,
        .finish, .logging ⟨⟨2026, 2, 1⟩, 0⟩ ⟨⟨2026, 2, 1⟩, 0⟩ .delivered]
    (final.phase = .logged ∧ final.recordedCost = 3 ∧ final.charged (.daily 7 2026 1 31) = 3 ∧
      final.charged (.daily 7 2026 2 1) = 0) ∧
      final.events.length ≤ 1 ∧
      (∃ date, ∀ counter, final.charged counter =
        if Covers 7 date counter then final.recordedCost else 0) ∧
      (final.phase = .logged → final.world.gateway.store (.reservation 7 "request") = none) := by
  refine ⟨by decide +kernel, @usage_accounted_once ⟨0, "epoch", 7, "request"⟩
    [.arm 0 "epoch", .seed 0 7 0 0 ⟨2026, 1, 31⟩] (by decide) _ ?_⟩
  simp [Event.FaultFree, AdmissionAnswers.FaultFree, UpstreamFilterAnswers.allowing,
    AdmissionAnswers.quiet, Surroundings.Foreign]

end Relayna.Proxy

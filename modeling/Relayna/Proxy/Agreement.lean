import Relayna.Library.KeyedSum
import Relayna.Library.Table
import Relayna.Proxy.Accounting

/-!
# The committed counters and the usage events

The spend of a virtual key is kept twice: Redis counts it by day and month, and the usage events in
Postgres carry it with their `created_at`. `committed_budget_spend` of
`crates/gateway-store/src/postgres.rs` sums the events to seed Redis, so the two must agree.

Any number of requests of one key take their steps in any order: `admit_request_budget` is its
commands and its read of the ledger, `logging` makes the event, settles the budget and inserts the
event, and `record_terminal_usage` inserts its event and releases the reservation
(`run_admitRequestBudget`, `run_logging` and `run_recordTerminalUsage` compare the steps with
these). The clock is read when a request is admitted, when an event is made and when it is settled,
and never goes back.

Until an event is inserted its cost is in Redis alone, so a counter is the sum of the events of its
window and of those that are settled but not inserted (`Agrees`), and no seed is above it. Two
things break this. The spend of a request without a reservation is added at another reading of the
clock than its event is dated by (`charge_across_midnight`); and the read of the ledger has no upper
bound, so that a request that is admitted in one window and reads the ledger in the next seeds the
counter of the first with the events of the second (`seed_across_midnight`). `ledgers_agree` shows
that the ledgers agree in every run without these two.
-/

set_option autoImplicit false
set_option relaxedAutoImplicit false

namespace Relayna.Proxy.Agreement

open Library.KeyedSum Library.Table Library.Transition
open Relayna.Budget Relayna.Budget.Scripts Relayna.Budget.Reservations
open Relayna.Budget.RequestAdmission (decisionOf Foreign lookup_step_of_foreign)
open Relayna.Budget.Settlement
open Relayna.Usage (DateTime dayStart monthStart)

/-! ### The durable ledger -/

/-- The sum of `committed_budget_spend` over the events it selects. -/
def sumSpend (rows : List UsageRecord) (selects : DateTime → Bool) : ℚ :=
  ((rows.filter fun row ↦ selects row.createdAt && decide (0 < row.cost)).map UsageRecord.cost).sum

/-- `committed_budget_spend` over the events of one virtual key: those since the start of the day,
and those since the start of the month. -/
def committedBudgetSpend (rows : List UsageRecord) (now : DateTime) : BudgetState where
  dailySpendUsd := sumSpend rows fun createdAt ↦
    decide (monthStart now ≤ createdAt) && decide (dayStart now ≤ createdAt)
  monthlySpendUsd := sumSpend rows fun createdAt ↦ decide (monthStart now ≤ createdAt)

/-- What an event contributes to a counter: its cost if it was created in the day or the month of
the counter. -/
def charge (keyId : Uuid) (counter : CounterKey) (event : UsageRecord) : ℚ :=
  if Covers keyId event.createdAt.date counter then event.cost else 0

/-- The sum of the costs of the events in the window of a counter. -/
def windowSpend (keyId : Uuid) (rows : List UsageRecord) (counter : CounterKey) : ℚ :=
  (rows.map (charge keyId counter)).sum

/-! ### The requests of one key -/

/-- What a request asks the budget for, at a reading of the clock. -/
structure Ask where
  amount : ℚ
  dailyLimit : Option ℚ
  monthlyLimit : Option ℚ
  now : DateTime
  deriving DecidableEq

/-- How far a request is. -/
inductive Stage
  /-- The first admit command of `admit_request_budget` is to be sent. -/
  | admitting (ask : Ask)
  /-- The first admit command has failed. -/
  | rehydrating (ask : Ask)
  /-- The ledger has been read, and the seed is to be sent. -/
  | seeding (ask : Ask) (committed : BudgetState)
  /-- The admit command is to be sent once more. -/
  | retrying (ask : Ask)
  /-- The request is served, with `budget_reserved_at`. -/
  | serving (reservedAt : Option DateTime)
  /-- The budget has refused the request. -/
  | refused
  /-- `logging` has made the event. -/
  | recorded (event : UsageRecord) (reservedAt : Option DateTime)
  /-- `logging` has settled the budget. -/
  | settled (event : UsageRecord)
  /-- `record_terminal_usage` has inserted its event. -/
  | terminal (reservedAt : Option DateTime)
  | logged
  deriving DecidableEq

/-- The budget store, the usage events, the requests by their reservation ids, and the last reading
of the clock. -/
structure Ledgers where
  world : World
  rows : List UsageRecord
  requests : AList fun _ : String ↦ Stage
  clock : DateTime

/-- Empty ledgers and no requests. -/
def Ledgers.initial (clock : DateTime) : Ledgers where
  world := World.initial
  rows := []
  requests := ∅
  clock := clock

/-- A step of a request. `replica` serves the request, and arms itself with `candidate` if it has no
epoch. -/
inductive Action
  | arrive (id : String) (ask : Ask)
  | bypass (id : String)
  | admitRequestBudget (id : String) (replica : ℕ) (candidate : String)
  | readLedger (id : String)
  | seed (id : String) (replica : ℕ) (candidate : String)
  | makeEvent (id : String) (cost : Option ℚ≥0) (eventAt : DateTime)
  | settle (id : String) (replica : ℕ) (candidate : String) (now : DateTime)
  | insert (id : String)
  | recordTerminalUsage (id : String) (now : DateTime)
  | release (id : String) (replica : ℕ) (candidate : String)

/-- A reading of the clock: a date of the calendar, and not before an earlier reading. -/
def Reads (clock now : DateTime) : Prop :=
  clock ≤ now ∧ 1 ≤ now.date.day
  deriving Decidable

/-- What the answer to an admit command makes of a request. -/
def answered (ask : Ask) (failed : Stage) (reply : Reply) : Stage :=
  match decisionOf (some reply) with
  | some (.allowed _) => .serving (some ask.now)
  | some (.exceeded _) => .refused
  | none => failed

section Steps

variable (keyId : Uuid)

def Ledgers.moved (state : Ledgers) (id : String) (stage : Stage) : Ledgers :=
  { state with requests := state.requests.insert id stage }

/-- An admit command. -/
def Ledgers.admitted (state : Ledgers) (id : String) (replica : ℕ) (candidate : String) (ask : Ask)
    (failed : Stage) : Ledgers :=
  let armed := step state.world (.arm replica candidate)
  let call := Call.admitBudget replica keyId id ask.amount ask.dailyLimit ask.monthlyLimit
    ask.now.date
  { state with world := step armed call }.moved id
    (answered ask failed (perform armed.gateway call).1)

def Ledgers.seeded (state : Ledgers) (id : String) (replica : ℕ) (candidate : String) (ask : Ask)
    (committed : BudgetState) : Ledgers :=
  let armed := step state.world (.arm replica candidate)
  let call := Call.seed replica keyId committed.dailySpendUsd committed.monthlySpendUsd ask.now.date
  { state with world := step armed call }.moved id
    (match (perform armed.gateway call).1 with
    | .ok _ => .retrying ask
    | .error _ => .refused)

/-- One step of one request. A step that is not the next one of its request, and a reading of the
clock that goes back, is skipped. -/
def serve (state : Ledgers) : Action → Ledgers
  | .arrive id ask =>
    if state.requests.lookup id = none ∧ Reads state.clock ask.now then
      { state.moved id (.admitting ask) with clock := ask.now }
    else state
  | .bypass id =>
    if state.requests.lookup id = none then state.moved id (.serving none) else state
  | .admitRequestBudget id replica candidate =>
    match state.requests.lookup id with
    | some (.admitting ask) => state.admitted keyId id replica candidate ask (.rehydrating ask)
    | some (.retrying ask) => state.admitted keyId id replica candidate ask .refused
    | _ => state
  | .readLedger id =>
    match state.requests.lookup id with
    | some (.rehydrating ask) =>
      state.moved id (.seeding ask (committedBudgetSpend state.rows ask.now))
    | _ => state
  | .seed id replica candidate =>
    match state.requests.lookup id with
    | some (.seeding ask committed) => state.seeded keyId id replica candidate ask committed
    | _ => state
  | .makeEvent id cost eventAt =>
    if Reads state.clock eventAt then
      match state.requests.lookup id with
      | some (.serving reservedAt) =>
        { state.moved id (.recorded ⟨cost, reservedAt.getD eventAt⟩ reservedAt) with
          clock := eventAt }
      | some .refused => { state.moved id (.recorded ⟨none, eventAt⟩ none) with clock := eventAt }
      | _ => state
    else state
  | .settle id replica candidate now =>
    if Reads state.clock now then
      match state.requests.lookup id with
      | some (.recorded event reservedAt) =>
        { state.moved id (.settled event) with
          world := Ticket.settle ⟨replica, candidate, keyId, id⟩ reservedAt.isSome
            event.estimatedCost now state.world
          clock := now }
      | _ => state
    else state
  | .insert id =>
    match state.requests.lookup id with
    | some (.settled event) => { state.moved id .logged with rows := state.rows ++ [event] }
    | _ => state
  | .recordTerminalUsage id now =>
    match state.requests.lookup id with
    | some (.serving reservedAt) =>
      { state.moved id (.terminal reservedAt) with rows := state.rows ++ [⟨none, now⟩] }
    | some .refused => { state.moved id (.terminal none) with rows := state.rows ++ [⟨none, now⟩] }
    | _ => state
  | .release id replica candidate =>
    match state.requests.lookup id with
    | some (.terminal reservedAt) =>
      { state.moved id .logged with
        world := Ticket.settle ⟨replica, candidate, keyId, id⟩ reservedAt.isSome none state.clock
          state.world }
    | _ => state

end Steps

/-! ### The steps and the callbacks -/

section Callbacks

variable {ticket : Ticket} {request : State} {state : Ledgers}

/-- Assumes: a request that is served in both models on the same budget store and has inserted
nothing. The steps from its event to its insertion are `logging` with a call that arrives. -/
theorem run_logging (hworld : request.world = state.world) (hevents : request.events = [])
    (hroute : request.ctx.route = true) (hkey : request.ctx.key = true)
    (hrecorded : request.ctx.terminalUsageRecorded = false)
    (hreserved : request.ctx.budgetReserved = request.ctx.budgetReservedAt.isSome)
    (hserving : state.requests.lookup ticket.reservationId =
      some (.serving request.ctx.budgetReservedAt)) {eventAt settledAt : DateTime}
    (heventAt : Reads state.clock eventAt) (hsettledAt : Reads eventAt settledAt) :
    let final := run (serve ticket.keyId) state
      [.makeEvent ticket.reservationId request.ctx.estimatedCost eventAt,
        .settle ticket.reservationId ticket.replica ticket.candidate settledAt,
        .insert ticket.reservationId]
    final.world = (logging ticket eventAt settledAt .delivered request).world ∧
      final.rows = state.rows ++ (logging ticket eventAt settledAt .delivered request).events := by
  have hlogged : ¬ (!request.ctx.route || !request.ctx.key ||
      request.ctx.terminalUsageRecorded) = true := by
    simp [hroute, hkey, hrecorded]
  rw [logging, if_neg hlogged]
  simp only [run_cons, run_nil, serve, if_pos heventAt, hserving, Ledgers.moved, if_pos hsettledAt,
    AList.lookup_insert, State.settled, RequestAdmission.Fate.outcome, hworld, hevents, hreserved,
    List.nil_append, and_self]

/-- A release does not depend on its date. -/
theorem step_release_congr (world : World) (replica : ℕ) (keyId : Uuid) (reservationId : String)
    (now now' : Date) : step world (.release replica keyId reservationId now) =
      step world (.release replica keyId reservationId now') := by
  have hrecord : ∀ reply, world.ledger.record (.release replica keyId reservationId now) reply =
      world.ledger.record (.release replica keyId reservationId now') reply := by
    intro reply
    rcases reply with failure | answer
    · rfl
    · cases answer <;> rfl
  exact congrArg (World.mk _) (hrecord _)

/-- Assumes: a request that is served in both models on the same budget store and has inserted
nothing. The insertion of its terminal event and the release are `record_terminal_usage` with a
release that arrives. -/
theorem run_recordTerminalUsage (hworld : request.world = state.world)
    (hevents : request.events = []) (hrecorded : request.ctx.terminalUsageRecorded = false)
    (hreserved : request.ctx.budgetReserved = request.ctx.budgetReservedAt.isSome)
    (hserving : state.requests.lookup ticket.reservationId =
      some (.serving request.ctx.budgetReservedAt)) (now : DateTime) :
    let final := run (serve ticket.keyId) state
      [.recordTerminalUsage ticket.reservationId now,
        .release ticket.reservationId ticket.replica ticket.candidate]
    final.world = (request.recordTerminalUsage ticket .delivered now).world ∧
      final.rows = state.rows ++ (request.recordTerminalUsage ticket .delivered now).events := by
  rw [State.recordTerminalUsage, if_neg (by simp [hrecorded])]
  simp only [run_cons, run_nil, serve, hserving, Ledgers.moved, AList.lookup_insert, State.settled,
    RequestAdmission.Fate.outcome, hworld, hevents, hreserved, List.nil_append, and_true]
  cases request.ctx.budgetReservedAt with
  | none => rfl
  | some instant => exact step_release_congr _ _ _ _ _ _

/-- What a decision makes of a request. -/
def decided (ask : Ask) : Option BudgetDecision → Stage
  | some (.allowed _) => .serving (some ask.now)
  | _ => .refused

/-- Assumes: a request that is to be admitted. Its steps, without those of other requests between
them, are `admit_request_budget` with what the ledger answers and a replica that arms itself. -/
theorem run_admitRequestBudget {keyId : Uuid} {id : String} {ask : Ask}
    (hadmitting : state.requests.lookup id = some (.admitting ask)) (replica : ℕ)
    (candidate : String) :
    let arming : RequestAdmission.Exchange := ⟨[.arm replica candidate], .delivered⟩
    let result := RequestAdmission.admitRequestBudget
      ⟨replica, keyId, id, ask.amount, ask.dailyLimit, ask.monthlyLimit, ask.now.date⟩
      ⟨arming, some (committedBudgetSpend state.rows ask.now), arming, arming⟩ state.world
    let final := run (serve keyId) state [.admitRequestBudget id replica candidate, .readLedger id,
      .seed id replica candidate, .admitRequestBudget id replica candidate]
    final.world = result.2 ∧ final.rows = state.rows ∧
      final.requests.lookup id = some (decided ask result.1) := by
  intro arming result final
  unfold final result RequestAdmission.admitRequestBudget RequestAdmission.rehydrate
    RequestAdmission.send RequestAdmission.Request.admitCall
  simp only [arming, run_cons, run_nil, serve, hadmitting, Ledgers.admitted,
    Ledgers.moved, answered,
    AList.lookup_insert]
  cases decisionOf (some (perform (step state.world (.arm replica candidate)).gateway
      (.admitBudget replica keyId id ask.amount ask.dailyLimit ask.monthlyLimit
        ask.now.date)).1) with
  | some decision =>
    cases decision with
    | allowed budget => simp [decided]
    | exceeded budget => simp [decided]
  | none =>
    simp only [AList.lookup_insert, Ledgers.seeded, Ledgers.moved]
    obtain ⟨reply, hreply⟩ : ∃ reply, reply = (perform (step (step
        (step state.world (.arm replica candidate)) (.admitBudget replica keyId id ask.amount
          ask.dailyLimit ask.monthlyLimit ask.now.date)) (.arm replica candidate)).gateway
        (.seed replica keyId (committedBudgetSpend state.rows ask.now).dailySpendUsd
          (committedBudgetSpend state.rows ask.now).monthlySpendUsd ask.now.date)).1 := ⟨_, rfl⟩
    cases reply with
    | error failure => simp [← hreply, decided]
    | ok answer =>
      simp only [← hreply, if_true, AList.lookup_insert, true_and]
      split
      · rename_i hdecision
        rw [hdecision]
        rfl
      · rename_i hdecision
        rw [hdecision]
        rfl
      · rename_i hdecision
        rw [hdecision]
        rfl

end Callbacks

/-! ### What the ledgers have in common -/

/-- What a request has added to a counter and not inserted yet. -/
def Stage.pending (keyId : Uuid) (counter : CounterKey) : Stage → ℚ
  | .settled event => charge keyId counter event
  | _ => 0

/-- An instant that the clock has shown. -/
def Dated (clock instant : DateTime) : Prop :=
  instant ≤ clock ∧ 1 ≤ instant.date.day

/-- The reservation of a request is outstanding against the counters of the instant it remembers. -/
def Reserved (keyId : Uuid) (world : World) (clock : DateTime) (id : String)
    (reservedAt : Option DateTime) : Prop :=
  ∀ instant, reservedAt = some instant → Dated clock instant ∧
    ∃ amount, world.ledger.lookup (keyId, id) = some ⟨amount, instant.date⟩

/-- What is known of a request at its stage. -/
def Holds (keyId : Uuid) (world : World) (clock : DateTime) (id : String) : Stage → Prop
  | .admitting ask => Dated clock ask.now
  | .rehydrating ask => Dated clock ask.now
  | .seeding ask committed => Dated clock ask.now ∧
    committed.dailySpendUsd ≤ committedSpend world (dailyBudgetKey keyId ask.now.date) ∧
    committed.monthlySpendUsd ≤ committedSpend world (monthlyBudgetKey keyId ask.now.date)
  | .retrying ask => Dated clock ask.now
  | .serving reservedAt => Reserved keyId world clock id reservedAt
  | .refused => True
  | .recorded event reservedAt => Reserved keyId world clock id reservedAt ∧
    Dated clock event.createdAt ∧ ∀ instant, reservedAt = some instant → event.createdAt = instant
  | .settled event => Dated clock event.createdAt
  | .terminal reservedAt => Reserved keyId world clock id reservedAt
  | .logged => True

/-- A committed counter is the sum of the events in its window, inserted or still to be. -/
structure Agrees (keyId : Uuid) (state : Ledgers) : Prop where
  consistent : Consistent state.world
  epoch : EpochText state.world
  committed : ∀ counter, committedSpend state.world counter =
    windowSpend keyId state.rows counter +
      total (fun _ ↦ Stage.pending keyId counter) state.requests
  stages : ∀ id stage, state.requests.lookup id = some stage →
    Holds keyId state.world state.clock id stage
  dated : ∀ row ∈ state.rows, row.cost = 0 ∨ Dated state.clock row.createdAt

section Sums

variable {keyId : Uuid} {counter : CounterKey}

theorem cost_nonneg (event : UsageRecord) : 0 ≤ event.cost :=
  NNRat.cast_nonneg _

theorem charge_nonneg (keyId : Uuid) (counter : CounterKey) (event : UsageRecord) :
    0 ≤ charge keyId counter event := by
  unfold charge
  split_ifs
  · exact cost_nonneg event
  · exact le_refl 0

theorem pending_nonneg (keyId : Uuid) (counter : CounterKey) (stage : Stage) :
    0 ≤ stage.pending keyId counter := by
  cases stage with
  | settled event => exact charge_nonneg keyId counter event
  | _ => exact le_refl 0

@[simp] theorem windowSpend_append (keyId : Uuid) (rows : List UsageRecord) (event : UsageRecord)
    (counter : CounterKey) : windowSpend keyId (rows ++ [event]) counter =
      windowSpend keyId rows counter + charge keyId counter event := by
  rw [windowSpend, List.map_append, List.sum_append, List.map_singleton, List.sum_singleton,
    windowSpend]

theorem windowSpend_cons (keyId : Uuid) (row : UsageRecord) (rows : List UsageRecord)
    (counter : CounterKey) : windowSpend keyId (row :: rows) counter =
      charge keyId counter row + windowSpend keyId rows counter := by
  rw [windowSpend, List.map_cons, List.sum_cons, windowSpend]

/-- What one event adds to a sum of `committed_budget_spend`. -/
theorem sumSpend_cons (row : UsageRecord) (rows : List UsageRecord) (selects : DateTime → Bool) :
    sumSpend (row :: rows) selects =
      (if selects row.createdAt then row.cost else 0) + sumSpend rows selects := by
  unfold sumSpend
  cases hselected : selects row.createdAt with
  | false => simp [hselected]
  | true =>
    by_cases hcost : 0 < row.cost
    · simp [hselected, hcost]
    · have hzero : row.cost = 0 := le_antisymm (not_lt.mp hcost) (cost_nonneg row)
      simp [hselected, hzero]

/-- Assumes: the events that are selected and cost something lie in the window of a counter. -/
theorem sumSpend_le_windowSpend {rows : List UsageRecord} {selects : DateTime → Bool}
    (hselects : ∀ row ∈ rows, row.cost = 0 ∨
      (selects row.createdAt = true → Covers keyId row.createdAt.date counter)) :
    sumSpend rows selects ≤ windowSpend keyId rows counter := by
  induction rows with
  | nil => exact le_refl 0
  | cons row rest ih =>
    rw [sumSpend_cons, windowSpend_cons]
    apply add_le_add
    · split_ifs with hselected
      · rcases hselects row List.mem_cons_self with hzero | hcovers
        · rw [hzero]
          exact charge_nonneg keyId counter row
        · rw [charge, if_pos (hcovers hselected)]
      · exact charge_nonneg keyId counter row
    · exact ih fun other hother ↦ hselects other (List.mem_cons_of_mem row hother)

/-- Assumes: the events that cost something are selected exactly when they lie in the window of a
counter. -/
theorem sumSpend_eq_windowSpend {rows : List UsageRecord} {selects : DateTime → Bool}
    (hselects : ∀ row ∈ rows, row.cost = 0 ∨
      (selects row.createdAt = true ↔ Covers keyId row.createdAt.date counter)) :
    sumSpend rows selects = windowSpend keyId rows counter := by
  induction rows with
  | nil => rfl
  | cons row rest ih =>
    rw [sumSpend_cons, windowSpend_cons,
      ih fun other hother ↦ hselects other (List.mem_cons_of_mem row hother), charge]
    congr 1
    rcases hselects row List.mem_cons_self with hzero | hcovers
    · rw [hzero, ite_self, ite_self]
    · exact if_congr hcovers rfl rfl

/-- Two dates of a key have the same daily counter when they are the same. -/
theorem covers_daily {date now : Date} :
    Covers keyId date (dailyBudgetKey keyId now) ↔
      date.year = now.year ∧ date.month = now.month ∧ date.day = now.day := by
  simp only [Covers, dailyBudgetKey, monthlyBudgetKey, CounterKey.daily.injEq, reduceCtorEq,
    or_false, true_and]
  constructor
  · rintro ⟨hyear, hmonth, hday⟩
    exact ⟨hyear.symm, hmonth.symm, hday.symm⟩
  · rintro ⟨hyear, hmonth, hday⟩
    exact ⟨hyear.symm, hmonth.symm, hday.symm⟩

/-- Two dates of a key have the same monthly counter when they are of the same month. -/
theorem covers_monthly {date now : Date} :
    Covers keyId date (monthlyBudgetKey keyId now) ↔
      date.year = now.year ∧ date.month = now.month := by
  simp only [Covers, dailyBudgetKey, monthlyBudgetKey, CounterKey.monthly.injEq, reduceCtorEq,
    false_or, true_and]
  constructor
  · rintro ⟨hyear, hmonth⟩
    exact ⟨hyear.symm, hmonth.symm⟩
  · rintro ⟨hyear, hmonth⟩
    exact ⟨hyear.symm, hmonth.symm⟩

end Sums

/-! ### Steps -/

section Preservation

variable {keyId : Uuid} {state : Ledgers}

theorem Dated.mono {clock clock' instant : DateTime} (hdated : Dated clock instant)
    (hclock : clock ≤ clock') : Dated clock' instant :=
  ⟨hdated.1.trans hclock, hdated.2⟩

theorem Reserved.mono {world world' : World} {clock clock' : DateTime} {id : String}
    {reservedAt : Option DateTime} (hreserved : Reserved keyId world clock id reservedAt)
    (hclock : clock ≤ clock')
    (hlookup : world'.ledger.lookup (keyId, id) = world.ledger.lookup (keyId, id)) :
    Reserved keyId world' clock' id reservedAt := by
  intro instant hinstant
  obtain ⟨hdated, hamount⟩ := hreserved instant hinstant
  exact ⟨hdated.mono hclock, by rwa [hlookup]⟩

/-- What is known of a request stays known while its reservation is left alone, the counters do not
fall and the clock does not go back. -/
theorem Holds.mono {world world' : World} {clock clock' : DateTime} {id : String} {stage : Stage}
    (hholds : Holds keyId world clock id stage) (hclock : clock ≤ clock')
    (hlookup : world'.ledger.lookup (keyId, id) = world.ledger.lookup (keyId, id))
    (hspend : ∀ counter, committedSpend world counter ≤ committedSpend world' counter) :
    Holds keyId world' clock' id stage := by
  cases stage with
  | admitting ask => exact Dated.mono hholds hclock
  | rehydrating ask => exact Dated.mono hholds hclock
  | seeding ask committed =>
    obtain ⟨hdated, hdaily, hmonthly⟩ := hholds
    exact ⟨hdated.mono hclock, hdaily.trans (hspend _), hmonthly.trans (hspend _)⟩
  | retrying ask => exact Dated.mono hholds hclock
  | serving reservedAt => exact Reserved.mono hholds hclock hlookup
  | refused => trivial
  | recorded event reservedAt =>
    obtain ⟨hreserved, hdated, hsame⟩ := hholds
    exact ⟨hreserved.mono hclock hlookup, hdated.mono hclock, hsame⟩
  | settled event => exact Dated.mono hholds hclock
  | terminal reservedAt => exact Reserved.mono hholds hclock hlookup
  | logged => trivial

/-- What a request has pending, none if there is no such request. -/
def pendingOf (keyId : Uuid) (counter : CounterKey) (stage : Option Stage) : ℚ :=
  stage.elim 0 (Stage.pending keyId counter)

theorem pendingOf_add_total (keyId : Uuid) (counter : CounterKey)
    (requests : AList fun _ : String ↦ Stage) (id : String) (stage : Stage) :
    pendingOf keyId counter (requests.lookup id) +
        total (fun _ ↦ Stage.pending keyId counter) (requests.insert id stage) =
      stage.pending keyId counter + total (fun _ ↦ Stage.pending keyId counter) requests := by
  cases hlookup : requests.lookup id with
  | none =>
    rw [total_insert_of_notMem _ (AList.lookup_eq_none.mp hlookup)]
    exact zero_add _
  | some old => exact measure_add_total_insert (fun _ ↦ Stage.pending keyId counter) hlookup stage

/-- Assumes: a step that moves one request on, leaves the reservations of the others alone, does not
lower a counter, and moves as much into the counters and out of the pending costs as it moves into
the events and the pending costs. The ledgers go on to agree. -/
theorem Agrees.moves (hagrees : Agrees keyId state) {state' : Ledgers} {id : String} {stage : Stage}
    (hrequests : state'.requests = state.requests.insert id stage)
    (hconsistent : Consistent state'.world) (hepoch : EpochText state'.world)
    (hclock : state.clock ≤ state'.clock)
    (hlookup : ∀ other, other ≠ id →
      state'.world.ledger.lookup (keyId, other) = state.world.ledger.lookup (keyId, other))
    (hspend : ∀ counter,
      committedSpend state.world counter ≤ committedSpend state'.world counter)
    (hstage : Holds keyId state'.world state'.clock id stage)
    (hrows : ∀ row ∈ state'.rows, row ∈ state.rows ∨ row.cost = 0 ∨
      Dated state'.clock row.createdAt)
    (hbalance : ∀ counter, committedSpend state'.world counter +
        pendingOf keyId counter (state.requests.lookup id) + windowSpend keyId state.rows counter =
      committedSpend state.world counter + windowSpend keyId state'.rows counter +
        stage.pending keyId counter) :
    Agrees keyId state' where
  consistent := hconsistent
  epoch := hepoch
  committed := fun counter ↦ by
    have htotal := pendingOf_add_total keyId counter state.requests id stage
    rw [← hrequests] at htotal
    have hbefore := hagrees.committed counter
    have hmoved := hbalance counter
    linarith
  stages := fun other found hfound ↦ by
    rw [hrequests] at hfound
    rcases lookup_insert_cases hfound with ⟨rfl, rfl⟩ | ⟨hother, hfound⟩
    · exact hstage
    · exact (hagrees.stages other found hfound).mono hclock (hlookup other hother) hspend
  dated := fun row hrow ↦ by
    rcases hrows row hrow with hold | hnew
    · rcases hagrees.dated row hold with hzero | hdated
      · exact .inl hzero
      · exact .inr (hdated.mono hclock)
    · exact hnew

/-- Assumes: a step that moves one request on, leaves the budget store alone and inserts what the
request has no longer pending. -/
theorem Agrees.moves_same (hagrees : Agrees keyId state) {state' : Ledgers} {id : String}
    {stage : Stage} (hrequests : state'.requests = state.requests.insert id stage)
    (hworld : state'.world = state.world) (hclock : state.clock ≤ state'.clock)
    (hstage : Holds keyId state.world state'.clock id stage)
    (hrows : ∀ row ∈ state'.rows, row ∈ state.rows ∨ row.cost = 0 ∨
      Dated state'.clock row.createdAt)
    (hbalance : ∀ counter, pendingOf keyId counter (state.requests.lookup id) +
        windowSpend keyId state.rows counter =
      windowSpend keyId state'.rows counter + stage.pending keyId counter) :
    Agrees keyId state' := by
  apply hagrees.moves hrequests
  · exact hworld ▸ hagrees.consistent
  · exact hworld ▸ hagrees.epoch
  · exact hclock
  · intro other _
    rw [hworld]
  · intro counter
    rw [hworld]
  · rw [hworld]
    exact hstage
  · exact hrows
  · intro counter
    rw [hworld, add_assoc, hbalance counter, add_assoc]

/-- Assumes: a step that moves one request on, leaves the counters as they read, inserts nothing,
and leaves the same pending. -/
theorem Agrees.moves_unspent (hagrees : Agrees keyId state) {state' : Ledgers} {id : String}
    {stage : Stage} (hrequests : state'.requests = state.requests.insert id stage)
    (hrows : state'.rows = state.rows) (hconsistent : Consistent state'.world)
    (hepoch : EpochText state'.world) (hclock : state.clock ≤ state'.clock)
    (hlookup : ∀ other, other ≠ id →
      state'.world.ledger.lookup (keyId, other) = state.world.ledger.lookup (keyId, other))
    (hspend : ∀ counter, committedSpend state'.world counter = committedSpend state.world counter)
    (hstage : Holds keyId state'.world state'.clock id stage)
    (hpending : ∀ counter, pendingOf keyId counter (state.requests.lookup id) =
      stage.pending keyId counter) :
    Agrees keyId state' := by
  apply hagrees.moves hrequests hconsistent hepoch hclock hlookup
  · exact fun counter ↦ (hspend counter).ge
  · exact hstage
  · intro row hrow
    exact .inl (hrows ▸ hrow)
  · intro counter
    rw [hspend, hpending, hrows, add_right_comm]

/-- What is known of a request after the answer to an admit command. -/
theorem holds_answered {world : World} {id : String} {clock : DateTime} {ask : Ask} {failed : Stage}
    {replica : ℕ} (hdated : Dated clock ask.now)
    (hfailed : ∀ world, Holds keyId world clock id failed) :
    let call := Call.admitBudget replica keyId id ask.amount ask.dailyLimit ask.monthlyLimit
      ask.now.date
    Holds keyId (step world call) clock id
      (answered ask failed (perform world.gateway call).1) := by
  intro call
  have hallowed : ∀ budget, (perform world.gateway call).1 = .ok (.decision (.allowed budget)) →
      (step world call).ledger.lookup (keyId, id) = some ⟨ask.amount, ask.now.date⟩ := by
    intro budget hreply
    change (world.ledger.record call (perform world.gateway call).1).lookup (keyId, id) = _
    rw [hreply]
    exact AList.lookup_insert _
  unfold answered decisionOf
  split
  · rename_i budget hdecision
    split at hdecision
    · rename_i decision hreply
      obtain rfl := Option.some.inj hdecision
      rintro instant hinstant
      obtain rfl := Option.some.inj hinstant
      exact ⟨hdated, ask.amount, hallowed budget (Option.some.inj hreply)⟩
    · cases hdecision
  · trivial
  · exact hfailed _

theorem pending_answered {ask : Ask} {failed : Stage} {counter : CounterKey}
    (hfailed : failed.pending keyId counter = 0) (reply : Reply) :
    (answered ask failed reply).pending keyId counter = 0 := by
  unfold answered
  split
  · rfl
  · rfl
  · exact hfailed

/-- Assumes: a request that is to send an admit command and has nothing pending, and a stage for its
failure of which nothing needs to be known. -/
theorem Agrees.admitted (hagrees : Agrees keyId state) {id : String} {replica : ℕ}
    {candidate : String} {ask : Ask} {failed : Stage} (hdated : Dated state.clock ask.now)
    (hpending : ∀ counter, pendingOf keyId counter (state.requests.lookup id) = 0)
    (hfailed : ∀ world, Holds keyId world state.clock id failed)
    (hnone : ∀ counter, failed.pending keyId counter = 0) :
    Agrees keyId (state.admitted keyId id replica candidate ask failed) := by
  have harmed := consistent_step _ (.arm replica candidate) hagrees.consistent
  apply hagrees.moves_unspent
  · rfl
  · rfl
  · exact consistent_step _ _ harmed
  · exact epochText_step _ _ (epochText_step _ _ hagrees.epoch)
  · exact le_refl _
  · intro other hother
    have hforeign : Foreign (keyId, other) (.admitBudget replica keyId id ask.amount ask.dailyLimit
        ask.monthlyLimit ask.now.date) :=
      ⟨fun h ↦ hother (congrArg Prod.snd (Eq.symm h)), fun h ↦ h⟩
    exact lookup_step_of_foreign hforeign _
  · intro counter
    exact (committedSpend_admission harmed _ _ _ _ _ _ _ counter).trans (committedSpend_arm ..)
  · exact holds_answered hdated hfailed
  · intro counter
    rw [hpending, pending_answered (hnone counter)]

/-- Assumes: a request that is to seed the counters with no more than they hold. -/
theorem Agrees.seeded (hagrees : Agrees keyId state) {id : String} {replica : ℕ}
    {candidate : String} {ask : Ask} {committed : BudgetState}
    (hlookup : state.requests.lookup id = some (.seeding ask committed)) :
    Agrees keyId (state.seeded keyId id replica candidate ask committed) := by
  obtain ⟨hdated, hdaily, hmonthly⟩ := hagrees.stages id _ hlookup
  have harmed := consistent_step _ (.arm replica candidate) hagrees.consistent
  apply hagrees.moves_unspent
  · rfl
  · rfl
  · exact consistent_step _ _ harmed
  · exact epochText_step _ _ (epochText_step _ _ hagrees.epoch)
  · exact le_refl _
  · intro other _
    rfl
  · intro counter
    refine (committedSpend_seed harmed replica ?_ ?_ counter).trans (committedSpend_arm ..)
    · rw [committedSpend_arm]
      exact hdaily
    · rw [committedSpend_arm]
      exact hmonthly
  · split
    · exact hdated
    · trivial
  · intro counter
    rw [hlookup]
    split
    · rfl
    · rfl

/-- The budget call at the end of a request adds its cost to the counters of the date it was
reserved on, or of today if it was not. -/
theorem Agrees.settle_spec (hagrees : Agrees keyId state) {id : String}
    {reservedAt : Option DateTime}
    (hreserved : Reserved keyId state.world state.clock id reservedAt) (replica : ℕ)
    (candidate : String) (cost : Option ℚ≥0) (now : DateTime) :
    let world := Ticket.settle ⟨replica, candidate, keyId,
      id⟩ reservedAt.isSome cost now state.world
    Consistent world ∧ EpochText world ∧
      (∀ counter, committedSpend world counter = committedSpend state.world counter +
        if Covers keyId (reservedAt.getD now).date counter then ((cost.getD 0 : ℚ≥0) : ℚ) else 0) ∧
      ∀ other, other ≠ id →
        world.ledger.lookup (keyId, other) = state.world.ledger.lookup (keyId, other) := by
  intro world
  have hdate : reservedAt.isSome = true → ∃ amount, state.world.ledger.lookup (keyId, id) =
      some ⟨amount, (reservedAt.getD now).date⟩ := by
    intro hsome
    obtain ⟨instant, rfl⟩ := Option.isSome_iff_exists.mp hsome
    exact (hreserved instant rfl).2
  have htoday : reservedAt.isSome = false → (reservedAt.getD now).date = now.date := by
    intro hnone
    rw [Option.isSome_eq_false_iff, Option.isNone_iff_eq_none] at hnone
    rw [hnone, Option.getD_none]
  obtain ⟨hconsistent, hepoch, hspend, -, -, hothers⟩ :=
    Ticket.settle_spec ⟨replica, candidate, keyId, id⟩ hagrees.consistent hagrees.epoch hdate htoday
      cost
  refine ⟨hconsistent, hepoch, hspend, fun other hother ↦ hothers (keyId, other) ?_⟩
  intro hkey
  exact hother (congrArg Prod.snd hkey)

/-- The charge that a request brings into Redis is that of its event, if its event is dated on the
day on which a request without a reservation is charged. -/
theorem Agrees.settled (hagrees : Agrees keyId state) {id : String} {event : UsageRecord}
    {reservedAt : Option DateTime} (hlookup : state.requests.lookup id =
      some (.recorded event reservedAt)) {replica : ℕ} {candidate : String} {now : DateTime}
    (hreads : Reads state.clock now)
    (hfair : reservedAt = none → event.cost = 0 ∨ now.date = event.createdAt.date) :
    Agrees keyId { state.moved id (.settled event) with
      world := Ticket.settle ⟨replica, candidate, keyId, id⟩ reservedAt.isSome
        event.estimatedCost now state.world
      clock := now } := by
  obtain ⟨hreserved, hdated, hsame⟩ := hagrees.stages id _ hlookup
  obtain ⟨hconsistent, hepoch, hspend, hothers⟩ :=
    hagrees.settle_spec hreserved replica candidate event.estimatedCost now
  have hcharge : ∀ counter, (if Covers keyId (reservedAt.getD now).date counter then event.cost
      else 0) = charge keyId counter event := by
    intro counter
    rw [charge]
    cases reservedAt with
    | none =>
      rcases hfair rfl with hzero | hday
      · rw [hzero, ite_self, ite_self]
      · rw [Option.getD_none, hday]
    | some instant => rw [Option.getD_some, hsame instant rfl]
  have hadded : ∀ counter, committedSpend (Ticket.settle ⟨replica, candidate, keyId, id⟩
      reservedAt.isSome event.estimatedCost now state.world) counter =
        committedSpend state.world counter + charge keyId counter event := fun counter ↦
    (hspend counter).trans (congrArg _ (hcharge counter))
  apply hagrees.moves
  · rfl
  · exact hconsistent
  · exact hepoch
  · exact hreads.1
  · exact hothers
  · intro counter
    rw [hadded]
    exact le_add_of_nonneg_right (charge_nonneg keyId counter event)
  · exact hdated.mono hreads.1
  · exact fun row hrow ↦ .inl hrow
  · intro counter
    rw [hadded, hlookup]
    change _ + 0 + windowSpend keyId state.rows counter =
      _ + windowSpend keyId state.rows counter + charge keyId counter event
    rw [add_zero, add_right_comm]

/-- A release leaves the counters as they read. -/
theorem Agrees.released (hagrees : Agrees keyId state) {id : String} {reservedAt : Option DateTime}
    (hlookup : state.requests.lookup id = some (.terminal reservedAt)) {replica : ℕ}
    {candidate : String} :
    Agrees keyId { state.moved id .logged with
      world := Ticket.settle ⟨replica, candidate, keyId, id⟩ reservedAt.isSome none state.clock
        state.world } := by
  obtain ⟨hconsistent, hepoch, hspend, hothers⟩ :=
    hagrees.settle_spec (hagrees.stages id _ hlookup) replica candidate none state.clock
  apply hagrees.moves_unspent
  · rfl
  · rfl
  · exact hconsistent
  · exact hepoch
  · exact le_refl _
  · exact hothers
  · intro counter
    refine (hspend counter).trans ?_
    simp
  · trivial
  · intro counter
    rw [hlookup]
    rfl

/-- Assumes: no event is dated on a later day. The events since the start of the month are those of
the month. -/
theorem same_month {now createdAt : DateTime}
    (hday : dayStart now ≤ createdAt → createdAt.date = now.date)
    (hmonth : monthStart now ≤ createdAt) :
    createdAt.date.year = now.date.year ∧ createdAt.date.month = now.date.month := by
  by_cases hlater : dayStart now ≤ createdAt
  · rw [hday hlater]
    exact ⟨rfl, rfl⟩
  · rw [DateTime.le_iff] at hlater hmonth
    simp only [dayStart, monthStart] at hlater hmonth
    omega

/-- Assumes: no event with a cost is dated on a later day than the request was admitted on. What the
request seeds is no more than the counters hold. -/
theorem Agrees.read (hagrees : Agrees keyId state) {id : String} {ask : Ask}
    (hlookup : state.requests.lookup id = some (.rehydrating ask))
    (hfair : ∀ row ∈ state.rows, row.cost = 0 ∨
      (dayStart ask.now ≤ row.createdAt → row.createdAt.date = ask.now.date)) :
    Agrees keyId (state.moved id (.seeding ask (committedBudgetSpend state.rows ask.now))) := by
  have hwindow : ∀ counter, windowSpend keyId state.rows counter ≤
      committedSpend state.world counter := by
    intro counter
    rw [hagrees.committed]
    exact le_add_of_nonneg_right (total_nonneg _ fun _ stage _ ↦ pending_nonneg keyId counter stage)
  apply hagrees.moves_same
  · rfl
  · rfl
  · exact le_refl _
  · refine ⟨hagrees.stages id _ hlookup, le_trans ?_ (hwindow _), le_trans ?_ (hwindow _)⟩
    · apply sumSpend_le_windowSpend
      intro row hrow
      refine (hfair row hrow).imp_right fun hday hselected ↦ ?_
      rw [Bool.and_eq_true, decide_eq_true_eq, decide_eq_true_eq] at hselected
      rw [hday hselected.2]
      exact covers_daily.mpr ⟨rfl, rfl, rfl⟩
    · apply sumSpend_le_windowSpend
      intro row hrow
      refine (hfair row hrow).imp_right fun hday hselected ↦ ?_
      exact covers_monthly.mpr (same_month hday (of_decide_eq_true hselected))
  · exact fun row hrow ↦ .inl hrow
  · intro counter
    rw [hlookup]
    exact (zero_add _).trans (add_zero _).symm

end Preservation

/-! ### Runs -/

/-- A request without a reservation is charged on the day on which its event is dated, and no event
with a cost is dated on a later day than the one on which a request that reads the ledger was
admitted. -/
def fair (state : Ledgers) : Action → Bool
  | .settle id _ _ now =>
    match state.requests.lookup id with
    | some (.recorded event none) =>
      decide (event.cost = 0) || decide (now.date = event.createdAt.date)
    | _ => true
  | .readLedger id =>
    match state.requests.lookup id with
    | some (.rehydrating ask) => state.rows.all fun row ↦ decide (row.cost = 0) ||
      !decide (dayStart ask.now ≤ row.createdAt) || decide (row.createdAt.date = ask.now.date)
    | _ => true
  | _ => true

section Runs

variable {keyId : Uuid}

/-- Assumes: a request that has nothing pending before and after it moves on. -/
theorem Agrees.moved (state : Ledgers) (hagrees : Agrees keyId state) {id : String} {stage : Stage}
    {clock : DateTime} (hclock : state.clock ≤ clock)
    (hstage : Holds keyId state.world clock id stage)
    (hpending : ∀ counter, pendingOf keyId counter (state.requests.lookup id) = 0)
    (hnone : ∀ counter, stage.pending keyId counter = 0) :
    Agrees keyId { state.moved id stage with clock := clock } := by
  apply hagrees.moves_same
  · rfl
  · rfl
  · exact hclock
  · exact hstage
  · exact fun row hrow ↦ .inl hrow
  · intro counter
    rw [hpending, hnone, zero_add, add_zero]
    rfl

/-- The stages that `logging` and `record_terminal_usage` leave behind hold. -/
theorem Agrees.made {state : Ledgers} (hagrees : Agrees keyId state) {id : String}
    {cost : Option ℚ≥0} {eventAt : DateTime} (hreads : Reads state.clock eventAt)
    {reservedAt : Option DateTime}
    (hlookup : state.requests.lookup id = some (.serving reservedAt)) :
    Agrees keyId { state.moved id (.recorded ⟨cost, reservedAt.getD eventAt⟩ reservedAt) with
      clock := eventAt } := by
  have hreserved : Reserved keyId state.world eventAt id reservedAt :=
    Reserved.mono (hagrees.stages id _ hlookup) hreads.1 rfl
  apply hagrees.moved
  · exact hreads.1
  · refine ⟨hreserved, ?_, ?_⟩
    · cases reservedAt with
      | none => exact ⟨le_refl _, hreads.2⟩
      | some instant => exact (hreserved instant rfl).1
    · rintro instant rfl
      rfl
  · intro counter
    rw [hlookup]
    rfl
  · intro counter
    rfl

/-- An event without a cost is inserted. -/
theorem Agrees.denied {state : Ledgers} (hagrees : Agrees keyId state) {id : String}
    {reservedAt : Option DateTime} (now : DateTime)
    (hreserved : Reserved keyId state.world state.clock id reservedAt)
    (hpending : ∀ counter, pendingOf keyId counter (state.requests.lookup id) = 0) :
    Agrees keyId { state.moved id (.terminal reservedAt) with
      rows := state.rows ++ [⟨none, now⟩] } := by
  have hfree : UsageRecord.cost ⟨none, now⟩ = 0 := rfl
  apply hagrees.moves_same
  · rfl
  · rfl
  · exact le_refl _
  · exact hreserved
  · intro row hrow
    rcases List.mem_append.mp hrow with hold | hnew
    · exact .inl hold
    · rw [List.mem_singleton.mp hnew]
      exact .inr (.inl hfree)
  · intro counter
    rw [hpending, zero_add, windowSpend_append, charge, hfree, ite_self, add_zero]
    exact (add_zero _).symm

/-- The cost of an event is moved from the pending ones into the events. -/
theorem Agrees.inserted {state : Ledgers} (hagrees : Agrees keyId state) {id : String}
    {event : UsageRecord} (hlookup : state.requests.lookup id = some (.settled event)) :
    Agrees keyId { state.moved id .logged with rows := state.rows ++ [event] } := by
  apply hagrees.moves_same
  · rfl
  · rfl
  · exact le_refl _
  · trivial
  · intro row hrow
    rcases List.mem_append.mp hrow with hold | hnew
    · exact .inl hold
    · rw [List.mem_singleton.mp hnew]
      exact .inr (.inr (hagrees.stages id _ hlookup))
  · intro counter
    rw [hlookup, windowSpend_append]
    exact (add_comm _ _).trans (add_zero _).symm

/-- A fair step keeps the ledgers in agreement. -/
theorem agrees_serve (state : Ledgers) (action : Action) (hfair : fair state action = true)
    (hagrees : Agrees keyId state) : Agrees keyId (serve keyId state action) := by
  have hidle : ∀ {id stage}, state.requests.lookup id = some stage →
      (∀ counter, stage.pending keyId counter = 0) →
      ∀ counter, pendingOf keyId counter (state.requests.lookup id) = 0 := by
    intro id stage hlookup hnone counter
    rw [hlookup]
    exact hnone counter
  have habsent : ∀ {id}, state.requests.lookup id = none →
      ∀ counter, pendingOf keyId counter (state.requests.lookup id) = 0 := by
    intro id hlookup counter
    rw [hlookup]
    rfl
  cases action with
  | arrive id ask =>
    rw [serve]
    split_ifs with hnew
    · exact hagrees.moved state hnew.2.1 ⟨le_refl _, hnew.2.2⟩ (habsent hnew.1) fun _ ↦ rfl
    · exact hagrees
  | bypass id =>
    rw [serve]
    split_ifs with hnew
    · exact hagrees.moved state (le_refl _) nofun (habsent hnew) fun _ ↦ rfl
    · exact hagrees
  | admitRequestBudget id replica candidate =>
    rw [serve]
    split
    · rename_i ask hlookup
      have hdated : Dated state.clock ask.now := hagrees.stages id _ hlookup
      exact hagrees.admitted hdated (hidle hlookup fun _ ↦ rfl) (fun _ ↦ hdated) fun _ ↦ rfl
    · rename_i ask hlookup
      exact hagrees.admitted (hagrees.stages id _ hlookup) (hidle hlookup fun _ ↦ rfl)
        (fun _ ↦ trivial) fun _ ↦ rfl
    · exact hagrees
  | readLedger id =>
    rw [serve]
    split
    · rename_i ask hlookup
      refine hagrees.read hlookup fun row hrow ↦ ?_
      simp only [fair, hlookup, List.all_eq_true] at hfair
      have hdated := hfair row hrow
      simp only [Bool.or_eq_true, Bool.not_eq_true', decide_eq_true_eq, decide_eq_false_iff_not,
        or_assoc] at hdated
      exact hdated.imp_right fun hday hlater ↦ hday.resolve_left fun hnot ↦ hnot hlater
    · exact hagrees
  | seed id replica candidate =>
    rw [serve]
    split
    · rename_i ask committed hlookup
      exact hagrees.seeded hlookup
    · exact hagrees
  | makeEvent id cost eventAt =>
    rw [serve]
    split_ifs with hreads
    · split
      · rename_i reservedAt hlookup
        exact hagrees.made hreads hlookup
      · rename_i hlookup
        exact hagrees.moved state hreads.1 ⟨nofun, ⟨le_refl _, hreads.2⟩, nofun⟩
          (hidle hlookup fun _ ↦ rfl) fun _ ↦ rfl
      · exact hagrees
    · exact hagrees
  | settle id replica candidate now =>
    rw [serve]
    split_ifs with hreads
    · split
      · rename_i event reservedAt hlookup
        refine hagrees.settled hlookup hreads ?_
        rintro rfl
        simpa only [fair, hlookup, Bool.or_eq_true, decide_eq_true_eq] using hfair
      · exact hagrees
    · exact hagrees
  | insert id =>
    rw [serve]
    split
    · rename_i event hlookup
      exact hagrees.inserted hlookup
    · exact hagrees
  | recordTerminalUsage id now =>
    rw [serve]
    split
    · rename_i reservedAt hlookup
      exact hagrees.denied now (hagrees.stages id _ hlookup) (hidle hlookup fun _ ↦ rfl)
    · rename_i hlookup
      exact hagrees.denied now nofun (hidle hlookup fun _ ↦ rfl)
    · exact hagrees
  | release id replica candidate =>
    rw [serve]
    split
    · rename_i reservedAt hlookup
      exact hagrees.released hlookup
    · exact hagrees

theorem agrees_initial (keyId : Uuid) (clock : DateTime) :
    Agrees keyId (Ledgers.initial clock) where
  consistent := consistent_initial
  epoch := .inl rfl
  committed := fun _ ↦ (add_zero (0 : ℚ)).symm
  stages := fun _ _ hlookup ↦ by cases hlookup
  dated := fun _ hrow ↦ by cases hrow

/-- Assumes: events that the clock has shown, and a later reading. `committed_budget_spend` sums the
events of the day and of the month. -/
theorem committedBudgetSpend_eq {rows : List UsageRecord} {clock now : DateTime}
    (hdated : ∀ row ∈ rows, row.cost = 0 ∨ Dated clock row.createdAt) (hclock : clock ≤ now)
    (keyId : Uuid) : committedBudgetSpend rows now =
      ⟨windowSpend keyId rows (dailyBudgetKey keyId now.date),
        windowSpend keyId rows (monthlyBudgetKey keyId now.date)⟩ := by
  rw [committedBudgetSpend]
  congr 1
  · apply sumSpend_eq_windowSpend
    intro row hrow
    refine (hdated row hrow).imp_right fun hshown ↦ ?_
    have hbefore := hshown.1.trans hclock
    have hvalid := hshown.2
    rw [covers_daily, Bool.and_eq_true, decide_eq_true_eq, decide_eq_true_eq]
    rw [DateTime.le_iff] at hbefore
    rw [DateTime.le_iff, DateTime.le_iff]
    simp only [dayStart, monthStart]
    omega
  · apply sumSpend_eq_windowSpend
    intro row hrow
    refine (hdated row hrow).imp_right fun hshown ↦ ?_
    have hbefore := hshown.1.trans hclock
    have hvalid := hshown.2
    rw [covers_monthly, decide_eq_true_eq]
    rw [DateTime.le_iff] at hbefore
    rw [DateTime.le_iff]
    simp only [monthStart]
    omega

/-- The durable and the volatile ledger agree. Assumes: a run of any requests of a key in which
every step is fair, at the end of which all of them are logged. Every committed counter is the sum
of the costs of the events that were created in its day or its month, and `committed_budget_spend`
reads the same at any time from then on. -/
theorem ledgers_agree {keyId : Uuid} {start : DateTime} {actions : List Action}
    (hfair : Guarded (serve keyId) (fun state action ↦ fair state action = true)
      (Ledgers.initial start) actions) :
    let final := run (serve keyId) (Ledgers.initial start) actions
    (∀ entry ∈ final.requests.entries, entry.2 = Stage.logged) →
      (∀ counter, committedSpend final.world counter = windowSpend keyId final.rows counter) ∧
      ∀ now, final.clock ≤ now → committedBudgetSpend final.rows now =
        ⟨committedSpend final.world (dailyBudgetKey keyId now.date),
          committedSpend final.world (monthlyBudgetKey keyId now.date)⟩ := by
  intro final hlogged
  have hagrees : Agrees keyId final :=
    run_guarded_invariant agrees_serve actions _ hfair (agrees_initial keyId start)
  have hspend : ∀ counter,
      committedSpend final.world counter = windowSpend keyId final.rows counter := by
    intro counter
    have hnone : total (fun _ ↦ Stage.pending keyId counter) final.requests = 0 := by
      apply total_eq_zero
      intro id stage hlookup
      rw [show stage = .logged from hlogged ⟨id, stage⟩ (AList.mem_lookup_iff.mp hlookup)]
      rfl
    rw [hagrees.committed, hnone, add_zero]
  refine ⟨hspend, fun now hnow ↦ ?_⟩
  rw [committedBudgetSpend_eq hagrees.dated hnow keyId, hspend, hspend]

/-- A request with limits that is admitted before midnight after a rehydration, and is logged after
it: its cost is on the day of its admission in both ledgers. -/
theorem ledgers_agree_across_midnight :
    let final := run (serve 7) (Ledgers.initial ⟨⟨2026, 1, 31⟩, 0⟩)
      [.arrive "a" ⟨3, some 10, some 20, ⟨⟨2026, 1, 31⟩, 86399999999999⟩⟩,
        .admitRequestBudget "a" 0 "epoch",
        .readLedger "a", .seed "a" 0 "epoch", .admitRequestBudget "a" 0 "epoch",
        .makeEvent "a" (some 2) ⟨⟨2026, 2, 1⟩, 5⟩, .settle "a" 0 "epoch" ⟨⟨2026, 2, 1⟩, 6⟩,
        .insert "a"]
    (committedSpend final.world (.daily 7 2026 1 31) = 2 ∧ final.rows.length = 1) ∧
      (∀ counter, committedSpend final.world counter = windowSpend 7 final.rows counter) ∧
      ∀ now, final.clock ≤ now → committedBudgetSpend final.rows now =
        ⟨committedSpend final.world (dailyBudgetKey 7 now.date),
          committedSpend final.world (monthlyBudgetKey 7 now.date)⟩ :=
  ⟨by decide +kernel, @ledgers_agree 7 ⟨⟨2026, 1, 31⟩, 0⟩ _ (by decide +kernel) (by decide +kernel)⟩

/-- A request without a reservation whose event is made in the last nanosecond of January and whose
spend is added in the first of February. The event is in January, and the counters of February carry
its cost. -/
theorem charge_across_midnight :
    let final := run (serve 7) (Ledgers.initial ⟨⟨2026, 1, 31⟩, 0⟩)
      [.bypass "a", .makeEvent "a" (some 5) ⟨⟨2026, 1, 31⟩, 86399999999999⟩,
        .settle "a" 0 "epoch" ⟨⟨2026, 2, 1⟩, 0⟩, .insert "a"]
    (∀ entry ∈ final.requests.entries, entry.2 = Stage.logged) ∧
      committedSpend final.world (.daily 7 2026 1 31) = 0 ∧
      windowSpend 7 final.rows (.daily 7 2026 1 31) = 5 ∧
      committedSpend final.world (.monthly 7 2026 2) = 5 ∧
      windowSpend 7 final.rows (.monthly 7 2026 2) = 0 := by
  decide +kernel

/-- A request that is admitted in the last nanosecond of January and reads the ledger after another
one has been logged in February: it seeds the counters of January with the cost of February. -/
theorem seed_across_midnight :
    let final := run (serve 7) (Ledgers.initial ⟨⟨2026, 1, 31⟩, 0⟩)
      [.arrive "a" ⟨3, some 10, some 20, ⟨⟨2026, 1, 31⟩, 86399999999999⟩⟩,
        .admitRequestBudget "a" 0 "epoch",
        .bypass "b", .makeEvent "b" (some 5) ⟨⟨2026, 2, 1⟩, 0⟩,
        .settle "b" 0 "epoch" ⟨⟨2026, 2, 1⟩, 0⟩, .insert "b", .readLedger "a", .seed "a" 0 "epoch",
        .admitRequestBudget "a" 0 "epoch", .makeEvent "a" (some 2) ⟨⟨2026, 2, 1⟩, 1⟩,
        .settle "a" 0 "epoch" ⟨⟨2026, 2, 1⟩, 2⟩, .insert "a"]
    (∀ entry ∈ final.requests.entries, entry.2 = Stage.logged) ∧
      committedSpend final.world (.daily 7 2026 1 31) = 7 ∧
      windowSpend 7 final.rows (.daily 7 2026 1 31) = 2 := by
  decide +kernel

end Runs

end Relayna.Proxy.Agreement

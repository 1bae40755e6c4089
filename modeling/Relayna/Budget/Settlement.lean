import Relayna.Budget.Oversubscription
import Relayna.Budget.RequestAdmission

/-!
# What the budget calls do to the committed counters

Arming a replica and admitting a request leave the committed counters as they read, and so does a
seed that they have reached already. A finalization adds the cost to the two counters of its
reservation, and a spend to the two of the day it is made. In a reachable world neither of these
fails once its replica is armed, and arming it cannot fail.
-/

set_option autoImplicit false
set_option relaxedAutoImplicit false

namespace Relayna.Budget.Settlement

open Library.Transition Scripts Reservations RequestAdmission Oversubscription

/-- What a committed counter reads as. -/
def committedSpend (world : World) (counter : CounterKey) : ℚ :=
  (numberOr (some 0) (world.gateway.store (.committed counter))).getD 0

/-- A counter is one of the two of a virtual key at a date. -/
def Covers (keyId : Uuid) (date : Date) (counter : CounterKey) : Prop :=
  counter = dailyBudgetKey keyId date ∨ counter = monthlyBudgetKey keyId date

instance (keyId : Uuid) (date : Date) (counter : CounterKey) :
    Decidable (Covers keyId date counter) :=
  inferInstanceAs (Decidable (_ ∨ _))

variable {world : World}

/-- Assumes: a consistent world. A committed counter reads as its spend. -/
theorem numberOr_committed (hworld : Consistent world) (counter : CounterKey) :
    numberOr (some 0) (world.gateway.store (.committed counter)) =
      some (committedSpend world counter) := by
  obtain ⟨amount, -, hread⟩ := hworld.committed counter
  rw [committedSpend, hread, Option.getD_some]

theorem committedSpend_nonneg (hworld : Consistent world) (counter : CounterKey) :
    0 ≤ committedSpend world counter := by
  obtain ⟨amount, hnonneg, hread⟩ := hworld.committed counter
  rw [committedSpend, hread, Option.getD_some]
  exact hnonneg

/-! ### Arming -/

/-- The epoch of the store is a text when there is one. -/
def EpochText (world : World) : Prop :=
  world.gateway.store .accountingEpoch = none ∨
    ∃ epoch, world.gateway.store .accountingEpoch = some (.text epoch)

/-- A method that runs no arming leaves the epoch of the store as it is. -/
theorem accountingEpoch_perform (gateway : Gateway) {call : Call}
    (hcall : ∀ replica candidate, call ≠ .arm replica candidate) :
    (perform gateway call).2.store .accountingEpoch = gateway.store .accountingEpoch := by
  cases call with
  | arm replica candidate => exact absurd rfl (hcall replica candidate)
  | seed replica keyId dailySpend monthlySpend now =>
    rcases seedBudgetCounters_cases gateway replica keyId dailySpend monthlySpend now with
      ⟨failure, hfailed⟩ | ⟨d, m, -, -, -, -, hseeded⟩
    · rw [perform, hfailed]
    · rw [perform, hseeded]
      simp [Store.set_of_ne]
  | admitBudget replica keyId reservationId amount dailyLimit monthlyLimit now =>
    rcases admitBudget_cases gateway replica keyId reservationId amount dailyLimit monthlyLimit
      now with ⟨reply, -, hsame⟩ | ⟨_, _, _, _, -, -, -, -, -, -, -, -, hallowed⟩
    · rw [perform, hsame]
    · rw [perform, hallowed]
      simp [admittedStore, Store.incrByFloat, Store.set_of_ne]
  | finalize replica keyId reservationId actual now =>
    rcases finalizeReservation_cases gateway replica keyId reservationId actual with
      ⟨failure, hcase⟩ | ⟨-, hcase⟩ | ⟨amount, daily, monthly, dr, mr, -, -, -, -, hcase⟩
    · rw [perform, hcase]
    · rw [perform, hcase]
    · rw [perform, hcase]
      simp [finalizedStore, Store.incrByFloat, Store.set_of_ne, Store.del_of_ne]
  | release replica keyId reservationId now =>
    rcases finalizeReservation_cases gateway replica keyId reservationId 0 with
      ⟨failure, hcase⟩ | ⟨-, hcase⟩ | ⟨amount, daily, monthly, dr, mr, -, -, -, -, hcase⟩
    · rw [perform, hcase]
    · rw [perform, hcase]
    · rw [perform, hcase]
      simp [finalizedStore, Store.incrByFloat, Store.set_of_ne, Store.del_of_ne]
  | addSpend replica keyId cost now =>
    rcases addBudgetSpend_cases gateway replica keyId cost now with ⟨reply, hsame⟩ | ⟨-, hspent⟩
    · rw [perform, hsame]
    · rw [perform, hspent]
      simp [Store.incrByFloat, Store.set_of_ne]

theorem epochText_step (world : World) (call : Call) (hepoch : EpochText world) :
    EpochText (step world call) := by
  unfold EpochText
  by_cases hcall : ∃ replica candidate, call = .arm replica candidate
  · obtain ⟨replica, candidate, rfl⟩ := hcall
    change (world.gateway.arm replica candidate).2.store _ = none ∨
      ∃ epoch, (world.gateway.arm replica candidate).2.store _ = some (.text epoch)
    rcases arm_cases world.gateway replica candidate with hsame | ⟨epoch, -, hstored, -, -⟩
    · rw [hsame]
      exact hepoch
    · exact .inr ⟨epoch, hstored⟩
  · push Not at hcall
    change (perform world.gateway call).2.store _ = none ∨
      ∃ epoch, (perform world.gateway call).2.store _ = some (.text epoch)
    rw [accountingEpoch_perform world.gateway hcall]
    exact hepoch

theorem epochText_run (calls : List Call) : EpochText (run step World.initial calls) :=
  run_invariant epochText_step calls World.initial (.inl rfl)

/-- Assumes: an epoch of the store that is a text when there is one. A replica that arms itself has
an epoch. -/
theorem armed_arm (hepoch : EpochText world) (replica : ℕ) (candidate : String) :
    (step world (.arm replica candidate)).gateway.epochs replica ≠ none := by
  change (world.gateway.arm replica candidate).2.epochs replica ≠ none
  unfold Gateway.arm
  cases hcached : world.gateway.epochs replica with
  | some epoch =>
    dsimp only
    rw [hcached]
    simp
  | none =>
    dsimp only
    rw [Function.update_self, epochScript]
    rcases hepoch with hnone | ⟨epoch, hstored⟩
    · rw [hnone]
      simp
    · rw [hstored]
      simp

/-- Arming a replica leaves every other key of the store as it is. -/
theorem store_arm (world : World) (replica : ℕ) (candidate : String) {key : RedisKey}
    (hkey : key ≠ .accountingEpoch) :
    (step world (.arm replica candidate)).gateway.store key = world.gateway.store key := by
  change (world.gateway.arm replica candidate).2.store key = _
  rcases arm_cases world.gateway replica candidate with hsame | ⟨epoch, -, -, -, hrest⟩
  · rw [hsame]
  · exact hrest key hkey

@[simp] theorem committedSpend_arm (world : World) (replica : ℕ) (candidate : String)
    (counter : CounterKey) :
    committedSpend (step world (.arm replica candidate)) counter =
      committedSpend world counter := by
  rw [committedSpend, store_arm world replica candidate (by simp), committedSpend]

/-! ### Admissions -/

/-- A command and the calls before it are a run of the scripts. -/
theorem exists_run_send (world : World) (exchange : Exchange) (call : Call) :
    ∃ calls, (send world exchange call).2 = run step world calls := by
  have hafter : step (run step world exchange.before) call =
      run step world (exchange.before ++ [call]) := by
    rw [run_append]
    rfl
  unfold send
  cases exchange.fate with
  | delivered => exact ⟨_, hafter⟩
  | requestLost => exact ⟨exchange.before, rfl⟩
  | replyLost => exact ⟨_, hafter⟩

theorem exists_run_rehydrate (request : Request) (surroundings : Surroundings) (world : World) :
    ∃ calls, (rehydrate request surroundings world).2 = run step world calls := by
  unfold rehydrate
  split
  · exact ⟨[], rfl⟩
  · dsimp only
    split <;> exact exists_run_send world surroundings.seed _

/-- An admission and the calls between its commands are a run of the scripts. -/
theorem exists_run_admitRequestBudget (request : Request) (surroundings : Surroundings)
    (world : World) :
    ∃ calls, (admitRequestBudget request surroundings world).2 = run step world calls := by
  obtain ⟨first, hfirst⟩ := exists_run_send world surroundings.first request.admitCall
  unfold admitRequestBudget
  dsimp only
  split
  · exact ⟨first, hfirst⟩
  · obtain ⟨seeding, hseeding⟩ := exists_run_rehydrate request surroundings
      (send world surroundings.first request.admitCall).2
    split_ifs
    · obtain ⟨retry, hretry⟩ := exists_run_send
        (rehydrate request surroundings (send world surroundings.first request.admitCall).2).2
        surroundings.retry request.admitCall
      refine ⟨first ++ seeding ++ retry, ?_⟩
      rw [run_append, run_append, ← hfirst, ← hseeding]
      exact hretry
    · refine ⟨first ++ seeding, ?_⟩
      rw [run_append, ← hfirst]
      exact hseeding

/-- Assumes: a consistent world. An admit command leaves the committed counters as they read. -/
theorem committedSpend_admission (hworld : Consistent world) (replica : ℕ) (keyId : Uuid)
    (reservationId : String) (amount : ℚ) (dailyLimit monthlyLimit : Option ℚ) (now : Date)
    (counter : CounterKey) :
    committedSpend (step world
      (.admitBudget replica keyId reservationId amount dailyLimit monthlyLimit now)) counter =
      committedSpend world counter := by
  rcases step_admit_cases hworld replica keyId reservationId amount dailyLimit monthlyLimit now with
    hsame | ⟨d, m, -, -, hd, hm, -, -, hadmitted⟩
  · rw [hsame]
  · rw [hadmitted, committedSpend]
    dsimp only
    rw [admittedStore_committed hd hm, committedSpend]

/-- The call arms a replica. -/
def arms (replica : ℕ) : Call → Bool
  | .arm other _ => decide (other = replica)
  | _ => false

/-- What the armings of a replica among some calls add to a committed counter. -/
def armingSpend (replica : ℕ) : World → List Call → CounterKey → ℚ
  | _, [], _ => 0
  | world, call :: rest, counter =>
    (if arms replica call then
      committedSpend (step world call) counter - committedSpend world counter else 0) +
      armingSpend replica (step world call) rest counter

/-- What an admit command and the armings of its replica before it add to a committed counter. -/
def sendSpend (request : Request) (exchange : Exchange) (world : World) (counter : CounterKey) :
    ℚ :=
  armingSpend request.replica world exchange.before counter +
    (committedSpend (send world exchange request.admitCall).2 counter -
      committedSpend (run step world exchange.before) counter)

/-- What an admission adds to a committed counter: its armings and its one or two admit commands.
Its seed is left out, which raises a counter to what the ledger has. -/
def admissionSpend (request : Request) (surroundings : Surroundings) (world : World)
    (counter : CounterKey) : ℚ :=
  let first := send world surroundings.first request.admitCall
  sendSpend request surroundings.first world counter +
    match decisionOf first.1 with
    | some _ => 0
    | none =>
      let rehydrated := rehydrate request surroundings first.2
      armingSpend request.replica first.2 surroundings.seed.before counter +
        if rehydrated.1 then sendSpend request surroundings.retry rehydrated.2 counter else 0

theorem armingSpend_eq_zero (replica : ℕ) (world : World) (calls : List Call)
    (counter : CounterKey) : armingSpend replica world calls counter = 0 := by
  induction calls generalizing world with
  | nil => rfl
  | cons call rest ih =>
    rw [armingSpend, ih, add_zero]
    cases call with
    | arm other candidate => rw [committedSpend_arm, sub_self, ite_self]
    | seed _ _ _ _ _ | admitBudget _ _ _ _ _ _ _ | finalize _ _ _ _ _ | release _ _ _ _
    | addSpend _ _ _ _ => rfl

/-- Assumes: a consistent world. An admit command adds nothing to a committed counter, whatever the
network does with it. -/
theorem sendSpend_eq_zero (hworld : Consistent world) (request : Request) (exchange : Exchange)
    (counter : CounterKey) : sendSpend request exchange world counter = 0 := by
  have hserved : Consistent (run step world exchange.before) :=
    run_invariant consistent_step exchange.before world hworld
  have hadmit := committedSpend_admission hserved request.replica request.keyId
    request.reservationId request.amount request.dailyLimit request.monthlyLimit request.now counter
  rw [sendSpend, armingSpend_eq_zero, zero_add, sub_eq_zero]
  unfold send
  cases exchange.fate with
  | delivered => exact hadmit
  | requestLost => rfl
  | replyLost => exact hadmit

/-- Assumes: a consistent world. An admission adds nothing to a committed counter. -/
theorem admissionSpend_eq_zero (hworld : Consistent world) (request : Request)
    (surroundings : Surroundings) (counter : CounterKey) :
    admissionSpend request surroundings world counter = 0 := by
  obtain ⟨first, hfirst⟩ := exists_run_send world surroundings.first request.admitCall
  obtain ⟨seeding, hseeding⟩ := exists_run_rehydrate request surroundings
    (send world surroundings.first request.admitCall).2
  have hrehydrated : Consistent (rehydrate request surroundings
      (send world surroundings.first request.admitCall).2).2 := by
    rw [hseeding, hfirst]
    exact run_invariant consistent_step _ _ (run_invariant consistent_step _ _ hworld)
  unfold admissionSpend
  rw [sendSpend_eq_zero hworld, zero_add]
  split
  · rfl
  · rw [armingSpend_eq_zero, zero_add, sendSpend_eq_zero hrehydrated, ite_self]

/-- Assumes: a consistent world, and seeds that the counters have reached already. The seed leaves
the committed counters as they read. -/
theorem committedSpend_seed (hworld : Consistent world) (replica : ℕ) {keyId : Uuid}
    {dailySpend monthlySpend : ℚ} {now : Date}
    (hdaily : dailySpend ≤ committedSpend world (dailyBudgetKey keyId now))
    (hmonthly : monthlySpend ≤ committedSpend world (monthlyBudgetKey keyId now))
    (counter : CounterKey) :
    committedSpend (step world (.seed replica keyId dailySpend monthlySpend now)) counter =
      committedSpend world counter := by
  rw [committedSpend]
  change (numberOr (some 0) ((world.gateway.seedBudgetCounters replica keyId dailySpend monthlySpend
    now).2.store (.committed counter))).getD 0 = _
  rcases seedBudgetCounters_cases world.gateway replica keyId dailySpend monthlySpend now with
    ⟨failure, hfailed⟩ | ⟨d, m, hd, hm, -, -, hseeded⟩
  · rw [hfailed, committedSpend]
  · obtain rfl := Option.some.inj (hd.symm.trans (numberOr_committed hworld _))
    obtain rfl := Option.some.inj (hm.symm.trans (numberOr_committed hworld _))
    rw [hseeded, read_seed]
    split_ifs with hcounter hcounter'
    · rw [hcounter, Option.getD_some]
      exact max_eq_left (max_le hmonthly (committedSpend_nonneg hworld _))
    · rw [hcounter', Option.getD_some]
      exact max_eq_left (max_le hdaily (committedSpend_nonneg hworld _))
    · rw [committedSpend]

/-! ### Settling -/

/-- Assumes: a consistent world, an outstanding reservation, a replica with an epoch and a
nonnegative cost. The finalization adds the cost to the counters of the reservation. -/
theorem committedSpend_finalize (hworld : Consistent world) {replica : ℕ} {keyId : Uuid}
    {reservationId : String} {admission : Admission}
    (hlookup : world.ledger.lookup (keyId, reservationId) = some admission)
    (harmed : world.gateway.epochs replica ≠ none) {actual : ℚ} (hactual : 0 ≤ actual) (now : Date)
    (counter : CounterKey) :
    committedSpend (step world (.finalize replica keyId reservationId actual now)) counter =
      committedSpend world counter +
        if Covers keyId admission.admittedAt counter then actual else 0 := by
  obtain ⟨epoch, hepoch⟩ := Option.ne_none_iff_exists'.mp harmed
  rcases step_finalize_cases hworld replica keyId reservationId actual now with
    hsame | ⟨other, -, hother, hclosed⟩
  · have hreply := finalizeReservation_outstanding hworld hlookup hepoch hactual
    have hledger : (step world (.finalize replica keyId reservationId actual now)).ledger.lookup
        (keyId, reservationId) = none := by
      change (world.ledger.record _ (world.gateway.finalizeReservation _ _ _ _).1).lookup _ = none
      rw [hreply]
      exact AList.lookup_erase _ _
    rw [hsame, hlookup] at hledger
    cases hledger
  · obtain rfl := Option.some.inj (hlookup.symm.trans hother)
    have hne : dailyBudgetKey keyId admission.admittedAt ≠
        monthlyBudgetKey keyId admission.admittedAt := by simp
    rw [hclosed, committedSpend, World.closed]
    dsimp only
    rw [finalizedStore_committed keyId reservationId hne _ _ _ _
      (numberOr_committed hworld counter),
      Option.getD_some]
    by_cases hcovers : counter = dailyBudgetKey keyId admission.admittedAt ∨
        counter = monthlyBudgetKey keyId admission.admittedAt
    · rw [if_pos hcovers]
      exact congrArg _ (if_pos hcovers).symm
    · rw [if_neg hcovers]
      exact (add_zero _).symm.trans (congrArg _ (if_neg hcovers).symm)

/-- What a committed counter reads as after one of them is incremented. -/
theorem read_incrByFloat {store : Store} {counter : CounterKey} {committed : ℚ}
    (hread : numberOr (some 0) (store (.committed counter)) = some committed)
    (written : CounterKey) (amount : ℚ) :
    numberOr (some 0) (store.incrByFloat (.committed written) amount (.committed counter)) =
      some (committed + if counter = written then amount else 0) := by
  rw [Store.incrByFloat, read_set_committed]
  split_ifs with hsame
  · rw [← hsame, hread, Option.getD_some]
  · rw [hread, add_zero]

/-- Assumes: a consistent world, a replica with an epoch and a nonnegative cost. The spend adds the
cost to the counters of its date. -/
theorem committedSpend_addSpend (hworld : Consistent world) {replica : ℕ}
    (harmed : world.gateway.epochs replica ≠ none) (keyId : Uuid) {cost : ℚ} (hcost : 0 ≤ cost)
    (now : Date) (counter : CounterKey) :
    committedSpend (step world (.addSpend replica keyId cost now)) counter =
      committedSpend world counter + if Covers keyId now counter then cost else 0 := by
  obtain ⟨epoch, hepoch⟩ := Option.ne_none_iff_exists'.mp harmed
  by_cases hpositive : cost ≤ 0
  · have hsame : step world (.addSpend replica keyId cost now) = world := by
      rw [step, perform, Gateway.addBudgetSpend, if_pos hpositive]
      rfl
    rw [hsame, le_antisymm hpositive hcost, ite_self, add_zero]
  · have hstore : (world.gateway.addBudgetSpend replica keyId cost now).2.store =
        (world.gateway.store.incrByFloat (.committed (dailyBudgetKey keyId now)) cost).incrByFloat
          (.committed (monthlyBudgetKey keyId now)) cost := by
      have hdaily := numberOr_committed hworld (dailyBudgetKey keyId now)
      have hmonthly := numberOr_committed hworld (monthlyBudgetKey keyId now)
      have hvalid : ¬(committedSpend world (dailyBudgetKey keyId now) < 0 ∨
          committedSpend world (monthlyBudgetKey keyId now) < 0) :=
        not_or.mpr ⟨not_lt.mpr (committedSpend_nonneg hworld _),
          not_lt.mpr (committedSpend_nonneg hworld _)⟩
      simp only [Gateway.addBudgetSpend, if_neg hpositive, Gateway.invoke, hepoch, addSpendScript,
        hworld.epoch replica epoch hepoch, ne_eq, not_true_eq_false, if_false, hdaily, hmonthly,
        if_neg hvalid, Except.map]
    have hread := read_incrByFloat (read_incrByFloat (numberOr_committed hworld counter)
      (dailyBudgetKey keyId now) cost) (monthlyBudgetKey keyId now) cost
    rw [← hstore] at hread
    rw [committedSpend]
    change (numberOr (some 0) ((world.gateway.addBudgetSpend replica keyId cost now).2.store
      (.committed counter))).getD 0 = _
    rw [hread, Option.getD_some, add_assoc]
    congr 1
    by_cases hday : counter = dailyBudgetKey keyId now
    · simp [hday, Covers]
    · simp [hday, Covers]

end Relayna.Budget.Settlement

import Mathlib.Tactic.Linarith
import Relayna.Budget.Scripts
import Relayna.Library.KeyedSum
import Relayna.Library.Table
import Relayna.Library.Transition

/-!
# Reserved counters are the outstanding reservations

The ledger is the abstract view of the budget scripts: the reservations that were admitted and have
not been finalized or released since, each with its amount and the date of its admission. It is
recorded from the calls and their replies alone (`Ledger.record`), and reads nothing of the store.
`World` runs the scripts and the ledger side by side.

`Consistent` links the two: every `:reserved` counter is the sum of the outstanding amounts admitted
against it, every reservation record is the record of one outstanding reservation, and every
counter an outstanding reservation needs is present. One lemma for each call shows that it keeps the
link, and `consistent_run` carries it along every interleaving. What a finalization can be answered
follows from the link (`finalizeScript_outstanding`).
-/

set_option autoImplicit false
set_option relaxedAutoImplicit false

namespace Relayna.Budget.Reservations

open Library.KeyedSum Library.Transition Scripts

/-! ### What each script can do -/

section Inversion

variable {store store' : Store} {daily monthly : CounterKey} {keyId : Uuid}
  {reservationId epoch : String}

/-- A successful seed found two nonnegative counters and raised them to the seeds. -/
theorem seedScript_ok {dailySpend monthlySpend : ℚ}
    (hok : seedScript daily monthly dailySpend monthlySpend epoch store = .ok store') :
    ∃ d m, numberOr (some 0) (store (.committed daily)) = some d ∧
      numberOr (some 0) (store (.committed monthly)) = some m ∧ 0 ≤ d ∧ 0 ≤ m ∧
      store' = (store.set (.committed daily) (.number (max d dailySpend))).set
        (.committed monthly) (.number (max m monthlySpend)) := by
  unfold seedScript at hok
  split_ifs at hok with hepoch
  split at hok
  · rename_i d m hd hm
    split_ifs at hok with hnegative
    push Not at hnegative
    exact ⟨d, m, hd, hm, hnegative.1, hnegative.2, (Except.ok.inj hok).symm⟩
  · exact absurd hok (by simp)

/-- A successful spend found two nonnegative counters and added the cost to both. -/
theorem addSpendScript_ok {cost : ℚ}
    (hok : addSpendScript daily monthly cost epoch store = .ok store') :
    ∃ d m, numberOr (some 0) (store (.committed daily)) = some d ∧
      numberOr (some 0) (store (.committed monthly)) = some m ∧ 0 ≤ d ∧ 0 ≤ m ∧
      store' = (store.incrByFloat (.committed daily) cost).incrByFloat
        (.committed monthly) cost := by
  unfold addSpendScript at hok
  split_ifs at hok with hepoch
  split at hok
  · rename_i d m hd hm
    split_ifs at hok with hnegative
    push Not at hnegative
    exact ⟨d, m, hd, hm, hnegative.1, hnegative.2, (Except.ok.inj hok).symm⟩
  · exact absurd hok (by simp)

/-- The store after an admission. -/
def admittedStore (store : Store) (keyId : Uuid) (reservationId : String)
    (daily monthly : CounterKey) (amount d m : ℚ) : Store :=
  (((store.set (.reservation keyId reservationId) (.record ⟨amount, daily, monthly, "v2"⟩)).set
    (.committed daily) (.number d)).set (.committed monthly) (.number m)).incrByFloat
      (.reserved daily) amount |>.incrByFloat (.reserved monthly) amount

/-- A successful admit script found no such reservation and four nonnegative counters. It either
refused the amount for one of the limits and changed nothing, or admitted it. -/
theorem admitScript_ok {amount : ℚ} {dailyLimit monthlyLimit : Option ℚ} {decision : BudgetDecision}
    (hok : admitScript keyId reservationId daily monthly amount dailyLimit monthlyLimit epoch
        store =
      .ok (decision, store')) :
    store (.reservation keyId reservationId) = none ∧
    ∃ d m dr mr, numberOr (some 0) (store (.committed daily)) = some d ∧
      numberOr (some 0) (store (.committed monthly)) = some m ∧
      numberOr (some 0) (store (.reserved daily)) = some dr ∧
      numberOr (some 0) (store (.reserved monthly)) = some mr ∧
      0 ≤ d ∧ 0 ≤ m ∧ 0 ≤ dr ∧ 0 ≤ mr ∧
      (((overLimit dailyLimit (d + dr) amount ∨ overLimit monthlyLimit (m + mr) amount) ∧
          decision = .exceeded ⟨d + dr, m + mr⟩ ∧ store' = store) ∨
        (overLimit dailyLimit (d + dr) amount = false ∧
          overLimit monthlyLimit (m + mr) amount = false ∧
          decision = .allowed ⟨d + dr + amount, m + mr + amount⟩ ∧
          store' = admittedStore store keyId reservationId daily monthly amount d m)) := by
  unfold admitScript at hok
  split_ifs at hok with hepoch hduplicate hrehydrate
  refine ⟨by simpa using hduplicate, ?_⟩
  split at hok
  · rename_i d m dr mr hd hm hdr hmr
    split_ifs at hok with hnegative hover
    · push Not at hnegative
      obtain ⟨hdecision, hstore⟩ := Prod.mk.inj (Except.ok.inj hok)
      exact ⟨d, m, dr, mr, hd, hm, hdr, hmr, hnegative.1, hnegative.2.1, hnegative.2.2.1,
        hnegative.2.2.2, .inl ⟨hover, hdecision.symm, hstore.symm⟩⟩
    · push Not at hnegative
      obtain ⟨hdecision, hstore⟩ := Prod.mk.inj (Except.ok.inj hok)
      simp only [not_or, Bool.not_eq_true] at hover
      exact ⟨d, m, dr, mr, hd, hm, hdr, hmr, hnegative.1, hnegative.2.1, hnegative.2.2.1,
        hnegative.2.2.2, .inr ⟨hover.1, hover.2, hdecision.symm, hstore.symm⟩⟩
  · exact absurd hok (by simp)

/-- The store after a finalization. -/
def finalizedStore (store : Store) (keyId : Uuid) (reservationId : String)
    (daily monthly : CounterKey) (amount actual dr mr : ℚ) : Store :=
  (((store.set (.reserved daily) (.number (max 0 (dr - amount)))).set
    (.reserved monthly) (.number (max 0 (mr - amount)))).incrByFloat (.committed daily) actual
      |>.incrByFloat (.committed monthly) actual).del (.reservation keyId reservationId)

/-- A successful finalize script either found no reservation and changed nothing, or found a record
with the counters it names and moved its amount. -/
theorem finalizeScript_ok {actual : ℚ} {count : ℕ}
    (hok : finalizeScript keyId reservationId actual epoch store = .ok (count, store')) :
    (store (.reservation keyId reservationId) = none ∧ count = 0 ∧ store' = store) ∨
    ∃ amount daily monthly dr mr,
      store (.reservation keyId reservationId) = some (.record ⟨amount, daily, monthly, "v2"⟩) ∧
      numberOr none (store (.reserved daily)) = some dr ∧
      numberOr none (store (.reserved monthly)) = some mr ∧ count = 1 ∧
      store' = finalizedStore store keyId reservationId daily monthly amount actual dr mr := by
  unfold finalizeScript at hok
  split_ifs at hok with hepoch
  split at hok
  · rename_i hnone
    obtain ⟨hcount, hstore⟩ := Prod.mk.inj (Except.ok.inj hok)
    exact .inl ⟨hnone, hcount.symm, hstore.symm⟩
  · rename_i amount daily monthly version hrecord
    split_ifs at hok with hversion
    split at hok
    · rename_i d m hd hm
      split_ifs at hok with hnegative
      split at hok
      · rename_i dr mr hdr hmr
        split_ifs at hok with hmissing
        obtain ⟨hcount, hstore⟩ := Prod.mk.inj (Except.ok.inj hok)
        have hv2 : version = "v2" := by
          by_contra hne
          exact hversion (.inr hne)
        rw [hv2] at hrecord
        exact .inr ⟨amount, daily, monthly, dr, mr, hrecord, hdr, hmr, hcount.symm, hstore.symm⟩
      · exact absurd hok (by simp)
    · exact absurd hok (by simp)
  · exact absurd hok (by simp)

/-- What arming a replica can do: nothing, or cache an epoch that is then the stored one and that no
other stored epoch was replaced by. The other keys keep their values. -/
theorem arm_cases (gateway : Gateway) (replica : ℕ) (candidate : String) :
    (gateway.arm replica candidate).2 = gateway ∨
    ∃ epoch, (gateway.arm replica candidate).2.epochs =
        Function.update gateway.epochs replica (some epoch) ∧
      (gateway.arm replica candidate).2.store .accountingEpoch = some (.text epoch) ∧
      (gateway.store .accountingEpoch = none ∨
        gateway.store .accountingEpoch = some (.text epoch)) ∧
      ∀ key, key ≠ .accountingEpoch →
        (gateway.arm replica candidate).2.store key = gateway.store key := by
  unfold Gateway.arm
  cases hcached : gateway.epochs replica with
  | some epoch => exact .inl rfl
  | none =>
    unfold epochScript
    cases hstored : gateway.store .accountingEpoch with
    | none =>
      refine .inr ⟨candidate, rfl, ?_, .inl rfl, fun key hkey ↦ ?_⟩
      · exact Store.set_self gateway.store .accountingEpoch (.text candidate)
      · exact @Store.set_of_ne gateway.store _ _ (.text candidate) hkey
    | some value =>
      have hnone : (⟨gateway.store, Function.update gateway.epochs replica none⟩ : Gateway) =
          gateway := by
        rw [← hcached, Function.update_eq_self]
      cases value with
      | text epoch => exact .inr ⟨epoch, rfl, hstored, .inr rfl, fun _ _ ↦ rfl⟩
      | number amount => exact .inl hnone
      | record reservation => exact .inl hnone

/-- What running a script with the epoch of a replica can do: fail without effect, or succeed with
the epoch the replica has cached. -/
theorem invoke_cases {Result : Type} (gateway : Gateway) (replica : ℕ)
    (script : String → Store → Except ScriptError Result) (reply : Result → Answer × Store) :
    (∃ failure, gateway.invoke replica (fun epoch store ↦ (script epoch store).map reply) =
      (.error failure, gateway)) ∨
    ∃ epoch result, gateway.epochs replica = some epoch ∧
      script epoch gateway.store = .ok result ∧
      gateway.invoke replica (fun epoch store ↦ (script epoch store).map reply) =
        (.ok (reply result).1, { gateway with store := (reply result).2 }) := by
  unfold Gateway.invoke
  cases hepoch : gateway.epochs replica with
  | none => exact .inl ⟨.notArmed, rfl⟩
  | some epoch =>
    cases hscript : script epoch gateway.store with
    | error error => exact .inl ⟨.script error, by simp [hscript, Except.map]⟩
    | ok result => exact .inr ⟨epoch, result, rfl, hscript, by simp [hscript, Except.map]⟩

/-- What a seed can do: fail without effect, or raise both counters to what the ledger has. -/
theorem seedBudgetCounters_cases (gateway : Gateway) (replica : ℕ) (keyId : Uuid)
    (dailySpend monthlySpend : ℚ) (now : Date) :
    (∃ failure, gateway.seedBudgetCounters replica keyId dailySpend monthlySpend now =
      (.error failure, gateway)) ∨
    ∃ d m, numberOr (some 0) (gateway.store (.committed (dailyBudgetKey keyId now))) = some d ∧
      numberOr (some 0) (gateway.store (.committed (monthlyBudgetKey keyId now))) = some m ∧
      0 ≤ d ∧ 0 ≤ m ∧
      gateway.seedBudgetCounters replica keyId dailySpend monthlySpend now =
        (.ok .done, ⟨(gateway.store.set (.committed (dailyBudgetKey keyId now))
          (.number (max d (max dailySpend 0)))).set (.committed (monthlyBudgetKey keyId now))
            (.number (max m (max monthlySpend 0))), gateway.epochs⟩) := by
  unfold Gateway.seedBudgetCounters
  rcases invoke_cases gateway replica (seedScript _ _ _ _) _ with ⟨failure, hfailed⟩ |
    ⟨epoch, store', -, hseed, hinvoke⟩
  · exact .inl ⟨failure, hfailed⟩
  · obtain ⟨d, m, hd, hm, hnonneg, hnonneg', rfl⟩ := seedScript_ok hseed
    exact .inr ⟨d, m, hd, hm, hnonneg, hnonneg', hinvoke⟩

/-- What a spend can do: leave the gateway as it is, or add a positive cost to both counters. -/
theorem addBudgetSpend_cases (gateway : Gateway) (replica : ℕ) (keyId : Uuid) (cost : ℚ)
    (now : Date) :
    (∃ reply, gateway.addBudgetSpend replica keyId cost now = (reply, gateway)) ∨
    (0 < cost ∧ gateway.addBudgetSpend replica keyId cost now =
      (.ok .done, ⟨(gateway.store.incrByFloat (.committed (dailyBudgetKey keyId now))
        cost).incrByFloat (.committed (monthlyBudgetKey keyId now)) cost, gateway.epochs⟩)) := by
  unfold Gateway.addBudgetSpend
  split_ifs with hcost
  · exact .inl ⟨_, rfl⟩
  · rcases invoke_cases gateway replica (addSpendScript _ _ _) _ with ⟨failure, hfailed⟩ |
      ⟨epoch, store', -, hspend, hinvoke⟩
    · exact .inl ⟨_, hfailed⟩
    · obtain ⟨d, m, -, -, -, -, rfl⟩ := addSpendScript_ok hspend
      exact .inr ⟨not_le.mp hcost, hinvoke⟩

/-- What an admission can do: answer something else than `Allowed` without effect, or open a
reservation. In the second case the amount is nonnegative, the reservation is new, and neither limit
stands against the amount. -/
theorem admitBudget_cases (gateway : Gateway) (replica : ℕ) (keyId : Uuid) (reservationId : String)
    (amount : ℚ) (dailyLimit monthlyLimit : Option ℚ) (now : Date) :
    (∃ reply, (∀ state, reply ≠ .ok (.decision (.allowed state))) ∧
      gateway.admitBudget replica keyId reservationId amount dailyLimit monthlyLimit now =
        (reply, gateway)) ∨
    ∃ d m dr mr, 0 ≤ amount ∧ gateway.store (.reservation keyId reservationId) = none ∧
      numberOr (some 0) (gateway.store (.committed (dailyBudgetKey keyId now))) = some d ∧
      numberOr (some 0) (gateway.store (.committed (monthlyBudgetKey keyId now))) = some m ∧
      numberOr (some 0) (gateway.store (.reserved (dailyBudgetKey keyId now))) = some dr ∧
      numberOr (some 0) (gateway.store (.reserved (monthlyBudgetKey keyId now))) = some mr ∧
      overLimit dailyLimit (d + dr) amount = false ∧
      overLimit monthlyLimit (m + mr) amount = false ∧
      gateway.admitBudget replica keyId reservationId amount dailyLimit monthlyLimit now =
        (.ok (.decision (.allowed ⟨d + dr + amount, m + mr + amount⟩)),
          ⟨admittedStore gateway.store keyId reservationId (dailyBudgetKey keyId now)
            (monthlyBudgetKey keyId now) amount d m, gateway.epochs⟩) := by
  unfold Gateway.admitBudget
  split_ifs with hargument
  · exact .inl ⟨_, by simp, rfl⟩
  · rw [not_or, not_lt] at hargument
    rcases invoke_cases gateway replica (admitScript keyId reservationId (dailyBudgetKey keyId now)
      (monthlyBudgetKey keyId now) amount dailyLimit monthlyLimit)
      (fun result ↦ (.decision result.1, result.2)) with
      ⟨failure, hfailed⟩ | ⟨epoch, ⟨decision, store'⟩, -, hadmitted, hinvoke⟩
    · exact .inl ⟨_, by simp, hfailed⟩
    · obtain ⟨hfresh, d, m, dr, mr, hd, hm, hdr, hmr, -, -, -, -, hdecision⟩ :=
        admitScript_ok hadmitted
      rcases hdecision with ⟨-, rfl, rfl⟩ | ⟨hdaily, hmonthly, rfl, rfl⟩
      · exact .inl ⟨_, by simp, hinvoke⟩
      · exact .inr ⟨d, m, dr, mr, hargument.1, hfresh, hd, hm, hdr, hmr, hdaily, hmonthly, hinvoke⟩

/-- What a finalization can do: fail without effect, find no reservation, or close one. -/
theorem finalizeReservation_cases (gateway : Gateway) (replica : ℕ) (keyId : Uuid)
    (reservationId : String) (actual : ℚ) :
    (∃ failure, gateway.finalizeReservation replica keyId reservationId actual =
      (.error failure, gateway)) ∨
    (gateway.store (.reservation keyId reservationId) = none ∧
      gateway.finalizeReservation replica keyId reservationId actual =
        (.ok (.finalized 0), gateway)) ∨
    ∃ amount daily monthly dr mr, 0 ≤ actual ∧
      gateway.store (.reservation keyId reservationId) =
        some (.record ⟨amount, daily, monthly, "v2"⟩) ∧
      numberOr none (gateway.store (.reserved daily)) = some dr ∧
      numberOr none (gateway.store (.reserved monthly)) = some mr ∧
      gateway.finalizeReservation replica keyId reservationId actual =
        (.ok (.finalized 1), ⟨finalizedStore gateway.store keyId reservationId daily monthly amount
          actual dr mr, gateway.epochs⟩) := by
  unfold Gateway.finalizeReservation
  split_ifs with hactual
  · exact .inl ⟨_, rfl⟩
  · rw [not_lt] at hactual
    rcases invoke_cases gateway replica (finalizeScript keyId reservationId actual)
      (fun result ↦ (.finalized result.1, result.2)) with
      ⟨failure, hfailed⟩ | ⟨epoch, ⟨count, store'⟩, -, hfinalize, hinvoke⟩
    · exact .inl ⟨failure, hfailed⟩
    · rcases finalizeScript_ok hfinalize with ⟨hnone, rfl, rfl⟩ |
        ⟨amount, daily, monthly, dr, mr, hrecord, hdr, hmr, rfl, rfl⟩
      · exact .inr (.inl ⟨hnone, hinvoke⟩)
      · exact .inr (.inr ⟨amount, daily, monthly, dr, mr, hactual, hrecord, hdr, hmr, hinvoke⟩)

end Inversion

/-! ### The ledger -/

/-- An admitted reservation: its amount and the date of its admission, which fixes the counters. -/
structure Admission where
  amount : ℚ
  admittedAt : Date

/-- The outstanding reservations, by virtual key and reservation id. -/
abbrev Ledger := AList fun _ : Uuid × String ↦ Admission

/-- What a call and its reply do to the outstanding reservations: an admission that was allowed
opens one, and a finalization or release that was answered closes it. -/
def Ledger.record (ledger : Ledger) : Call → Reply → Ledger
  | .admitBudget _ keyId reservationId amount _ _ now, .ok (.decision (.allowed _)) =>
    ledger.insert (keyId, reservationId) ⟨amount, now⟩
  | .finalize _ keyId reservationId _ _, .ok (.finalized _) => ledger.erase (keyId, reservationId)
  | .release _ keyId reservationId _, .ok (.finalized _) => ledger.erase (keyId, reservationId)
  | _, _ => ledger

/-- The reservation with key `key` was admitted against a counter. -/
def Admission.against (key : Uuid × String) (admission : Admission) (counter : CounterKey) : Prop :=
  counter = dailyBudgetKey key.1 admission.admittedAt ∨
    counter = monthlyBudgetKey key.1 admission.admittedAt
  deriving Decidable

/-- What an outstanding reservation contributes to a counter. -/
def Admission.charge (counter : CounterKey) (key : Uuid × String) (admission : Admission) : ℚ :=
  if admission.against key counter then admission.amount else 0

/-- The sum of the amounts of the outstanding reservations admitted against a counter. -/
def Ledger.outstanding (ledger : Ledger) (counter : CounterKey) : ℚ :=
  total (Admission.charge counter) ledger

/-- The record of an outstanding reservation. -/
def Admission.toRecord (keyId : Uuid) (admission : Admission) : ReservationRecord where
  amount := admission.amount
  daily := dailyBudgetKey keyId admission.admittedAt
  monthly := monthlyBudgetKey keyId admission.admittedAt
  version := "v2"

/-- The scripts and the ledger side by side. -/
structure World where
  gateway : Gateway
  ledger : Ledger

/-- No store, no epoch, no reservation. -/
def World.initial : World where
  gateway := Gateway.initial
  ledger := ∅

/-- One call: run it and record its reply. -/
def step (world : World) (call : Call) : World where
  gateway := (perform world.gateway call).2
  ledger := world.ledger.record call (perform world.gateway call).1

/-! ### The link between the store and the ledger -/

/-- Every committed counter of a store reads as a nonnegative amount. -/
def CommittedNonneg (store : Store) : Prop :=
  ∀ counter, ∃ amount, 0 ≤ amount ∧
    numberOr (some 0) (store (.committed counter)) = some amount

/-- The store holds exactly what the outstanding reservations account for. -/
structure Consistent (world : World) : Prop where
  epoch : ∀ replica epoch, world.gateway.epochs replica = some epoch →
    world.gateway.store .accountingEpoch = some (.text epoch)
  committed : CommittedNonneg world.gateway.store
  reserved : ∀ counter, numberOr (some 0) (world.gateway.store (.reserved counter)) =
    some (world.ledger.outstanding counter)
  record : ∀ keyId reservationId, world.gateway.store (.reservation keyId reservationId) =
    (world.ledger.lookup (keyId, reservationId)).map fun admission ↦
      .record (admission.toRecord keyId)
  nonneg : ∀ key admission, world.ledger.lookup key = some admission → 0 ≤ admission.amount
  present : ∀ key admission counter, world.ledger.lookup key = some admission →
    admission.against key counter →
      (world.gateway.store (.committed counter)).isSome ∧
        (world.gateway.store (.reserved counter)).isSome

/-- The initial world is consistent. -/
theorem consistent_initial : Consistent World.initial where
  epoch := fun _ _ hepoch ↦ absurd hepoch (by simp [World.initial, Gateway.initial])
  committed := fun _ ↦ ⟨0, le_refl 0, rfl⟩
  reserved := fun _ ↦ rfl
  record := fun _ _ ↦ rfl
  nonneg := fun _ _ hlookup ↦ absurd hlookup (by simp [World.initial])
  present := fun _ _ _ hlookup ↦ absurd hlookup (by simp [World.initial])

section Link

variable {world : World}

/-- A counter that the store holds is read the same whatever the default is. -/
theorem numberOr_of_isSome {value : Option RedisValue} (hvalue : value.isSome)
    (absent absent' : Option ℚ) : numberOr absent value = numberOr absent' value := by
  obtain ⟨content, rfl⟩ := Option.isSome_iff_exists.mp hvalue
  cases content <;> rfl

/-- The amounts outstanding against a counter are nonnegative. -/
theorem charge_nonneg (hworld : Consistent world) (counter : CounterKey) (key : Uuid × String)
    (admission : Admission) (hlookup : world.ledger.lookup key = some admission) :
    0 ≤ admission.charge counter key := by
  unfold Admission.charge
  split_ifs with hagainst
  · exact hworld.nonneg key admission hlookup
  · exact le_refl 0

/-- The sum outstanding against a counter is nonnegative. -/
theorem outstanding_nonneg (hworld : Consistent world) (counter : CounterKey) :
    0 ≤ world.ledger.outstanding counter :=
  total_nonneg _ (charge_nonneg hworld counter)

/-- An outstanding amount is at most the sum outstanding against each of its counters. -/
theorem amount_le_outstanding (hworld : Consistent world) {key : Uuid × String}
    {admission : Admission} (hlookup : world.ledger.lookup key = some admission)
    {counter : CounterKey} (hagainst : admission.against key counter) :
    admission.amount ≤ world.ledger.outstanding counter := by
  have hcharge := measure_le_total _ (charge_nonneg hworld counter) hlookup
  rwa [Admission.charge, if_pos hagainst] at hcharge

/-- Assumes: a consistent world, and a store that differs from its store at committed counters only,
holds every counter that store holds and reads nonnegative amounts. The world with that store is
consistent. -/
theorem Consistent.of_committed (hworld : Consistent world) {store' : Store}
    (hepoch : store' .accountingEpoch = world.gateway.store .accountingEpoch)
    (hreserved : ∀ counter, store' (.reserved counter) = world.gateway.store (.reserved counter))
    (hrecord : ∀ keyId reservationId, store' (.reservation keyId reservationId) =
      world.gateway.store (.reservation keyId reservationId))
    (hcommitted : CommittedNonneg store')
    (hpresent : ∀ counter, (world.gateway.store (.committed counter)).isSome →
      (store' (.committed counter)).isSome) :
    Consistent ⟨{ world.gateway with store := store' }, world.ledger⟩ where
  epoch := fun replica epoch hcached ↦ hepoch.trans (hworld.epoch replica epoch hcached)
  committed := hcommitted
  reserved := fun counter ↦ by
    show numberOr (some 0) (store' (.reserved counter)) = _
    rw [hreserved]
    exact hworld.reserved counter
  record := fun keyId reservationId ↦
    (hrecord keyId reservationId).trans (hworld.record keyId reservationId)
  nonneg := hworld.nonneg
  present := fun key admission counter hlookup hagainst ↦ by
    obtain ⟨hcounter, hsum⟩ := hworld.present key admission counter hlookup hagainst
    refine ⟨hpresent counter hcounter, ?_⟩
    show (store' (.reserved counter)).isSome
    rw [hreserved]
    exact hsum

/-- Arming a replica keeps the world consistent: the epoch it caches is the stored one, and a store
without an epoch has no replica with a cached one. -/
theorem consistent_arm (hworld : Consistent world) (replica : ℕ) (candidate : String) :
    Consistent ⟨(world.gateway.arm replica candidate).2, world.ledger⟩ := by
  rcases arm_cases world.gateway replica candidate with hsame | ⟨epoch, hepochs, hnew, hold, hother⟩
  · rw [hsame]
    exact hworld
  · refine {
      epoch := fun other cached hcached ↦ ?_
      committed := fun counter ↦ ?_
      reserved := fun counter ↦ ?_
      record := fun keyId reservationId ↦ ?_
      nonneg := hworld.nonneg
      present := fun key admission counter hlookup hagainst ↦ ?_ }
    · show (world.gateway.arm replica candidate).2.store .accountingEpoch = _
      change (world.gateway.arm replica candidate).2.epochs other = some cached at hcached
      rw [hepochs, Function.update_apply] at hcached
      split_ifs at hcached with hreplica
      · rw [hnew, Option.some.inj hcached]
      · have hstored := hworld.epoch other cached hcached
        rcases hold with hnone | htext
        · exact absurd hstored (by rw [hnone]; simp)
        · rw [hnew, ← htext, hstored]
    · simpa only [hother (.committed counter) (by simp)] using hworld.committed counter
    · simpa only [hother (.reserved counter) (by simp)] using hworld.reserved counter
    · simpa only [hother (.reservation keyId reservationId) (by simp)] using
        hworld.record keyId reservationId
    · simpa only [hother (.committed counter) (by simp), hother (.reserved counter) (by simp)]
        using hworld.present key admission counter hlookup hagainst

/-- A key that holds a value still holds one after another key is set. -/
theorem isSome_set {store : Store} {key key' : RedisKey} (value : RedisValue)
    (hkey : (store key').isSome) : (store.set key value key').isSome := by
  by_cases hsame : key' = key
  · rw [hsame, Store.set_self]
    rfl
  · rwa [Store.set_of_ne value hsame]

/-- Writing a nonnegative amount to a committed counter keeps the committed counters
nonnegative. -/
theorem CommittedNonneg.set {store : Store} (hstore : CommittedNonneg store) (counter : CounterKey)
    {amount : ℚ} (hamount : 0 ≤ amount) :
    CommittedNonneg (store.set (.committed counter) (.number amount)) := by
  intro other
  by_cases hsame : other = counter
  · rw [hsame, Store.set_self]
    exact ⟨amount, hamount, rfl⟩
  · rw [Store.set_of_ne _ (by simpa using hsame)]
    exact hstore other

/-- Adding a nonnegative amount to a committed counter keeps the committed counters
nonnegative. -/
theorem CommittedNonneg.incrByFloat {store : Store} (hstore : CommittedNonneg store)
    (counter : CounterKey) {amount : ℚ} (hamount : 0 ≤ amount) :
    CommittedNonneg (store.incrByFloat (.committed counter) amount) := by
  obtain ⟨current, hcurrent, hread⟩ := hstore counter
  refine hstore.set counter ?_
  rw [hread]
  exact add_nonneg hcurrent hamount

/-- A seed keeps the world consistent. -/
theorem consistent_seed (hworld : Consistent world) (replica : ℕ) (keyId : Uuid)
    (dailySpend monthlySpend : ℚ) (now : Date) :
    Consistent ⟨(world.gateway.seedBudgetCounters replica keyId dailySpend monthlySpend now).2,
      world.ledger⟩ := by
  rcases seedBudgetCounters_cases world.gateway replica keyId dailySpend monthlySpend now with
    ⟨failure, hfailed⟩ | ⟨d, m, -, -, hd, hm, hseeded⟩
  · rw [hfailed]
    exact hworld
  · rw [hseeded]
    refine hworld.of_committed ?_ (fun counter ↦ ?_) (fun keyId' reservationId ↦ ?_) ?_
      fun counter hcounter ↦ ?_
    · simp [Store.set_of_ne]
    · simp [Store.set_of_ne]
    · simp [Store.set_of_ne]
    · exact (hworld.committed.set _ (le_max_of_le_left hd)).set _ (le_max_of_le_left hm)
    · exact isSome_set _ (isSome_set _ hcounter)

/-- A spend keeps the world consistent. -/
theorem consistent_addSpend (hworld : Consistent world) (replica : ℕ) (keyId : Uuid) (cost : ℚ)
    (now : Date) :
    Consistent ⟨(world.gateway.addBudgetSpend replica keyId cost now).2, world.ledger⟩ := by
  rcases addBudgetSpend_cases world.gateway replica keyId cost now with ⟨reply, hsame⟩ |
    ⟨hcost, hspent⟩
  · rw [hsame]
    exact hworld
  · rw [hspent]
    refine hworld.of_committed ?_ (fun counter ↦ ?_) (fun keyId' reservationId ↦ ?_) ?_
      fun counter hcounter ↦ ?_
    · simp [Store.incrByFloat, Store.set_of_ne]
    · simp [Store.incrByFloat, Store.set_of_ne]
    · simp [Store.incrByFloat, Store.set_of_ne]
    · exact (hworld.committed.incrByFloat _ hcost.le).incrByFloat _ hcost.le
    · exact isSome_set _ (isSome_set _ hcounter)

/-- The committed counters after an admission are those it has read. -/
theorem admittedStore_committed {store : Store} {keyId : Uuid} {reservationId : String}
    {daily monthly : CounterKey} {amount d m : ℚ}
    (hd : numberOr (some 0) (store (.committed daily)) = some d)
    (hm : numberOr (some 0) (store (.committed monthly)) = some m) (counter : CounterKey) :
    numberOr (some 0) (admittedStore store keyId reservationId daily monthly amount d m
      (.committed counter)) = numberOr (some 0) (store (.committed counter)) := by
  unfold admittedStore Store.incrByFloat
  rw [Store.set_of_ne _ (by simp), Store.set_of_ne _ (by simp)]
  by_cases hmonthly : counter = monthly
  · rw [hmonthly, Store.set_self, hm]
    rfl
  · rw [Store.set_of_ne _ (by simpa using hmonthly)]
    by_cases hdaily : counter = daily
    · rw [hdaily, Store.set_self, hd]
      rfl
    · rw [Store.set_of_ne _ (by simpa using hdaily), Store.set_of_ne _ (by simp)]

/-- The reserved counters after an admission: those of the reservation grow by its amount. -/
theorem admittedStore_reserved {store : Store} {keyId : Uuid} {reservationId : String}
    {daily monthly : CounterKey} {amount d m dr mr : ℚ} (hne : daily ≠ monthly)
    (hdr : numberOr (some 0) (store (.reserved daily)) = some dr)
    (hmr : numberOr (some 0) (store (.reserved monthly)) = some mr) (counter : CounterKey) :
    admittedStore store keyId reservationId daily monthly amount d m (.reserved counter) =
      if counter = daily then some (.number (dr + amount))
      else if counter = monthly then some (.number (mr + amount))
      else store (.reserved counter) := by
  have hne' : RedisKey.reserved monthly ≠ .reserved daily := by simpa using hne.symm
  unfold admittedStore Store.incrByFloat
  by_cases hdaily : counter = daily
  · rw [if_pos hdaily, hdaily, Store.set_of_ne _ hne'.symm, Store.set_self,
      Store.set_of_ne _ (by simp), Store.set_of_ne _ (by simp), Store.set_of_ne _ (by simp), hdr]
    rfl
  · rw [if_neg hdaily]
    by_cases hmonthly : counter = monthly
    · rw [if_pos hmonthly, hmonthly, Store.set_self, Store.set_of_ne _ hne',
        Store.set_of_ne _ (by simp), Store.set_of_ne _ (by simp), Store.set_of_ne _ (by simp), hmr]
      rfl
    · rw [if_neg hmonthly, Store.set_of_ne _ (by simpa using hmonthly),
        Store.set_of_ne _ (by simpa using hdaily), Store.set_of_ne _ (by simp),
        Store.set_of_ne _ (by simp), Store.set_of_ne _ (by simp)]

/-- The reservation records after an admission: the new one, and the others unchanged. -/
theorem admittedStore_reservation {store : Store} {keyId keyId' : Uuid}
    {reservationId reservationId' : String} {daily monthly : CounterKey} {amount : ℚ} (d m : ℚ) :
    admittedStore store keyId reservationId daily monthly amount d m
        (.reservation keyId' reservationId') =
      if (keyId', reservationId') = (keyId, reservationId) then
        some (.record ⟨amount, daily, monthly, "v2"⟩)
      else store (.reservation keyId' reservationId') := by
  unfold admittedStore Store.incrByFloat
  rw [Store.set_of_ne _ (by simp), Store.set_of_ne _ (by simp), Store.set_of_ne _ (by simp),
    Store.set_of_ne _ (by simp)]
  split_ifs with hsame
  · rw [(Prod.mk.inj hsame).1, (Prod.mk.inj hsame).2, Store.set_self]
  · exact Store.set_of_ne _ (by simpa using hsame)

/-- An admission deletes no key. -/
theorem isSome_admittedStore {store : Store} {keyId : Uuid} {reservationId : String}
    {daily monthly : CounterKey} {amount d m : ℚ} {key : RedisKey} (hkey : (store key).isSome) :
    (admittedStore store keyId reservationId daily monthly amount d m key).isSome :=
  isSome_set _ (isSome_set _ (isSome_set _ (isSome_set _ (isSome_set _ hkey))))

/-- After an admission the store holds the counters of the reservation. -/
theorem admittedStore_present {store : Store} {keyId : Uuid} {reservationId : String}
    {daily monthly counter : CounterKey} {amount d m : ℚ}
    (hcounter : counter = daily ∨ counter = monthly) :
    (admittedStore store keyId reservationId daily monthly amount d m (.committed counter)).isSome ∧
      (admittedStore store keyId reservationId daily monthly amount d m
        (.reserved counter)).isSome := by
  unfold admittedStore Store.incrByFloat
  rcases hcounter with rfl | rfl
  · refine ⟨isSome_set _ (isSome_set _ (isSome_set _ ?_)), isSome_set _ ?_⟩
    · rw [Store.set_self]
      rfl
    · rw [Store.set_self]
      rfl
  · refine ⟨isSome_set _ (isSome_set _ ?_), ?_⟩
    · rw [Store.set_self]
      rfl
    · rw [Store.set_self]
      rfl

/-- An admission that was not allowed is not recorded. -/
theorem record_admit_of_not_allowed (ledger : Ledger) {replica : ℕ} {keyId : Uuid}
    {reservationId : String} {amount : ℚ} {dailyLimit monthlyLimit : Option ℚ} {now : Date}
    {reply : Reply} (hreply : ∀ state, reply ≠ .ok (.decision (.allowed state))) :
    ledger.record (.admitBudget replica keyId reservationId amount dailyLimit monthlyLimit now)
      reply =
      ledger := by
  unfold Ledger.record
  split
  · rename_i state hcall
    exact absurd rfl (hreply state)
  · rename_i hcall
    simp at hcall
  · rename_i hcall
    simp at hcall
  · rfl

/-- What an admission can do to the world: nothing, or open a reservation that neither limit stands
against. Assumes: a consistent world, so that the reserved counters read as the sums outstanding. -/
theorem step_admit_cases (hworld : Consistent world) (replica : ℕ) (keyId : Uuid)
    (reservationId : String) (amount : ℚ) (dailyLimit monthlyLimit : Option ℚ) (now : Date) :
    step world (.admitBudget replica keyId reservationId amount dailyLimit monthlyLimit now) =
      world ∨
    ∃ d m, 0 ≤ amount ∧ (keyId, reservationId) ∉ world.ledger ∧
      numberOr (some 0) (world.gateway.store (.committed (dailyBudgetKey keyId now))) = some d ∧
      numberOr (some 0) (world.gateway.store (.committed (monthlyBudgetKey keyId now))) = some m ∧
      overLimit dailyLimit (d + world.ledger.outstanding (dailyBudgetKey keyId now)) amount =
        false ∧
      overLimit monthlyLimit (m + world.ledger.outstanding (monthlyBudgetKey keyId now)) amount =
        false ∧
      step world (.admitBudget replica keyId reservationId amount dailyLimit monthlyLimit now) =
        ⟨⟨admittedStore world.gateway.store keyId reservationId (dailyBudgetKey keyId now)
            (monthlyBudgetKey keyId now) amount d m, world.gateway.epochs⟩,
          world.ledger.insert (keyId, reservationId) ⟨amount, now⟩⟩ := by
  unfold step
  simp only [perform]
  rcases admitBudget_cases world.gateway replica keyId reservationId amount dailyLimit monthlyLimit
    now with ⟨reply, hreply, hsame⟩ | ⟨d, m, dr, mr, hamount, hfresh, hd, hm, hdr, hmr, hdaily,
      hmonthly, hadmitted⟩
  · refine .inl ?_
    rw [hsame, record_admit_of_not_allowed world.ledger hreply]
  · obtain rfl := Option.some.inj (hdr.symm.trans (hworld.reserved _))
    obtain rfl := Option.some.inj (hmr.symm.trans (hworld.reserved _))
    have hnew : (keyId, reservationId) ∉ world.ledger := by
      rw [← AList.lookup_eq_none]
      have hrecord := hworld.record keyId reservationId
      rw [hfresh] at hrecord
      exact Option.map_eq_none_iff.mp hrecord.symm
    refine .inr ⟨d, m, hamount, hnew, hd, hm, hdaily, hmonthly, ?_⟩
    rw [hadmitted]
    rfl

/-- An admission keeps the world consistent. -/
theorem consistent_admitBudget (hworld : Consistent world) (replica : ℕ) (keyId : Uuid)
    (reservationId : String) (amount : ℚ) (dailyLimit monthlyLimit : Option ℚ) (now : Date) :
    Consistent
      (step world (.admitBudget replica keyId reservationId amount dailyLimit
        monthlyLimit now)) := by
  rcases step_admit_cases hworld replica keyId reservationId amount dailyLimit monthlyLimit now with
    hsame | ⟨d, m, hamount, hnew, hd, hm, -, -, hadmitted⟩
  · rw [hsame]
    exact hworld
  · rw [hadmitted]
    have hne : dailyBudgetKey keyId now ≠ monthlyBudgetKey keyId now := by simp
    have hreserved := fun counter ↦ @admittedStore_reserved world.gateway.store keyId
      reservationId _ _ amount d m _ _ hne (hworld.reserved _) (hworld.reserved _) counter
    refine {
      epoch := fun other cached hcached ↦ ?_
      committed := fun counter ↦ ?_
      reserved := fun counter ↦ ?_
      record := fun keyId' reservationId' ↦ ?_
      nonneg := fun key admission hlookup ↦ ?_
      present := fun key admission counter hlookup hagainst ↦ ?_ }
    · exact hworld.epoch other cached hcached
    · obtain ⟨current, hcurrent, hread⟩ := hworld.committed counter
      exact ⟨current, hcurrent, (admittedStore_committed hd hm counter).trans hread⟩
    · show numberOr (some 0) (admittedStore _ _ _ _ _ _ d m (.reserved counter)) =
        some (total (Admission.charge counter) (world.ledger.insert _ _))
      have hold := hworld.reserved counter
      rw [hreserved, total_insert_of_notMem _ hnew, Admission.charge]
      by_cases hdaily : counter = dailyBudgetKey keyId now
      · rw [if_pos hdaily, if_pos (.inl hdaily), hdaily, add_comm]
        rfl
      · by_cases hmonthly : counter = monthlyBudgetKey keyId now
        · rw [if_neg hdaily, if_pos hmonthly, if_pos (.inr hmonthly), hmonthly, add_comm]
          rfl
        · rw [if_neg hdaily, if_neg hmonthly, if_neg (fun h ↦ h.elim hdaily hmonthly), zero_add]
          exact hold
    · refine (admittedStore_reservation d m).trans ?_
      show _ = Option.map _ ((world.ledger.insert (keyId, reservationId) ⟨amount, now⟩).lookup
        (keyId', reservationId'))
      by_cases hsame : (keyId', reservationId') = (keyId, reservationId)
      · rw [if_pos hsame, hsame, AList.lookup_insert, (Prod.mk.inj hsame).1]
        rfl
      · rw [if_neg hsame, AList.lookup_insert_ne hsame]
        exact hworld.record keyId' reservationId'
    · rcases Library.Table.lookup_insert_cases hlookup with ⟨-, rfl⟩ | ⟨-, hold⟩
      · exact hamount
      · exact hworld.nonneg key admission hold
    · rcases Library.Table.lookup_insert_cases hlookup with ⟨rfl, rfl⟩ | ⟨-, hold⟩
      · exact admittedStore_present hagainst
      · obtain ⟨hcommitted, hsum⟩ := hworld.present key admission counter hold hagainst
        exact ⟨isSome_admittedStore hcommitted, isSome_admittedStore hsum⟩

/-- The reserved counters after a finalization: those of the record drop by its amount, clamped at
zero. -/
theorem finalizedStore_reserved {store : Store} {keyId : Uuid} {reservationId : String}
    {daily monthly : CounterKey} {amount actual dr mr : ℚ} (hne : daily ≠ monthly)
    (counter : CounterKey) :
    finalizedStore store keyId reservationId daily monthly amount actual dr mr (.reserved counter) =
      if counter = daily then some (.number (max 0 (dr - amount)))
      else if counter = monthly then some (.number (max 0 (mr - amount)))
      else store (.reserved counter) := by
  unfold finalizedStore Store.incrByFloat
  rw [Store.del_of_ne (by simp), Store.set_of_ne _ (by simp), Store.set_of_ne _ (by simp)]
  by_cases hdaily : counter = daily
  · rw [if_pos hdaily, hdaily, Store.set_of_ne _ (by simpa using hne), Store.set_self]
  · rw [if_neg hdaily]
    by_cases hmonthly : counter = monthly
    · rw [if_pos hmonthly, hmonthly, Store.set_self]
    · rw [if_neg hmonthly, Store.set_of_ne _ (by simpa using hmonthly),
        Store.set_of_ne _ (by simpa using hdaily)]

/-- The reservation records after a finalization: one is gone, the others are unchanged. -/
theorem finalizedStore_reservation {store : Store} {keyId keyId' : Uuid}
    {reservationId reservationId' : String} {daily monthly : CounterKey} {amount : ℚ}
    (actual dr mr : ℚ) :
    finalizedStore store keyId reservationId daily monthly amount actual dr mr
        (.reservation keyId' reservationId') =
      if (keyId', reservationId') = (keyId, reservationId) then none
      else store (.reservation keyId' reservationId') := by
  unfold finalizedStore Store.incrByFloat
  split_ifs with hsame
  · rw [(Prod.mk.inj hsame).1, (Prod.mk.inj hsame).2, Store.del_self]
  · rw [Store.del_of_ne (by simpa using hsame), Store.set_of_ne _ (by simp),
      Store.set_of_ne _ (by simp), Store.set_of_ne _ (by simp), Store.set_of_ne _ (by simp)]

/-- The committed counters after a finalization are nonnegative. -/
theorem committedNonneg_finalizedStore {store : Store} {keyId : Uuid} {reservationId : String}
    {daily monthly : CounterKey} {amount actual dr mr : ℚ} (hstore : CommittedNonneg store)
    (hactual : 0 ≤ actual) :
    CommittedNonneg (finalizedStore store keyId reservationId daily monthly amount
      actual dr mr) := by
  have hreserved : CommittedNonneg ((store.set (.reserved daily)
      (.number (max 0 (dr - amount)))).set (.reserved monthly)
        (.number (max 0 (mr - amount)))) := by
    intro counter
    rw [Store.set_of_ne _ (by simp), Store.set_of_ne _ (by simp)]
    exact hstore counter
  intro counter
  unfold finalizedStore
  rw [Store.del_of_ne (by simp)]
  exact (hreserved.incrByFloat daily hactual).incrByFloat monthly hactual counter

/-- A finalization deletes no key but the reservation. -/
theorem isSome_finalizedStore {store : Store} (keyId : Uuid) (reservationId : String)
    {daily monthly : CounterKey} {amount : ℚ} (actual dr mr : ℚ) {key : RedisKey}
    (hne : key ≠ .reservation keyId reservationId) (hkey : (store key).isSome) :
    (finalizedStore store keyId reservationId daily monthly amount actual dr mr key).isSome := by
  unfold finalizedStore
  rw [Store.del_of_ne hne]
  exact isSome_set _ (isSome_set _ (isSome_set _ (isSome_set _ hkey)))

/-- Assumes: a consistent world and an outstanding reservation. The store holds its record, and both
reserved counters it names hold the sums outstanding against them. -/
theorem outstanding_reads (hworld : Consistent world) {keyId : Uuid} {reservationId : String}
    {admission : Admission}
    (hlookup : world.ledger.lookup (keyId, reservationId) = some admission) :
    world.gateway.store (.reservation keyId reservationId) =
        some (.record (admission.toRecord keyId)) ∧
      numberOr none (world.gateway.store (.reserved (dailyBudgetKey keyId admission.admittedAt))) =
        some (world.ledger.outstanding (dailyBudgetKey keyId admission.admittedAt)) ∧
      numberOr none (world.gateway.store
          (.reserved (monthlyBudgetKey keyId admission.admittedAt))) =
        some (world.ledger.outstanding (monthlyBudgetKey keyId admission.admittedAt)) := by
  refine ⟨?_, ?_, ?_⟩
  · rw [hworld.record, hlookup]
    rfl
  · rw [numberOr_of_isSome (hworld.present _ _ _ hlookup (.inl rfl)).2 none (some 0)]
    exact hworld.reserved _
  · rw [numberOr_of_isSome (hworld.present _ _ _ hlookup (.inr rfl)).2 none (some 0)]
    exact hworld.reserved _

/-- The world after a reservation is closed at a cost. -/
def World.closed (world : World) (keyId : Uuid) (reservationId : String) (admission : Admission)
    (actual : ℚ) : World where
  gateway := ⟨finalizedStore world.gateway.store keyId reservationId
      (dailyBudgetKey keyId admission.admittedAt) (monthlyBudgetKey keyId admission.admittedAt)
      admission.amount actual
      (world.ledger.outstanding (dailyBudgetKey keyId admission.admittedAt))
      (world.ledger.outstanding (monthlyBudgetKey keyId admission.admittedAt)),
    world.gateway.epochs⟩
  ledger := world.ledger.erase (keyId, reservationId)

/-- What a finalization can do to the world: nothing, or close an outstanding reservation. Assumes:
a consistent world, so that a record is that of an outstanding reservation and the reserved counters
read as the sums outstanding. -/
theorem step_finalize_cases (hworld : Consistent world) (replica : ℕ) (keyId : Uuid)
    (reservationId : String) (actual : ℚ) (now : Date) :
    step world (.finalize replica keyId reservationId actual now) = world ∨
    ∃ admission, 0 ≤ actual ∧ world.ledger.lookup (keyId, reservationId) = some admission ∧
      step world (.finalize replica keyId reservationId actual now) =
        world.closed keyId reservationId admission actual := by
  unfold step
  simp only [perform]
  rcases finalizeReservation_cases world.gateway replica keyId reservationId actual with
    ⟨failure, hcase⟩ | ⟨hnone, hcase⟩ | ⟨amount, daily, monthly, dr, mr, hactual, hrecord, hdr, hmr,
      hcase⟩
  · refine .inl ?_
    rw [hcase]
    rfl
  · have habsent : world.ledger.erase (keyId, reservationId) = world.ledger := by
      refine AList.ext (List.kerase_of_notMem_keys ?_)
      have hrecord := hworld.record keyId reservationId
      rw [hnone] at hrecord
      exact AList.lookup_eq_none.mp (Option.map_eq_none_iff.mp hrecord.symm)
    refine .inl ?_
    rw [hcase]
    show World.mk world.gateway (world.ledger.erase (keyId, reservationId)) = world
    rw [habsent]
  · obtain ⟨admission, hlookup, hadmission⟩ : ∃ admission : Admission,
        world.ledger.lookup (keyId, reservationId) = some admission ∧
          admission.toRecord keyId = ⟨amount, daily, monthly, "v2"⟩ := by
      rw [hworld.record] at hrecord
      obtain ⟨admission, hlookup, hvalue⟩ := Option.map_eq_some_iff.mp hrecord
      exact ⟨admission, hlookup, RedisValue.record.inj hvalue⟩
    obtain ⟨rfl, rfl, rfl, -⟩ := ReservationRecord.mk.inj hadmission
    obtain ⟨-, hdaily, hmonthly⟩ := outstanding_reads hworld hlookup
    obtain rfl := Option.some.inj (hdaily.symm.trans hdr)
    obtain rfl := Option.some.inj (hmonthly.symm.trans hmr)
    refine .inr ⟨admission, hactual, hlookup, ?_⟩
    rw [hcase]
    rfl

/-- A release is a finalization at no cost. -/
theorem step_release (world : World) (replica : ℕ) (keyId : Uuid) (reservationId : String)
    (now : Date) :
    step world (.release replica keyId reservationId now) =
      step world (.finalize replica keyId reservationId 0 now) := by
  have hrecord : ∀ reply, world.ledger.record (.release replica keyId reservationId now) reply =
      world.ledger.record (.finalize replica keyId reservationId 0 now) reply := by
    intro reply
    rcases reply with failure | answer
    · rfl
    · cases answer <;> rfl
  exact congrArg (World.mk _) (hrecord _)

/-- Closing an outstanding reservation keeps the world consistent. -/
theorem consistent_closed (hworld : Consistent world) {keyId : Uuid} {reservationId : String}
    {admission : Admission} (hlookup : world.ledger.lookup (keyId, reservationId) = some admission)
    {actual : ℚ} (hactual : 0 ≤ actual) :
    Consistent (world.closed keyId reservationId admission actual) := by
  have hne : dailyBudgetKey keyId admission.admittedAt ≠
      monthlyBudgetKey keyId admission.admittedAt := by simp
  have herase : ∀ key other, (world.ledger.erase (keyId, reservationId)).lookup key = some other →
      world.ledger.lookup key = some other := by
    intro key other hother
    by_cases hsame : key = (keyId, reservationId)
    · rw [hsame, AList.lookup_erase] at hother
      exact absurd hother (by simp)
    · rwa [AList.lookup_erase_ne hsame] at hother
  refine {
    epoch := fun other cached hcached ↦ ?_
    committed := committedNonneg_finalizedStore hworld.committed hactual
    reserved := fun counter ↦ ?_
    record := fun keyId' reservationId' ↦ ?_
    nonneg := fun key other hother ↦ hworld.nonneg key other (herase key other hother)
    present := fun key other counter hother hagainst ↦ ?_ }
  · exact hworld.epoch other cached hcached
  · have hsum := measure_add_total_erase (Admission.charge counter) hlookup
    have hread := @finalizedStore_reserved world.gateway.store keyId reservationId _ _
      admission.amount actual (world.ledger.outstanding (dailyBudgetKey keyId admission.admittedAt))
      (world.ledger.outstanding (monthlyBudgetKey keyId admission.admittedAt)) hne counter
    refine (congrArg (numberOr (some 0)) hread).trans ?_
    by_cases hagainst : admission.against (keyId, reservationId) counter
    · have hle := amount_le_outstanding hworld hlookup hagainst
      have hclamp : max 0 (world.ledger.outstanding counter - admission.amount) =
          total (Admission.charge counter) (world.ledger.erase (keyId, reservationId)) := by
        rw [max_eq_right (sub_nonneg.mpr hle), Ledger.outstanding, ← hsum, Admission.charge,
          if_pos hagainst, add_sub_cancel_left]
      refine Eq.trans ?_ (congrArg some hclamp)
      rcases hagainst with rfl | rfl
      · rw [if_pos rfl]
        rfl
      · rw [if_neg hne.symm, if_pos rfl]
        rfl
    · rw [Admission.charge, if_neg hagainst, zero_add] at hsum
      rw [if_neg fun h ↦ hagainst (.inl h), if_neg fun h ↦ hagainst (.inr h)]
      exact (hworld.reserved counter).trans (congrArg some hsum.symm)
  · refine (finalizedStore_reservation actual _ _).trans ?_
    show _ = Option.map _ ((world.ledger.erase (keyId, reservationId)).lookup
      (keyId', reservationId'))
    by_cases hsame : (keyId', reservationId') = (keyId, reservationId)
    · rw [if_pos hsame, hsame, AList.lookup_erase]
      rfl
    · rw [if_neg hsame, AList.lookup_erase_ne hsame]
      exact hworld.record keyId' reservationId'
  · obtain ⟨hcommitted, hsum⟩ := hworld.present key other counter (herase key other hother) hagainst
    exact ⟨isSome_finalizedStore keyId reservationId actual _ _ (by simp) hcommitted,
      isSome_finalizedStore keyId reservationId actual _ _ (by simp) hsum⟩

/-- A finalization keeps the world consistent. -/
theorem consistent_finalize (hworld : Consistent world) (replica : ℕ) (keyId : Uuid)
    (reservationId : String) (actual : ℚ) (now : Date) :
    Consistent (step world (.finalize replica keyId reservationId actual now)) := by
  rcases step_finalize_cases hworld replica keyId reservationId actual now with
    hsame | ⟨admission, hactual, hlookup, hclosed⟩
  · rw [hsame]
    exact hworld
  · rw [hclosed]
    exact consistent_closed hworld hlookup hactual

/-- Every call keeps the world consistent. -/
theorem consistent_step (world : World) (call : Call) (hworld : Consistent world) :
    Consistent (step world call) := by
  cases call with
  | arm replica candidate => exact consistent_arm hworld replica candidate
  | seed replica keyId dailySpend monthlySpend now =>
    exact consistent_seed hworld replica keyId dailySpend monthlySpend now
  | admitBudget replica keyId reservationId amount dailyLimit monthlyLimit now =>
    exact consistent_admitBudget hworld replica keyId reservationId amount dailyLimit
      monthlyLimit now
  | finalize replica keyId reservationId actual now =>
    exact consistent_finalize hworld replica keyId reservationId actual now
  | release replica keyId reservationId now =>
    rw [step_release]
    exact consistent_finalize hworld replica keyId reservationId 0 now
  | addSpend replica keyId cost now => exact consistent_addSpend hworld replica keyId cost now

/-- Every reachable world is consistent. -/
theorem consistent_run (calls : List Call) : Consistent (run step World.initial calls) :=
  run_invariant consistent_step calls World.initial consistent_initial

/-! ### Finalizing an outstanding reservation -/

/-- Assumes: a consistent world, an outstanding reservation, a replica with an epoch and a
nonnegative cost. The finalization closes the reservation. -/
theorem finalizeReservation_outstanding (hworld : Consistent world) {keyId : Uuid}
    {reservationId : String} {admission : Admission}
    (hlookup : world.ledger.lookup (keyId, reservationId) = some admission) {replica : ℕ}
    {epoch : String} (hepoch : world.gateway.epochs replica = some epoch) {actual : ℚ}
    (hactual : 0 ≤ actual) :
    (world.gateway.finalizeReservation replica keyId reservationId actual).1 =
      .ok (.finalized 1) := by
  obtain ⟨hrecord, hdr, hmr⟩ := outstanding_reads hworld hlookup
  have hamount := hworld.nonneg _ _ hlookup
  have hcommitted : ∀ counter, admission.against (keyId, reservationId) counter →
      ∃ amount, 0 ≤ amount ∧
        numberOr none (world.gateway.store (.committed counter)) = some amount := by
    intro counter hagainst
    rw [numberOr_of_isSome (hworld.present _ _ _ hlookup hagainst).1 none (some 0)]
    exact hworld.committed counter
  obtain ⟨d, hd, hdread⟩ := hcommitted _ (.inl rfl)
  obtain ⟨m, hm, hmread⟩ := hcommitted _ (.inr rfl)
  have hdle := amount_le_outstanding hworld hlookup (.inl rfl)
  have hmle := amount_le_outstanding hworld hlookup (.inr rfl)
  have hmissing : ¬ (world.ledger.outstanding (dailyBudgetKey keyId admission.admittedAt) +
        1 / 1000000000 < admission.amount ∨
      world.ledger.outstanding (monthlyBudgetKey keyId admission.admittedAt) +
        1 / 1000000000 < admission.amount) := by
    rintro (hlt | hlt) <;> linarith
  simp only [Gateway.finalizeReservation, if_neg (not_lt.mpr hactual), Gateway.invoke, hepoch,
    finalizeScript, hworld.epoch replica epoch hepoch, ne_eq, not_true_eq_false, if_false, hrecord,
    Admission.toRecord, not_lt.mpr hamount, or_self, hdread, hmread, not_lt.mpr hd, not_lt.mpr hm,
    hdr, hmr, if_neg hmissing, Except.map]

/-- A finalization of an outstanding reservation is not answered with `missing reservation
state`. -/
theorem finalizeReservation_ne_missing (hworld : Consistent world) {keyId : Uuid}
    {reservationId : String} {admission : Admission}
    (hlookup : world.ledger.lookup (keyId, reservationId) = some admission) (replica : ℕ)
    (actual : ℚ) :
    (world.gateway.finalizeReservation replica keyId reservationId actual).1 ≠
      .error (.script .missingReservationState) := by
  by_cases hactual : 0 ≤ actual
  · cases hepoch : world.gateway.epochs replica with
    | none =>
      simp [Gateway.finalizeReservation, not_lt.mpr hactual, Gateway.invoke, hepoch]
    | some epoch =>
      rw [finalizeReservation_outstanding hworld hlookup hepoch hactual]
      simp
  · simp [Gateway.finalizeReservation, not_le.mp hactual]

/-! ### Finalizing twice -/

/-- The call finalizes or releases the reservation. -/
def Closes (key : Uuid × String) : Call → Prop
  | .finalize _ keyId reservationId _ _ => (keyId, reservationId) = key
  | .release _ keyId reservationId _ => (keyId, reservationId) = key
  | _ => False

/-- The call asks for admission of the reservation. -/
def Opens (key : Uuid × String) : Call → Prop
  | .admitBudget _ keyId reservationId _ _ _ _ => (keyId, reservationId) = key
  | _ => False

/-- A closing call is a finalization at some cost. -/
theorem Closes.exists_finalize {keyId : Uuid} {reservationId : String} {call : Call}
    (hcloses : Closes (keyId, reservationId) call) :
    ∃ replica actual now, ∀ world,
      step world call = step world (.finalize replica keyId reservationId actual now) := by
  cases call with
  | finalize replica keyId' reservationId' actual now =>
    obtain ⟨rfl, rfl⟩ := Prod.mk.inj hcloses
    exact ⟨replica, actual, now, fun _ ↦ rfl⟩
  | release replica keyId' reservationId' now =>
    obtain ⟨rfl, rfl⟩ := Prod.mk.inj hcloses
    exact ⟨replica, 0, now, fun world ↦ step_release world replica keyId' reservationId' now⟩
  | arm _ _ => exact hcloses.elim
  | seed _ _ _ _ _ => exact hcloses.elim
  | admitBudget _ _ _ _ _ _ _ => exact hcloses.elim
  | addSpend _ _ _ _ => exact hcloses.elim

/-- A closing call either has no effect or leaves no such reservation. -/
theorem closes_step (hworld : Consistent world) {key : Uuid × String} {call : Call}
    (hcloses : Closes key call) :
    step world call = world ∨ (step world call).ledger.lookup key = none := by
  obtain ⟨keyId, reservationId⟩ := key
  obtain ⟨replica, actual, now, hcall⟩ := hcloses.exists_finalize
  rw [hcall]
  rcases step_finalize_cases hworld replica keyId reservationId actual now with
    hsame | ⟨admission, -, -, hclosed⟩
  · exact .inl hsame
  · rw [hclosed]
    exact .inr (AList.lookup_erase _ _)

/-- Closing a reservation that is not outstanding changes nothing. -/
theorem closes_step_of_absent (hworld : Consistent world) {key : Uuid × String} {call : Call}
    (hcloses : Closes key call) (habsent : world.ledger.lookup key = none) :
    step world call = world := by
  obtain ⟨keyId, reservationId⟩ := key
  obtain ⟨replica, actual, now, hcall⟩ := hcloses.exists_finalize
  rw [hcall]
  rcases step_finalize_cases hworld replica keyId reservationId actual now with
    hsame | ⟨admission, -, hlookup, -⟩
  · exact hsame
  · rw [habsent] at hlookup
    exact absurd hlookup (by simp)

/-- A reservation that is not outstanding stays so until it is admitted. -/
theorem lookup_step_of_not_opens {key : Uuid × String} {call : Call} (hopens : ¬ Opens key call)
    {world : World} (habsent : world.ledger.lookup key = none) :
    (step world call).ledger.lookup key = none := by
  have herase : ∀ other, (world.ledger.erase other).lookup key = none := fun other ↦
    AList.lookup_eq_none.mpr fun hmem ↦
      AList.lookup_eq_none.mp habsent (AList.mem_erase.mp hmem).2
  show (world.ledger.record call (perform world.gateway call).1).lookup key = none
  unfold Ledger.record
  split
  · rw [AList.lookup_insert_ne fun hkey ↦ hopens hkey.symm]
    exact habsent
  · exact herase _
  · exact herase _
  · exact habsent

/-- A run that does not admit a reservation that is not outstanding leaves it so. -/
theorem lookup_run_of_not_opens {key : Uuid × String} {calls : List Call}
    (hcalls : ∀ call ∈ calls, ¬ Opens key call) {world : World}
    (habsent : world.ledger.lookup key = none) :
    (run step world calls).ledger.lookup key = none := by
  induction calls generalizing world with
  | nil => exact habsent
  | cons call rest ih =>
    exact ih (fun other hother ↦ hcalls other (List.mem_cons_of_mem call hother))
      (lookup_step_of_not_opens (hcalls call List.mem_cons_self) habsent)

/-- Assumes: two calls that close a reservation, with no admission of it between them. Either the
first has no effect, or the run without the second ends in the same world. -/
theorem closes_twice {key : Uuid × String} {first second : Call} (hfirst : Closes key first)
    (hsecond : Closes key second) {between : List Call}
    (hbetween : ∀ call ∈ between, ¬ Opens key call)
    (calls later : List Call) :
    run step World.initial (calls ++ [first]) = run step World.initial calls ∨
      run step World.initial (calls ++ first :: (between ++ second :: later)) =
        run step World.initial (calls ++ first :: (between ++ later)) := by
  rcases closes_step (consistent_run calls) hfirst with hsame | habsent
  · exact .inl (by rw [run_append]; exact hsame)
  · have hkeep := lookup_run_of_not_opens hbetween habsent
    have hconsistent :
        Consistent (run step (step (run step World.initial calls) first) between) := by
      have hrun := consistent_run (calls ++ first :: between)
      rwa [run_append] at hrun
    refine .inr ?_
    rw [run_append, run_append, run_cons, run_cons, run_append, run_append, run_cons,
      closes_step_of_absent hconsistent hsecond hkeep]

end Link

/-! ### The counters of every reachable state -/

/-- Budget counter accuracy. For every interleaving of calls by any number of replicas, in the
world it reaches: every `:reserved` counter reads as the sum of the amounts of the outstanding
reservations admitted against it, and that sum is nonnegative; for every outstanding reservation
the clamp of the finalize script changes neither of its counters, a finalization is never answered
with `missing reservation state`, and one by an armed replica with a nonnegative cost succeeds. Of
two calls that close a reservation with no admission of it between them, one has no effect. -/
theorem reserved_counters_eq_outstanding (calls : List Call) :
    (∀ counter, numberOr (some 0) ((run step World.initial calls).gateway.store
        (.reserved counter)) = some ((run step World.initial calls).ledger.outstanding counter) ∧
      0 ≤ (run step World.initial calls).ledger.outstanding counter) ∧
    (∀ keyId reservationId admission,
      (run step World.initial calls).ledger.lookup (keyId, reservationId) = some admission →
        (∀ counter, admission.against (keyId, reservationId) counter →
          max 0 ((run step World.initial calls).ledger.outstanding counter - admission.amount) =
            (run step World.initial calls).ledger.outstanding counter - admission.amount) ∧
        (∀ replica actual now, (perform (run step World.initial calls).gateway
          (.finalize replica keyId reservationId actual now)).1 ≠
            .error (.script .missingReservationState)) ∧
        (∀ replica actual now, (run step World.initial calls).gateway.epochs replica ≠ none →
          0 ≤ actual → (perform (run step World.initial calls).gateway
            (.finalize replica keyId reservationId actual now)).1 = .ok (.finalized 1))) ∧
    (∀ key first second between later, Closes key first → Closes key second →
      (∀ call ∈ between, ¬ Opens key call) →
        run step World.initial (calls ++ [first]) = run step World.initial calls ∨
          run step World.initial (calls ++ first :: (between ++ second :: later)) =
            run step World.initial (calls ++ first :: (between ++ later))) := by
  have hworld := consistent_run calls
  refine ⟨fun counter ↦ ⟨hworld.reserved counter, outstanding_nonneg hworld counter⟩,
    fun keyId reservationId admission hlookup ↦ ⟨fun counter hagainst ↦ ?_, ?_, ?_⟩, ?_⟩
  · exact max_eq_right (sub_nonneg.mpr (amount_le_outstanding hworld hlookup hagainst))
  · intro replica actual now
    exact finalizeReservation_ne_missing hworld hlookup replica actual
  · intro replica actual now harmed hactual
    obtain ⟨epoch, hepoch⟩ := Option.ne_none_iff_exists'.mp harmed
    exact finalizeReservation_outstanding hworld hlookup hepoch hactual
  · intro key first second between later hfirst hsecond hbetween
    exact closes_twice hfirst hsecond hbetween calls later

end Relayna.Budget.Reservations

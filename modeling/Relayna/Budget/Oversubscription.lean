import Relayna.Budget.Reservations

/-!
# A budget is not oversubscribed

The calls of one virtual key carry one daily and one monthly limit. `Disciplined` is what the
requests and the rehydration of that key keep to: a finalized cost is at most the amount of the
reservation, and a seed raises a counter only when the key is empty, to at most the limit. The calls
of other virtual keys are not restricted, because no two virtual keys share a counter.

`Within` bounds the committed and the outstanding amounts of each counter of the key by its limit.
An admission keeps it because the script compares the sum with both limits before it writes, and a
finalization because what it commits is at most what it stops reserving.
`budget_not_oversubscribed` is the bound for every disciplined run, with the exact ground of every
refusal.
-/

set_option autoImplicit false
set_option relaxedAutoImplicit false

namespace Relayna.Budget.Oversubscription

open Library.KeyedSum Library.Transition Scripts Reservations

/-! ### Disciplined calls -/

/-- The limit that stands against a counter: the daily one for a day of the virtual key, the monthly
one for a month of it. -/
def limitOf (keyId : Uuid) (dailyLimit monthlyLimit : ℚ) : CounterKey → Option ℚ
  | .daily owner _ _ _ => if owner = keyId then some dailyLimit else none
  | .monthly owner _ _ => if owner = keyId then some monthlyLimit else none

/-- A seed value fits a counter: on an empty key it is at most the limit, otherwise it is at most
the committed value that is present. -/
def SeedFits (limit spend : ℚ) : Option RedisValue → Prop
  | none => spend ≤ limit
  | some (.number committed) => spend ≤ committed
  | some (.record _) => False
  | some (.text _) => False

/-- What the calls of one virtual key keep to: every admission carries the two limits, every
finalized cost is at most the amount reserved for it, every seed fits, and no spend is added beside
the reservations. -/
def Disciplined (keyId : Uuid) (dailyLimit monthlyLimit : ℚ) (world : World) : Call → Prop
  | .arm _ _ => True
  | .seed _ owner dailySpend monthlySpend now => owner = keyId →
    SeedFits dailyLimit dailySpend (world.gateway.store (.committed (dailyBudgetKey owner now))) ∧
      SeedFits monthlyLimit monthlySpend
        (world.gateway.store (.committed (monthlyBudgetKey owner now)))
  | .admitBudget _ owner _ _ daily monthly _ => owner = keyId →
    daily = some dailyLimit ∧ monthly = some monthlyLimit
  | .finalize _ owner reservationId actual _ => owner = keyId →
    ∀ admission ∈ world.ledger.lookup (owner, reservationId), actual ≤ admission.amount
  | .release _ _ _ _ => True
  | .addSpend _ owner _ _ => owner ≠ keyId

/-- The committed and the outstanding amounts of every counter of the virtual key are together at
most its limit. -/
def Within (keyId : Uuid) (dailyLimit monthlyLimit : ℚ) (world : World) : Prop :=
  ∀ counter limit committed, limitOf keyId dailyLimit monthlyLimit counter = some limit →
    numberOr (some 0) (world.gateway.store (.committed counter)) = some committed →
      committed + world.ledger.outstanding counter ≤ limit

/-! ### Reading the counters after a script -/

/-- What a committed counter reads as after one of them is written. -/
theorem read_set_committed (store : Store) (written counter : CounterKey) (amount : ℚ) :
    numberOr (some 0) (store.set (.committed written) (.number amount) (.committed counter)) =
      if counter = written then some amount
      else numberOr (some 0) (store (.committed counter)) := by
  by_cases hsame : counter = written
  · rw [if_pos hsame, hsame, Store.set_self]
    rfl
  · rw [if_neg hsame, Store.set_of_ne _ (by simpa using hsame)]

/-- What the committed counters read as after a finalization: those of the record have grown by the
cost. -/
theorem finalizedStore_committed {store : Store} (keyId : Uuid) (reservationId : String)
    {daily monthly : CounterKey} (hne : daily ≠ monthly) (amount actual dr mr : ℚ)
    {counter : CounterKey} {committed : ℚ}
    (hread : numberOr (some 0) (store (.committed counter)) = some committed) :
    numberOr (some 0) (finalizedStore store keyId reservationId daily monthly amount actual dr mr
      (.committed counter)) =
        some (if counter = daily ∨ counter = monthly then committed + actual else committed) := by
  unfold finalizedStore Store.incrByFloat
  rw [Store.del_of_ne (by simp), read_set_committed]
  by_cases hmonthly : counter = monthly
  · rw [if_pos hmonthly, if_pos (.inr hmonthly), read_set_committed,
      if_neg hne.symm, Store.set_of_ne _ (by simp), Store.set_of_ne _ (by simp), ← hmonthly, hread]
    rfl
  · rw [if_neg hmonthly, read_set_committed, Store.set_of_ne _ (by simp),
      Store.set_of_ne _ (by simp), Store.set_of_ne _ (by simp), Store.set_of_ne _ (by simp)]
    by_cases hdaily : counter = daily
    · rw [if_pos hdaily, if_pos (.inl hdaily), ← hdaily, hread]
      rfl
    · rw [if_neg hdaily, if_neg fun h ↦ h.elim hdaily hmonthly, hread]

section Step

variable {keyId : Uuid} {dailyLimit monthlyLimit : ℚ} {world : World}

/-- A counter with a limit belongs to the virtual key. -/
theorem ne_budgetKey_of_limitOf {counter : CounterKey} {limit : ℚ}
    (hlimit : limitOf keyId dailyLimit monthlyLimit counter = some limit) {owner : Uuid}
    (howner : owner ≠ keyId) (now : Date) :
    counter ≠ dailyBudgetKey owner now ∧ counter ≠ monthlyBudgetKey owner now := by
  constructor
  · rintro rfl
    simp [limitOf, dailyBudgetKey, howner] at hlimit
  · rintro rfl
    simp [limitOf, monthlyBudgetKey, howner] at hlimit

/-- Nothing is outstanding against a counter that the store does not hold. -/
theorem outstanding_of_absent (hworld : Consistent world) {counter : CounterKey}
    (habsent : world.gateway.store (.committed counter) = none) :
    world.ledger.outstanding counter = 0 := by
  have hcharge : total (Admission.charge counter) world.ledger =
      total (fun _ _ ↦ (0 : ℚ)) world.ledger := by
    refine total_congr world.ledger fun key admission hlookup ↦ if_neg fun hagainst ↦ ?_
    have hpresent := (hworld.present key admission counter hlookup hagainst).1
    rw [habsent] at hpresent
    exact absurd hpresent (by simp)
  refine hcharge.trans ?_
  simp [total]

/-- A seed that fits a counter keeps it within its limit. -/
theorem seedFits_within (hworld : Consistent world) {counter : CounterKey} {limit spend old : ℚ}
    (hlimit : 0 ≤ limit)
    (hfits : SeedFits limit spend (world.gateway.store (.committed counter)))
    (hold : numberOr (some 0) (world.gateway.store (.committed counter)) = some old)
    (hwithin : old + world.ledger.outstanding counter ≤ limit) :
    max old (max spend 0) + world.ledger.outstanding counter ≤ limit := by
  cases hpresent : world.gateway.store (.committed counter) with
  | none =>
    rw [hpresent] at hfits hold
    obtain rfl : 0 = old := Option.some.inj hold
    rw [outstanding_of_absent hworld hpresent, add_zero]
    exact max_le hlimit (max_le hfits hlimit)
  | some value =>
    rw [hpresent] at hfits hold
    cases value with
    | number committed =>
      obtain rfl : committed = old := Option.some.inj hold
      obtain ⟨current, hcurrent, hread⟩ := hworld.committed counter
      rw [hpresent] at hread
      obtain rfl : committed = current := Option.some.inj hread
      rwa [max_eq_left (max_le hfits hcurrent)]
    | record reservation => exact hfits.elim
    | text content => exact hfits.elim

/-- Two counters written by a seed, at most one of which is read. -/
theorem read_seed (store : Store) (daily monthly counter : CounterKey) (d m : ℚ) :
    numberOr (some 0) (((store.set (.committed daily) (.number d)).set
      (.committed monthly) (.number m)) (.committed counter)) =
        if counter = monthly then some m else if counter = daily then some d
        else numberOr (some 0) (store (.committed counter)) := by
  rw [read_set_committed, read_set_committed]

/-- A disciplined seed keeps the counters within the limits. -/
theorem within_seed (hdaily : 0 ≤ dailyLimit) (hmonthly : 0 ≤ monthlyLimit)
    (hworld : Consistent world) (hwithin : Within keyId dailyLimit monthlyLimit world)
    {replica : ℕ} {owner : Uuid} {dailySpend monthlySpend : ℚ} {now : Date}
    (hguard : Disciplined keyId dailyLimit monthlyLimit world
      (.seed replica owner dailySpend monthlySpend now)) :
    Within keyId dailyLimit monthlyLimit
      (step world (.seed replica owner dailySpend monthlySpend now)) := by
  intro counter limit committed hlimit hread
  change numberOr (some 0) ((world.gateway.seedBudgetCounters replica owner dailySpend monthlySpend
    now).2.store (.committed counter)) = some committed at hread
  show committed + world.ledger.outstanding counter ≤ limit
  rcases seedBudgetCounters_cases world.gateway replica owner dailySpend monthlySpend now with
    ⟨failure, hfailed⟩ | ⟨d, m, hd, hm, -, -, hseeded⟩
  · rw [hfailed] at hread
    exact hwithin counter limit committed hlimit hread
  · rw [hseeded, read_seed] at hread
    by_cases howner : owner = keyId
    · obtain ⟨hdailyFits, hmonthlyFits⟩ := hguard howner
      split_ifs at hread with hcounter hcounter'
      · subst hcounter howner
        obtain rfl := Option.some.inj hread
        have hequal : monthlyLimit = limit := by
          simpa [limitOf, monthlyBudgetKey] using hlimit
        subst hequal
        exact seedFits_within hworld hmonthly hmonthlyFits hm (hwithin _ _ _ hlimit hm)
      · subst hcounter' howner
        obtain rfl := Option.some.inj hread
        have hequal : dailyLimit = limit := by
          simpa [limitOf, dailyBudgetKey] using hlimit
        subst hequal
        exact seedFits_within hworld hdaily hdailyFits hd (hwithin _ _ _ hlimit hd)
      · exact hwithin counter limit committed hlimit hread
    · obtain ⟨hnotDaily, hnotMonthly⟩ := ne_budgetKey_of_limitOf hlimit howner now
      rw [if_neg hnotMonthly, if_neg hnotDaily] at hread
      exact hwithin counter limit committed hlimit hread

/-- Spend added for another virtual key keeps the counters within the limits. -/
theorem within_addSpend (hwithin : Within keyId dailyLimit monthlyLimit world) {replica : ℕ}
    {owner : Uuid} {cost : ℚ} {now : Date} (howner : owner ≠ keyId) :
    Within keyId dailyLimit monthlyLimit (step world (.addSpend replica owner cost now)) := by
  intro counter limit committed hlimit hread
  change numberOr (some 0) ((world.gateway.addBudgetSpend replica owner cost now).2.store
    (.committed counter)) = some committed at hread
  refine hwithin counter limit committed hlimit (Eq.trans ?_ hread)
  obtain ⟨hnotDaily, hnotMonthly⟩ := ne_budgetKey_of_limitOf hlimit howner now
  rcases addBudgetSpend_cases world.gateway replica owner cost now with ⟨reply, hsame⟩ | ⟨-, hspent⟩
  · rw [hsame]
  · rw [hspent]
    simp only [Store.incrByFloat]
    rw [read_set_committed, if_neg hnotMonthly, read_set_committed, if_neg hnotDaily]

/-- An admission that neither limit stands against fits under them. -/
theorem add_le_of_overLimit {limit spend amount : ℚ}
    (hfits : overLimit (some limit) spend amount = false) : spend + amount ≤ limit := by
  simp only [overLimit, decide_eq_false_iff_not, not_or, not_lt] at hfits
  exact hfits.2

/-- A disciplined admission keeps the counters within the limits. -/
theorem within_admitBudget (hworld : Consistent world)
    (hwithin : Within keyId dailyLimit monthlyLimit world) {replica : ℕ} {owner : Uuid}
    {reservationId : String} {amount : ℚ} {daily monthly : Option ℚ} {now : Date}
    (hguard : Disciplined keyId dailyLimit monthlyLimit world
      (.admitBudget replica owner reservationId amount daily monthly now)) :
    Within keyId dailyLimit monthlyLimit
      (step world (.admitBudget replica owner reservationId amount daily monthly now)) := by
  rcases step_admit_cases hworld replica owner reservationId amount daily monthly now with
    hsame | ⟨d, m, -, hnew, hd, hm, hdaily, hmonthly, hadmitted⟩
  · rw [hsame]
    exact hwithin
  · rw [hadmitted]
    intro counter limit committed hlimit hwritten
    have hread := (admittedStore_committed hd hm counter).symm.trans hwritten
    have hold := hwithin counter limit committed hlimit hread
    show committed + total (Admission.charge counter) (world.ledger.insert _ _) ≤ limit
    rw [total_insert_of_notMem _ hnew, Admission.charge]
    split_ifs with hagainst
    · by_cases howner : owner = keyId
      · obtain ⟨rfl, rfl⟩ := hguard howner
        rcases hagainst with rfl | rfl
        · obtain rfl := Option.some.inj (hd.symm.trans hread)
          obtain rfl : dailyLimit = limit := by
            simpa [limitOf, dailyBudgetKey, howner] using hlimit
          have hfits := add_le_of_overLimit hdaily
          rwa [add_assoc, add_comm _ amount] at hfits
        · obtain rfl := Option.some.inj (hm.symm.trans hread)
          obtain rfl : monthlyLimit = limit := by
            simpa [limitOf, monthlyBudgetKey, howner] using hlimit
          have hfits := add_le_of_overLimit hmonthly
          rwa [add_assoc, add_comm _ amount] at hfits
      · obtain ⟨hnotDaily, hnotMonthly⟩ := ne_budgetKey_of_limitOf hlimit howner now
        exact absurd hagainst fun h ↦ h.elim hnotDaily hnotMonthly
    · rw [zero_add]
      exact hold

/-- Closing a reservation keeps the counters within the limits. Assumes: a cost of at most the
amount reserved, unless the reservation is of another virtual key. -/
theorem within_closed (hworld : Consistent world)
    (hwithin : Within keyId dailyLimit monthlyLimit world) {owner : Uuid} {reservationId : String}
    {admission : Admission} (hlookup : world.ledger.lookup (owner, reservationId) = some admission)
    {actual : ℚ} (hactual : owner = keyId → actual ≤ admission.amount) :
    Within keyId dailyLimit monthlyLimit (world.closed owner reservationId admission actual) := by
  intro counter limit committed hlimit hread
  have hsum := measure_add_total_erase (Admission.charge counter) hlookup
  obtain ⟨old, -, hold⟩ := hworld.committed counter
  have hbound := hwithin counter limit old hlimit hold
  have hnew := hread.symm.trans
    (finalizedStore_committed owner reservationId (by simp) admission.amount actual _ _ hold)
  show committed + total (Admission.charge counter) (world.ledger.erase (owner, reservationId)) ≤
    limit
  unfold Ledger.outstanding at hbound
  by_cases hagainst : counter = dailyBudgetKey owner admission.admittedAt ∨
      counter = monthlyBudgetKey owner admission.admittedAt
  · have hcharge : admission.charge counter (owner, reservationId) = admission.amount :=
      if_pos hagainst
    rw [if_pos hagainst] at hnew
    rw [hcharge] at hsum
    have howner : owner = keyId := by
      by_contra hne
      obtain ⟨hnotDaily, hnotMonthly⟩ := ne_budgetKey_of_limitOf hlimit hne admission.admittedAt
      exact hagainst.elim hnotDaily hnotMonthly
    have hcost := hactual howner
    have hequal := Option.some.inj hnew
    linarith
  · have hcharge : admission.charge counter (owner, reservationId) = 0 := if_neg hagainst
    rw [if_neg hagainst] at hnew
    rw [hcharge, zero_add] at hsum
    rw [Option.some.inj hnew, hsum]
    exact hbound

/-- A disciplined call keeps the counters within the limits. -/
theorem within_step (hdaily : 0 ≤ dailyLimit) (hmonthly : 0 ≤ monthlyLimit)
    (hworld : Consistent world) (hwithin : Within keyId dailyLimit monthlyLimit world) {call : Call}
    (hguard : Disciplined keyId dailyLimit monthlyLimit world call) :
    Within keyId dailyLimit monthlyLimit (step world call) := by
  cases call with
  | arm replica candidate =>
    rcases arm_cases world.gateway replica candidate with hsame | ⟨epoch, -, -, -, hother⟩
    · intro counter limit committed hlimit hread
      change numberOr (some 0) ((world.gateway.arm replica candidate).2.store _) = _ at hread
      rw [hsame] at hread
      exact hwithin counter limit committed hlimit hread
    · intro counter limit committed hlimit hread
      change numberOr (some 0) ((world.gateway.arm replica candidate).2.store _) = _ at hread
      rw [hother _ (by simp)] at hread
      exact hwithin counter limit committed hlimit hread
  | seed replica owner dailySpend monthlySpend now =>
    exact within_seed hdaily hmonthly hworld hwithin hguard
  | admitBudget replica owner reservationId amount daily monthly now =>
    exact within_admitBudget hworld hwithin hguard
  | finalize replica owner reservationId actual now =>
    rcases step_finalize_cases hworld replica owner reservationId actual now with
      hsame | ⟨admission, -, hlookup, hclosed⟩
    · rw [hsame]
      exact hwithin
    · rw [hclosed]
      exact within_closed hworld hwithin hlookup fun howner ↦ hguard howner admission hlookup
  | release replica owner reservationId now =>
    rw [step_release]
    rcases step_finalize_cases hworld replica owner reservationId 0 now with
      hsame | ⟨admission, -, hlookup, hclosed⟩
    · rw [hsame]
      exact hwithin
    · rw [hclosed]
      exact within_closed hworld hwithin hlookup fun _ ↦ hworld.nonneg _ _ hlookup
  | addSpend replica owner cost now => exact within_addSpend hwithin hguard

/-- Every state of a disciplined run is within the limits. -/
theorem within_run (hdaily : 0 ≤ dailyLimit) (hmonthly : 0 ≤ monthlyLimit) (calls : List Call)
    (hguarded : Guarded step (Disciplined keyId dailyLimit monthlyLimit) World.initial calls) :
    Within keyId dailyLimit monthlyLimit (run step World.initial calls) := by
  have hinitial : Within keyId dailyLimit monthlyLimit World.initial := by
    intro counter limit committed hlimit hread
    obtain rfl : 0 = committed := Option.some.inj hread
    show 0 + 0 ≤ limit
    rw [add_zero]
    cases counter with
    | daily owner year month day =>
      simp only [limitOf, Option.ite_none_right_eq_some, Option.some.injEq] at hlimit
      rwa [← hlimit.2]
    | monthly owner year month =>
      simp only [limitOf, Option.ite_none_right_eq_some, Option.some.injEq] at hlimit
      rwa [← hlimit.2]
  have hstep : ∀ world call, Disciplined keyId dailyLimit monthlyLimit world call →
      Consistent world ∧ Within keyId dailyLimit monthlyLimit world →
        Consistent (step world call) ∧ Within keyId dailyLimit monthlyLimit (step world call) :=
    fun world call hguard hboth ↦ ⟨consistent_step world call hboth.1,
      within_step hdaily hmonthly hboth.1 hboth.2 hguard⟩
  exact (run_guarded_invariant hstep calls World.initial hguarded
    ⟨consistent_initial, hinitial⟩).2

/-- A key that reads as a number without a default is present. -/
theorem isSome_of_numberOr {value : Option RedisValue} {amount : ℚ}
    (hread : numberOr none value = some amount) : value.isSome := by
  cases value with
  | none => exact absurd hread (by simp [numberOr])
  | some content => rfl

/-- Assumes: a consistent world, an armed replica, a nonnegative amount and nonnegative limits, a
fresh reservation and seeded counters. The admission is answered, with a refusal exactly when one
of the limits stands against the amount. -/
theorem admitBudget_of_seeded (hworld : Consistent world) (hdaily : 0 ≤ dailyLimit)
    (hmonthly : 0 ≤ monthlyLimit) {replica : ℕ} {epoch reservationId : String} {amount d m : ℚ}
    {now : Date} (hepoch : world.gateway.epochs replica = some epoch) (hamount : 0 ≤ amount)
    (hfresh : world.gateway.store (.reservation keyId reservationId) = none)
    (hd : numberOr none (world.gateway.store (.committed (dailyBudgetKey keyId now))) = some d)
    (hm : numberOr none (world.gateway.store (.committed (monthlyBudgetKey keyId now))) = some m) :
    (world.gateway.admitBudget replica keyId reservationId amount (some dailyLimit)
        (some monthlyLimit) now).1 =
      .ok (.decision (if overLimit (some dailyLimit)
          (d + world.ledger.outstanding (dailyBudgetKey keyId now)) amount ∨
            overLimit (some monthlyLimit)
              (m + world.ledger.outstanding (monthlyBudgetKey keyId now)) amount
        then .exceeded ⟨d + world.ledger.outstanding (dailyBudgetKey keyId now),
          m + world.ledger.outstanding (monthlyBudgetKey keyId now)⟩
        else .allowed ⟨d + world.ledger.outstanding (dailyBudgetKey keyId now) + amount,
          m + world.ledger.outstanding (monthlyBudgetKey keyId now) + amount⟩)) := by
  have hreadDaily := numberOr_of_isSome (isSome_of_numberOr hd) (some 0) none
  have hreadMonthly := numberOr_of_isSome (isSome_of_numberOr hm) (some 0) none
  have hnonneg : ∀ counter current,
      numberOr (some 0) (world.gateway.store (.committed counter)) = some current →
        0 ≤ current := by
    intro counter current hcurrent
    obtain ⟨amount', hamount', hread⟩ := hworld.committed counter
    rwa [Option.some.inj (hcurrent.symm.trans hread)]
  have hnegative : ¬ (d < 0 ∨ m < 0 ∨ world.ledger.outstanding (dailyBudgetKey keyId now) < 0 ∨
      world.ledger.outstanding (monthlyBudgetKey keyId now) < 0) := by
    push Not
    exact ⟨hnonneg _ d (hreadDaily.trans hd), hnonneg _ m (hreadMonthly.trans hm),
      outstanding_nonneg hworld _, outstanding_nonneg hworld _⟩
  have hpresent : ∀ {value : Option RedisValue}, value.isSome → value.isNone = false :=
    fun hvalue ↦ by rw [← Option.not_isSome, hvalue]; rfl
  unfold Gateway.admitBudget Gateway.invoke admitScript
  rw [if_neg (by simp [hamount, hdaily, hmonthly]), hepoch]
  simp only [hworld.epoch replica epoch hepoch, ne_eq, not_true_eq_false, if_false, hfresh,
    Option.isSome_none, Bool.false_eq_true, hpresent (isSome_of_numberOr hd),
    hpresent (isSome_of_numberOr hm), or_self, and_false, hreadDaily, hd, hreadMonthly, hm,
    hworld.reserved, if_neg hnegative]
  split_ifs <;> rfl

end Step

/-! ### Every disciplined run -/

/-- No budget oversubscription. Assumes: nonnegative limits, which every admission checks, and a run
in which the calls of the virtual key are disciplined. In the world the run reaches, the committed
and the reserved amounts of every day of the key are together at most the daily limit, and those of
every month at most the monthly limit. An admission of a nonnegative amount by an armed replica,
with a fresh reservation id and seeded counters, is allowed unless the sum of the day or of the
month has reached its limit or would exceed it with the amount. -/
theorem budget_not_oversubscribed {keyId : Uuid} {dailyLimit monthlyLimit : ℚ}
    (hdaily : 0 ≤ dailyLimit) (hmonthly : 0 ≤ monthlyLimit) {calls : List Call}
    (hguarded : Guarded step (Disciplined keyId dailyLimit monthlyLimit) World.initial calls) :
    (∀ now, ∃ d m dr mr,
      numberOr (some 0) ((run step World.initial calls).gateway.store
        (.committed (dailyBudgetKey keyId now))) = some d ∧
      numberOr (some 0) ((run step World.initial calls).gateway.store
        (.committed (monthlyBudgetKey keyId now))) = some m ∧
      numberOr (some 0) ((run step World.initial calls).gateway.store
        (.reserved (dailyBudgetKey keyId now))) = some dr ∧
      numberOr (some 0) ((run step World.initial calls).gateway.store
        (.reserved (monthlyBudgetKey keyId now))) = some mr ∧
      d + dr ≤ dailyLimit ∧ m + mr ≤ monthlyLimit ∧
      ∀ replica reservationId amount,
        (run step World.initial calls).gateway.epochs replica ≠ none → 0 ≤ amount →
        (run step World.initial calls).gateway.store (.reservation keyId reservationId) = none →
        (run step World.initial calls).gateway.store
          (.committed (dailyBudgetKey keyId now)) ≠ none →
        (run step World.initial calls).gateway.store (.committed (monthlyBudgetKey keyId now)) ≠
          none →
        ((perform (run step World.initial calls).gateway
          (.admitBudget replica keyId reservationId amount
            (some dailyLimit) (some monthlyLimit) now)).1 =
          .ok (.decision (.allowed ⟨d + dr + amount, m + mr + amount⟩))) ∨
        ((perform (run step World.initial calls).gateway
          (.admitBudget replica keyId reservationId amount
            (some dailyLimit) (some monthlyLimit) now)).1 =
          .ok (.decision (.exceeded ⟨d + dr, m + mr⟩)) ∧
          (dailyLimit ≤ d + dr ∨ dailyLimit < d + dr + amount ∨
            monthlyLimit ≤ m + mr ∨ monthlyLimit < m + mr + amount))) := by
  have hworld := consistent_run calls
  have hwithin := within_run hdaily hmonthly calls hguarded
  intro now
  obtain ⟨d, -, hd⟩ := hworld.committed (dailyBudgetKey keyId now)
  obtain ⟨m, -, hm⟩ := hworld.committed (monthlyBudgetKey keyId now)
  refine ⟨d, m, _, _, hd, hm, hworld.reserved _, hworld.reserved _, ?_, ?_, ?_⟩
  · exact hwithin _ _ d (by simp [limitOf, dailyBudgetKey]) hd
  · exact hwithin _ _ m (by simp [limitOf, monthlyBudgetKey]) hm
  · intro replica reservationId amount harmed hamount hfresh hdailySeeded hmonthlySeeded
    obtain ⟨epoch, hepoch⟩ := Option.ne_none_iff_exists'.mp harmed
    have hreadDaily := numberOr_of_isSome (Option.isSome_iff_ne_none.mpr hdailySeeded) none (some 0)
    have hreadMonthly :=
      numberOr_of_isSome (Option.isSome_iff_ne_none.mpr hmonthlySeeded) none (some 0)
    have hanswer := admitBudget_of_seeded hworld hdaily hmonthly hepoch hamount hfresh
      (hreadDaily.trans hd) (hreadMonthly.trans hm)
    split_ifs at hanswer with hover
    · refine .inr ⟨hanswer, ?_⟩
      simp only [overLimit, decide_eq_true_eq] at hover
      exact or_assoc.mp hover
    · exact .inl hanswer

/-- Two requests of one key around a daily limit of `10`: the seed commits `3`, one request reserves
`4` and settles at `2`, the other still reserves `5`. -/
theorem budget_not_oversubscribed_two_requests :
    ∃ d dr, numberOr (some 0) ((run step World.initial
        [.arm 0 "epoch", .seed 0 7 3 3 ⟨2026, 1, 31⟩,
          .admitBudget 0 7 "first" 4 (some 10) (some 20) ⟨2026, 1, 31⟩,
          .finalize 0 7 "first" 2 ⟨2026, 2, 1⟩,
          .admitBudget 0 7 "second" 5 (some 10) (some 20) ⟨2026, 1, 31⟩]).gateway.store
        (.committed (dailyBudgetKey 7 ⟨2026, 1, 31⟩))) = some d ∧
      numberOr (some 0) ((run step World.initial
        [.arm 0 "epoch", .seed 0 7 3 3 ⟨2026, 1, 31⟩,
          .admitBudget 0 7 "first" 4 (some 10) (some 20) ⟨2026, 1, 31⟩,
          .finalize 0 7 "first" 2 ⟨2026, 2, 1⟩,
          .admitBudget 0 7 "second" 5 (some 10) (some 20) ⟨2026, 1, 31⟩]).gateway.store
        (.reserved (dailyBudgetKey 7 ⟨2026, 1, 31⟩))) = some dr ∧
      d + dr ≤ 10 := by
  have hguarded : Guarded step (Disciplined 7 10 20) World.initial
      [.arm 0 "epoch", .seed 0 7 3 3 ⟨2026, 1, 31⟩,
        .admitBudget 0 7 "first" 4 (some 10) (some 20) ⟨2026, 1, 31⟩,
        .finalize 0 7 "first" 2 ⟨2026, 2, 1⟩,
        .admitBudget 0 7 "second" 5 (some 10) (some 20) ⟨2026, 1, 31⟩] := by
    refine ⟨trivial, fun _ ↦ ⟨?_, ?_⟩, fun _ ↦ ⟨rfl, rfl⟩, fun _ ↦ ?_,
      fun _ ↦ ⟨rfl, rfl⟩, trivial⟩
    · show (3 : ℚ) ≤ 10
      decide
    · show (3 : ℚ) ≤ 20
      decide
    · decide +kernel
  obtain ⟨d, m, dr, mr, hd, -, hdr, -, hle, -, -⟩ := budget_not_oversubscribed
    (by decide) (by decide) hguarded ⟨2026, 1, 31⟩
  exact ⟨d, dr, hd, hdr, hle⟩

end Relayna.Budget.Oversubscription

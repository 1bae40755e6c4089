import Mathlib.Algebra.BigOperators.Group.List.Basic
import Relayna.Library.Transition
import Relayna.Usage.Repricing

/-!
# Budget charges under repricing

`committed_budget_spend` and `budget_counter_seeds` rebuild the spend of a virtual key from
`usage_events`. Both read `COALESCE(budget_estimated_cost, estimated_cost)` of a row and count it
when it is positive. Reports show the repriced cost; what was charged is the cost of the insert.

`Kept` relates a row to the event that was inserted: the row was never repriced and has the cost of
the event, or its saved amount is that cost, with zero for an absent one.
`repricing_keeps_charges` is the main theorem.
-/

set_option autoImplicit false
set_option relaxedAutoImplicit false

namespace Relayna.Usage

open Relayna.Library.Transition
open Relayna.Pricing

/-! ### The budget queries -/

/-- What the budget queries read of an event. -/
structure Charge where
  keyId : Uuid
  createdAt : DateTime
  amount : Option ℤ

/-- The charge of a row: `COALESCE(budget_estimated_cost, estimated_cost)`. -/
def UsageRow.charge (row : UsageRow) : Charge :=
  ⟨row.facts.keyId, row.facts.createdAt, row.budgetEstimatedCost.or row.estimatedCost⟩

/-- The charge with which an event was inserted. -/
def UsageEvent.charge (event : UsageEvent) : Charge :=
  ⟨event.facts.keyId, event.facts.createdAt, event.estimatedCostUsd.map numeric⟩

/-- The sum of the positive charges of some keys and times. -/
def sumCharges (selects : Uuid → DateTime → Bool) (charges : List Charge) : ℤ :=
  ((charges.filter fun charge ↦ selects charge.keyId charge.createdAt &&
    charge.amount.any fun amount ↦ decide (0 < amount)).map fun charge ↦ charge.amount.getD 0).sum

/-- The spend of a key in a day and in a month. -/
structure BudgetSpend where
  daily : ℤ
  monthly : ℤ
  deriving DecidableEq, Repr

/-- `committed_budget_spend`. -/
def committedBudgetSpend (charges : List Charge) (keyId : Uuid) (now : DateTime) : BudgetSpend where
  daily := sumCharges (fun key createdAt ↦ decide (key = keyId) &&
    decide (monthStart now ≤ createdAt) && decide (dayStart now ≤ createdAt)) charges
  monthly := sumCharges (fun key createdAt ↦ decide (key = keyId) &&
    decide (monthStart now ≤ createdAt)) charges

/-- What the seeds read of a virtual key. -/
structure ApiKey where
  id : Uuid
  disabled : Bool
  revokedAt : Option DateTime
  expiresAt : Option DateTime

/-- A key that can still be used. -/
def ApiKey.active (key : ApiKey) (now : DateTime) : Bool :=
  !key.disabled && key.revokedAt.isNone && key.expiresAt.all fun expiry ↦ decide (now < expiry)

/-- `BudgetCounterSeed`. -/
structure BudgetCounterSeed where
  keyId : Uuid
  dailySpend : ℤ
  monthlySpend : ℤ
  deriving DecidableEq, Repr

/-- `budget_counter_seeds`: one row for each active key. -/
def budgetCounterSeeds (keys : List ApiKey) (charges : List Charge) (now : DateTime) :
    List BudgetCounterSeed :=
  (keys.filter (ApiKey.active · now)).map fun key ↦
    { keyId := key.id
      dailySpend := sumCharges (fun keyId createdAt ↦ decide (keyId = key.id) &&
        decide (monthStart now ≤ createdAt) && decide (dayStart now ≤ createdAt)) charges
      monthlySpend := sumCharges (fun keyId createdAt ↦ decide (keyId = key.id) &&
        decide (monthStart now ≤ createdAt)) charges }

/-! ### Histories -/

/-- An event that was inserted. -/
structure Original where
  id : Uuid
  event : UsageEvent

/-- The table, and the events that were inserted into it. -/
structure History where
  rows : List UsageRow
  originals : List Original

/-- What happens to the table. -/
inductive Action
  | insert (id : Uuid) (xid : ℕ) (event : UsageEvent)
  | reprice (before after : ServiceRegistration)

variable (pricingFingerprint : Selector → Text)

/-- One step of a history. An insert that fails changes nothing. -/
def History.step (history : History) : Action → History
  | .insert id xid event =>
    match insertUsageEvent history.rows id xid event with
    | some rows => ⟨rows, history.originals ++ [⟨id, event⟩]⟩
    | none => history
  | .reprice before after =>
    { history with rows := (repriceServiceUsage pricingFingerprint before after history.rows).1 }

/-- A row still has the charge of its event: it was never repriced, or the amount that the first
repricing saved is that of the event. -/
structure Kept (row : UsageRow) (original : Original) : Prop where
  id : row.id = original.id
  facts : row.facts = original.event.facts
  amount : row.budgetEstimatedCost = none ∧
      row.estimatedCost = original.event.estimatedCostUsd.map numeric ∨
    row.budgetEstimatedCost = some ((original.event.estimatedCostUsd.map numeric).getD 0)

/-! ### The invariant -/

/-- Every row keeps the charge of its event, and no two rows have the same id. -/
structure Sound (history : History) : Prop where
  kept : List.Forall₂ Kept history.rows history.originals
  ids : (history.rows.map UsageRow.id).Nodup

variable {pricingFingerprint}

/-- Assumes: a row that keeps the charge of its event. A repricing saves that charge. -/
theorem Kept.reprice {row : UsageRow} {original : Original} (h : Kept row original)
    (resolved : ResolvedServiceCost) : Kept (row.reprice resolved) original := by
  refine ⟨h.id, h.facts, .inr ?_⟩
  change some (row.budgetEstimatedCost.getD (row.estimatedCost.getD 0)) = _
  rcases h.amount with ⟨hnone, hcost⟩ | hsaved
  · rw [hnone, hcost, Option.getD_none]
  · rw [hsaved, Option.getD_some]

theorem Kept.repriceFrom {row : UsageRow} {original : Original} (h : Kept row original)
    (before after : ServiceRegistration) (cursor : Option Uuid) :
    Kept (repriceFrom pricingFingerprint before after cursor row) original := by
  unfold Usage.repriceFrom repriceRow
  split
  · split
    · exact h.reprice _
    · exact h
  · exact h

/-- A repricing changes neither the id, nor the transaction, nor the facts of a row. -/
theorem repriceFrom_same (before after : ServiceRegistration) (cursor : Option Uuid)
    (row : UsageRow) :
    (repriceFrom pricingFingerprint before after cursor row).id = row.id ∧
      (repriceFrom pricingFingerprint before after cursor row).ingestionXid = row.ingestionXid ∧
      (repriceFrom pricingFingerprint before after cursor row).facts = row.facts := by
  unfold repriceFrom repriceRow
  split
  · split
    · exact ⟨rfl, rfl, rfl⟩
    · exact ⟨rfl, rfl, rfl⟩
  · exact ⟨rfl, rfl, rfl⟩

/-- Assumes: an insert that succeeds. It adds the row of the event, whose id is new. -/
theorem insertUsageEvent_eq_some {rows after : List UsageRow} {id : Uuid} {xid : ℕ}
    {event : UsageEvent} (hinsert : insertUsageEvent rows id xid event = some after) :
    after = rows ++ [event.toRow id xid] ∧ ∀ row ∈ rows, row.id ≠ id := by
  unfold insertUsageEvent at hinsert
  split at hinsert
  · rename_i hfresh
    exact ⟨(Option.some.inj hinsert).symm, hfresh.1⟩
  · cases hinsert

/-- Assumes: rows with different ids. They have different ids after every step. -/
theorem History.nodup_step (history : History) (action : Action)
    (hids : (history.rows.map UsageRow.id).Nodup) :
    ((history.step pricingFingerprint action).rows.map UsageRow.id).Nodup := by
  cases action with
  | insert id xid event =>
    simp only [History.step]
    split
    · rename_i rows hinsert
      obtain ⟨rfl, hfresh⟩ := insertUsageEvent_eq_some hinsert
      rw [List.map_append, List.nodup_append]
      refine ⟨hids, List.nodup_singleton _, ?_⟩
      rintro old hold new hnew rfl
      obtain ⟨row, hrow, hid⟩ := List.mem_map.mp hold
      exact hfresh row hrow (hid.trans (List.mem_singleton.mp hnew))
    · exact hids
  | reprice before after =>
    simp only [History.step, repriceServiceUsage_eq _ _ _ _ hids]
    rw [List.map_map]
    convert hids using 2
    funext row
    exact (repriceFrom_same before after none row).1

/-- A step keeps the invariant. -/
theorem Sound.step (history : History) (action : Action) (h : Sound history) :
    Sound (history.step pricingFingerprint action) := by
  refine ⟨?_, history.nodup_step action h.ids⟩
  cases action with
  | insert id xid event =>
    simp only [History.step]
    split
    · rename_i rows hinsert
      obtain ⟨rfl, -⟩ := insertUsageEvent_eq_some hinsert
      exact List.rel_append h.kept (.cons ⟨rfl, rfl, .inl ⟨rfl, rfl⟩⟩ .nil)
    · exact h.kept
  | reprice before after =>
    simp only [History.step, repriceServiceUsage_eq _ _ _ _ h.ids]
    exact List.forall₂_map_left_iff.mpr (h.kept.imp fun _ _ hkept ↦ hkept.repriceFrom _ _ _)

/-- What a charge adds to a sum. -/
def Charge.counted (charge : Charge) (selects : Uuid → DateTime → Bool) : ℤ :=
  if selects charge.keyId charge.createdAt &&
    charge.amount.any fun amount ↦ decide (0 < amount) then charge.amount.getD 0 else 0

theorem sumCharges_cons (selects : Uuid → DateTime → Bool) (charge : Charge)
    (charges : List Charge) :
    sumCharges selects (charge :: charges) =
      charge.counted selects + sumCharges selects charges := by
  unfold sumCharges Charge.counted
  rw [List.filter_cons]
  split
  · rw [List.map_cons, List.sum_cons]
  · rw [Int.zero_add]

/-- A saved amount of zero is not counted, like an absent one. -/
theorem counted_saved (keyId : Uuid) (createdAt : DateTime) (amount : Option ℤ)
    (selects : Uuid → DateTime → Bool) :
    Charge.counted ⟨keyId, createdAt, some (amount.getD 0)⟩ selects =
      Charge.counted ⟨keyId, createdAt, amount⟩ selects := by
  cases amount with
  | none => simp [Charge.counted]
  | some amount => rfl

/-- Assumes: a row that keeps the charge of its event. It adds what the event adds. -/
theorem Kept.counted_eq {row : UsageRow} {original : Original} (h : Kept row original)
    (selects : Uuid → DateTime → Bool) :
    row.charge.counted selects = original.event.charge.counted selects := by
  rcases h.amount with ⟨hnone, hcost⟩ | hsaved
  · have hcharge : row.charge = original.event.charge := by
      rw [UsageRow.charge, UsageEvent.charge, h.facts, hnone, hcost, Option.none_or]
    rw [hcharge]
  · rw [UsageRow.charge, UsageEvent.charge, h.facts, hsaved, Option.some_or, counted_saved]

/-- Assumes: rows that keep the charges of their events. The sums of their positive charges are
those of the events. -/
theorem sumCharges_eq {rows : List UsageRow} {originals : List Original}
    (h : List.Forall₂ Kept rows originals) (selects : Uuid → DateTime → Bool) :
    sumCharges selects (rows.map UsageRow.charge) =
      sumCharges selects (originals.map fun original ↦ original.event.charge) := by
  induction h with
  | nil => rfl
  | cons hkept _ ih =>
    rw [List.map_cons, List.map_cons, sumCharges_cons, sumCharges_cons, ih, hkept.counted_eq]

/-- After every sequence of inserts and repricings, the committed spend and the counter seeds are
those of the costs with which the events were inserted. Every row that was repriced has saved the
cost of its event, and zero for an event without cost. -/
theorem repricing_keeps_charges (pricingFingerprint : Selector → Text) (actions : List Action) :
    let history := run (History.step pricingFingerprint) ⟨[], []⟩ actions
    let charges := history.rows.map UsageRow.charge
    let inserted := history.originals.map fun original ↦ original.event.charge
    (∀ keyId now, committedBudgetSpend charges keyId now =
    committedBudgetSpend inserted keyId now) ∧
      (∀ keys now, budgetCounterSeeds keys charges now = budgetCounterSeeds keys inserted now) ∧
      List.Forall₂ Kept history.rows history.originals := by
  intro history charges inserted
  have hsound : Sound history :=
    run_invariant Sound.step actions ⟨[], []⟩ ⟨.nil, List.nodup_nil⟩
  have hsums : ∀ selects, sumCharges selects charges = sumCharges selects inserted :=
    fun selects ↦ sumCharges_eq hsound.kept selects
  refine ⟨?_, ?_, hsound.kept⟩
  · intro keyId now
    rw [committedBudgetSpend, committedBudgetSpend, hsums, hsums]
  · intro keys now
    unfold budgetCounterSeeds
    simp only [hsums]

/-- A GET of a service. -/
def sampleFacts : EventFacts :=
  { EventFacts.blank with
    serviceName := some [115]
    httpMethod := some [71, 69, 84]
    endpointPath := some [47] }

/-- A service with one price for every request. -/
def sampleService (price : Price) : ServiceRegistration :=
  ⟨[115], false, .fixed, some price, [], []⟩

/-- A request of one dollar and one that was denied are repriced to two dollars and to three. -/
def repricedTwice : List Action :=
  [.insert 1 7 ⟨sampleFacts, some 1, some .serviceDefaultFixed, some .fixed, none, none⟩,
    .insert 2 8 ⟨sampleFacts, none, some .serviceDefaultFixed, some .fixed, none, none⟩,
    .reprice (sampleService ⟨100000000, by decide⟩) (sampleService ⟨200000000, by decide⟩),
    .reprice (sampleService ⟨200000000, by decide⟩) (sampleService ⟨300000000, by decide⟩)]

theorem numeric_one : numeric 1 = 100000000 := by
  norm_num [numeric]

/-- Both cost three dollars in the end, and the spend of the day is the dollar that was charged. -/
theorem repricing_keeps_charges_twice :
    let history := run (History.step fun _ ↦ []) ⟨[], []⟩ repricedTwice
    history.rows.map UsageRow.estimatedCost = [some 300000000, some 300000000] ∧
      committedBudgetSpend (history.rows.map UsageRow.charge) 0 ⟨⟨2026, 1, 1⟩, 5⟩ =
        ⟨100000000, 100000000⟩ := by
  intro history
  set inserted := [UsageRow.mk 1 (some 7) sampleFacts (some 100000000)
      (some .serviceDefaultFixed) (some .fixed) none none none,
    ⟨2, some 8, sampleFacts, none, some .serviceDefaultFixed, some .fixed, none, none, none⟩]
  set events := [Original.mk 1 ⟨sampleFacts, some 1, some .serviceDefaultFixed, some .fixed, none,
      none⟩, ⟨2, ⟨sampleFacts, none, some .serviceDefaultFixed, some .fixed, none, none⟩⟩]
  have hinserted : run (History.step fun _ ↦ []) ⟨[], []⟩ (repricedTwice.take 2) =
      ⟨inserted, events⟩ := by
    simp [repricedTwice, History.step, insertUsageEvent, UsageEvent.toRow, numeric_one, fitsNumeric,
      inserted, events]
  have hrun :
      history = run (History.step fun _ ↦ []) ⟨inserted, events⟩ (repricedTwice.drop 2) := by
    rw [← hinserted, ← run_append, List.take_append_drop]
  constructor
  · rw [hrun]
    simp only [repricedTwice, List.drop, run_cons, run_nil, History.step]
    rw [repriceServiceUsage_eq _ _ _ inserted (by decide),
      repriceServiceUsage_eq _ _ _ _ (by decide)]
    decide
  · rw [(repricing_keeps_charges (fun _ ↦ []) repricedTwice).1 0 ⟨⟨2026, 1, 1⟩, 5⟩]
    have horiginals : history.originals = events := by rw [hrun]; rfl
    change committedBudgetSpend (history.originals.map _) _ _ = _
    rw [horiginals]
    have hcharges : events.map (fun original ↦ original.event.charge) =
        [⟨0, ⟨⟨2026, 1, 1⟩, 0⟩, some 100000000⟩, ⟨0, ⟨⟨2026, 1, 1⟩, 0⟩, none⟩] := by
      simp [events, UsageEvent.charge, numeric_one, sampleFacts, EventFacts.blank]
    rw [hcharges]
    decide

end Relayna.Usage

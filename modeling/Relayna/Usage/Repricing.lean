import Mathlib.Data.List.Count
import Mathlib.Data.List.Sort
import Relayna.Usage.Ledger

/-!
# The repricing of recorded usage

`reprice_service_usage_in_tx` of `crates/gateway-store/src/postgres.rs` reads the events of a
service in pages of 1000, ordered by id, and rewrites the cost columns of those whose price differs
from the one that their recorded attribution has under the new registration. The first rewrite of a
row saves its cost in `budget_estimated_cost`. The statement also rewrites the usage in the traffic
records, which is left out.

`repriceServiceUsage_eq`: over rows with different ids, the loop reprices every row of the service
once and counts them.
-/

set_option autoImplicit false
set_option relaxedAutoImplicit false

namespace Relayna.Usage

open Relayna.Pricing

/-! ### One row -/

variable (pricingFingerprint : Selector → Text)

def newCostSource (resolved : ResolvedServiceCost) : CostSource :=
  match resolved.costMode with
  | .none => .none
  | _ => if resolved.pricingRuleName.isSome then .servicePricingRuleFixed else .serviceDefaultFixed

/-- The new price of a row, where the recorded attribution gives one. -/
def resolveRow (before after : ServiceRegistration) (row : UsageRow) :
    Option ResolvedServiceCost :=
  if row.costMode = some .fixed ∨ row.costMode = some .none then
    (repriceRecordedServiceCost pricingFingerprint before after row.costSource row.pricingRuleName
      row.facts.httpMethod row.facts.endpointPath row.pricingRuleFingerprint).filter fun _ ↦
        decide (row.facts.routingMode ≠ some .litellmPassthrough)
  else none

/-- The price of a row is already the new one. -/
def UsageRow.hasPrice (row : UsageRow) (resolved : ResolvedServiceCost) : Bool :=
  decide (row.estimatedCost = resolved.estimatedCostUsd.map fun price ↦ (price.units : ℤ)) &&
    decide (row.costMode = some resolved.costMode) &&
    decide (row.costSource = some (newCostSource resolved)) &&
    decide (row.pricingRuleName = resolved.pricingRuleName) &&
    decide (row.pricingRuleFingerprint = resolved.pricingRuleFingerprint)

/-- The change of a row, if it has one. -/
def changeOf (before after : ServiceRegistration) (row : UsageRow) : Option ResolvedServiceCost :=
  (resolveRow pricingFingerprint before after row).filter fun resolved ↦ !row.hasPrice resolved

/-- The `UPDATE` of one row. -/
def UsageRow.reprice (row : UsageRow) (resolved : ResolvedServiceCost) : UsageRow :=
  { row with
    budgetEstimatedCost := some (row.budgetEstimatedCost.getD (row.estimatedCost.getD 0))
    estimatedCost := resolved.estimatedCostUsd.map fun price ↦ (price.units : ℤ)
    costMode := some resolved.costMode
    costSource := some (newCostSource resolved)
    pricingRuleName := resolved.pricingRuleName
    pricingRuleFingerprint := resolved.pricingRuleFingerprint }

/-! ### The loop over pages -/

/-- The rows of the service that a cursor has not passed. -/
def pending (service : Text) (cursor : Option Uuid) (row : UsageRow) : Bool :=
  decide (row.facts.serviceName = some service) &&
    cursor.all fun last ↦ decide (last.toNat < row.id.toNat)

def idOrder (row other : UsageRow) : Bool :=
  decide (row.id.toNat ≤ other.id.toNat)

/-- The page of 1000 rows after a cursor. -/
def repricingPage (rows : List UsageRow) (service : Text) (cursor : Option Uuid) : List UsageRow :=
  ((rows.filter (pending service cursor)).mergeSort idOrder).take 1000

def pageChanges (before after : ServiceRegistration) (page : List UsageRow) :
    List (Uuid × ResolvedServiceCost) :=
  page.filterMap fun row ↦ (changeOf pricingFingerprint before after row).map (row.id, ·)

/-- The `UPDATE` of the rows that have a change. -/
def applyChanges (rows : List UsageRow) (changes : List (Uuid × ResolvedServiceCost)) :
    List UsageRow :=
  rows.map fun row ↦
    match changes.find? fun change ↦ decide (change.1 = row.id) with
    | some change => row.reprice change.2
    | none => row

structure HistoricalUsageRepricing where
  updatedRequests : ℕ
  unchangedRequests : ℕ
  deriving DecidableEq, Repr

/-- A change keeps the columns that select and order the rows. -/
theorem pending_applyChanges (service : Text) (cursor : Option Uuid) (rows : List UsageRow)
    (changes : List (Uuid × ResolvedServiceCost)) :
    (applyChanges rows changes).countP (pending service cursor) =
      rows.countP (pending service cursor) := by
  rw [applyChanges, List.countP_map]
  apply List.countP_congr
  intro row _
  rw [Function.comp_apply]
  split
  · exact Iff.rfl
  · exact Iff.rfl

/-- Assumes: a row that the cursor has not passed. A row after it has not been passed either. -/
theorem pending_of_later {service : Text} {cursor : Option Uuid} {last row : UsageRow}
    (hlast : pending service cursor last = true)
    (hrow : pending service (some last.id) row = true) : pending service cursor row = true := by
  simp only [pending, Bool.and_eq_true, decide_eq_true_eq, Option.all_some] at hrow hlast ⊢
  refine ⟨hrow.1, ?_⟩
  cases cursor with
  | none => rfl
  | some cursor =>
    simp only [Option.all_some, decide_eq_true_eq] at hlast ⊢
    exact hlast.2.trans hrow.2

/-- Assumes: a row that the cursor has not passed. Moving the cursor to it leaves fewer rows. -/
theorem countP_pending_lt {service : Text} {cursor : Option Uuid} {rows : List UsageRow}
    {last : UsageRow} (hmem : last ∈ rows) (hlast : pending service cursor last = true) :
    rows.countP (pending service (some last.id)) < rows.countP (pending service cursor) := by
  have hsame : rows.countP (pending service (some last.id)) =
      (rows.filter (pending service cursor)).countP (pending service (some last.id)) := by
    rw [List.countP_filter]
    apply List.countP_congr
    intro row _
    rw [Bool.and_eq_true]
    exact ⟨fun hrow ↦ ⟨hrow, pending_of_later hlast hrow⟩, And.left⟩
  rw [hsame, List.countP_eq_length_filter (p := pending service cursor),
    List.countP_lt_length_iff]
  refine ⟨last, List.mem_filter.mpr ⟨hmem, hlast⟩, ?_⟩
  simp [pending]

/-- A page holds rows that the cursor has not passed. -/
theorem mem_repricingPage {rows : List UsageRow} {service : Text} {cursor : Option Uuid}
    {row : UsageRow} (hrow : row ∈ repricingPage rows service cursor) :
    row ∈ rows ∧ pending service cursor row = true := by
  have hsorted := List.mem_of_mem_take hrow
  rw [List.mem_mergeSort] at hsorted
  exact List.mem_filter.mp hsorted

/-- The loop of `reprice_service_usage_in_tx` from a cursor on. -/
def repriceLoop (before after : ServiceRegistration) (rows : List UsageRow) (cursor : Option Uuid)
    (summary : HistoricalUsageRepricing) : List UsageRow × HistoricalUsageRepricing :=
  match hlast : (repricingPage rows after.name cursor).getLast? with
  | none => (rows, summary)
  | some last =>
    have := mem_repricingPage (List.mem_of_getLast? hlast)
    let page := repricingPage rows after.name cursor
    let changes := pageChanges pricingFingerprint before after page
    repriceLoop before after (applyChanges rows changes) (some last.id)
      ⟨summary.updatedRequests + changes.length,
        summary.unchangedRequests +
          page.countP fun row ↦ (changeOf pricingFingerprint before after row).isNone⟩
termination_by rows.countP (pending after.name cursor)
decreasing_by
  rw [pending_applyChanges]
  exact countP_pending_lt this.1 this.2

/-- `reprice_service_usage_in_tx`. -/
def repriceServiceUsage (before after : ServiceRegistration) (rows : List UsageRow) :
    List UsageRow × HistoricalUsageRepricing :=
  repriceLoop pricingFingerprint before after rows none ⟨0, 0⟩

/-! ### What a repricing does -/

/-- A row after the repricing of its service. -/
def repriceRow (before after : ServiceRegistration) (row : UsageRow) : UsageRow :=
  match changeOf pricingFingerprint before after row with
  | some resolved => row.reprice resolved
  | none => row

@[simp] theorem repriceRow_id (before after : ServiceRegistration) (row : UsageRow) :
    (repriceRow pricingFingerprint before after row).id = row.id := by
  unfold repriceRow
  split
  · rfl
  · rfl

@[simp] theorem pending_repriceRow (before after : ServiceRegistration) (service : Text)
    (cursor : Option Uuid) (row : UsageRow) :
    pending service cursor (repriceRow pricingFingerprint before after row) =
      pending service cursor row := by
  unfold repriceRow
  split
  · rfl
  · rfl

variable {rows : List UsageRow} {service : Text} {cursor : Option Uuid}

theorem sorted_mergeSort_idOrder (rows : List UsageRow) :
    (rows.mergeSort idOrder).Pairwise fun row other ↦ idOrder row other = true := by
  apply List.pairwise_mergeSort
  · intro first second third hfirst hsecond
    exact decide_eq_true ((of_decide_eq_true hfirst).trans (of_decide_eq_true hsecond))
  · intro first second
    simpa [idOrder] using Nat.le_total first.id.toNat second.id.toNat

/-- Assumes: rows with different ids, and a page that is not empty. A row that the cursor has not
passed is in the page, or comes after its last row. -/
theorem mem_page_or_after (hids : (rows.map UsageRow.id).Nodup) {last row : UsageRow}
    (hlast : (repricingPage rows service cursor).getLast? = some last) (hrow : row ∈ rows)
    (hpending : pending service cursor row = true) :
    row ∈ repricingPage rows service cursor ∨ last.id.toNat < row.id.toNat := by
  by_cases hpage : row ∈ repricingPage rows service cursor
  · exact .inl hpage
  · have hmem := List.mem_of_getLast? hlast
    have hsorted := sorted_mergeSort_idOrder (rows.filter (pending service cursor))
    have hall : row ∈ (rows.filter (pending service cursor)).mergeSort idOrder :=
      List.mem_mergeSort.mpr (List.mem_filter.mpr ⟨hrow, hpending⟩)
    rw [← List.take_append_drop 1000 (List.mergeSort _ _)] at hall hsorted
    have hrest := (List.mem_append.mp hall).resolve_left hpage
    rw [List.pairwise_append] at hsorted
    have hle := of_decide_eq_true (hsorted.2.2 last hmem row hrest)
    refine .inr (lt_of_le_of_ne hle fun hsame ↦ hpage ?_)
    have hrows := List.inj_on_of_nodup_map hids (mem_repricingPage hmem).1 hrow
      (BitVec.eq_of_toNat_eq hsame)
    exact hrows ▸ hmem

/-- Assumes: a page with a last row. No row of the page comes after it. -/
theorem id_le_last {last row : UsageRow}
    (hlast : (repricingPage rows service cursor).getLast? = some last)
    (hrow : row ∈ repricingPage rows service cursor) : row.id.toNat ≤ last.id.toNat := by
  have hsorted := (sorted_mergeSort_idOrder (rows.filter (pending service cursor))).sublist
    (List.take_sublist 1000 _)
  have hpage : repricingPage rows service cursor =
      (repricingPage rows service cursor).dropLast ++ [last] :=
    (List.dropLast_append_getLast? last hlast).symm
  change (repricingPage rows service cursor).Pairwise _ at hsorted
  rw [hpage, List.pairwise_append] at hsorted
  rw [hpage] at hrow
  rcases List.mem_append.mp hrow with hbefore | hsame
  · exact of_decide_eq_true (hsorted.2.2 row hbefore last (List.mem_singleton_self last))
  · rw [List.mem_singleton.mp hsame]

/-- Assumes: rows with different ids, and a page with a last row. The cursor has not passed a row
after that page just when it had not passed it before and the row is not in the page. -/
theorem pending_last_iff (hids : (rows.map UsageRow.id).Nodup) {last row : UsageRow}
    (hlast : (repricingPage rows service cursor).getLast? = some last) (hrow : row ∈ rows) :
    pending service (some last.id) row = true ↔
      pending service cursor row = true ∧ row ∉ repricingPage rows service cursor := by
  have hcursor := (mem_repricingPage (List.mem_of_getLast? hlast)).2
  constructor
  · intro hafter
    refine ⟨pending_of_later hcursor hafter, fun hpage ↦ ?_⟩
    simp only [pending, Bool.and_eq_true, decide_eq_true_eq, Option.all_some] at hafter
    exact absurd (id_le_last hlast hpage) (not_le.mpr hafter.2)
  · rintro ⟨hpending, hpage⟩
    have hafter := (mem_page_or_after hids hlast hrow hpending).resolve_left hpage
    simp only [pending, Bool.and_eq_true, decide_eq_true_eq, Option.all_some] at hpending ⊢
    exact ⟨hpending.1, hafter⟩

/-- Assumes: rows with different ids. The changes of a page are those of its rows. -/
theorem applyChanges_page (hids : (rows.map UsageRow.id).Nodup)
    (before after : ServiceRegistration) (service : Text) (cursor : Option Uuid) :
    applyChanges rows (pageChanges pricingFingerprint before after
        (repricingPage rows service cursor)) =
      rows.map fun row ↦ if row ∈ repricingPage rows service cursor then
        repriceRow pricingFingerprint before after row else row := by
  apply List.map_congr_left
  intro row hrow
  have hunique : ∀ other ∈ repricingPage rows service cursor, other.id = row.id → other = row :=
    fun other hother hid ↦ List.inj_on_of_nodup_map hids (mem_repricingPage hother).1 hrow hid
  split
  · rename_i change hfound
    have hmem := List.mem_of_find?_eq_some hfound
    have hid : change.1 = row.id := by simpa using List.find?_some hfound
    rw [pageChanges, List.mem_filterMap] at hmem
    obtain ⟨other, hother, hchange⟩ := hmem
    rw [Option.map_eq_some_iff] at hchange
    obtain ⟨resolved, hresolved, rfl⟩ := hchange
    obtain rfl := hunique other hother hid
    rw [if_pos hother, repriceRow, hresolved]
  · rename_i hmissing
    split
    · rename_i hpage
      rw [repriceRow]
      split
      · rename_i resolved hresolved
        have hchange : (row.id, resolved) ∈ pageChanges pricingFingerprint before after
            (repricingPage rows service cursor) :=
          List.mem_filterMap.mpr ⟨row, hpage, by rw [hresolved]; rfl⟩
        have hno := List.find?_eq_none.mp hmissing _ hchange
        exact absurd (decide_eq_true rfl) hno
      · rfl
    · rfl

/-- A row after a repricing that has come past a cursor. -/
def repriceFrom (before after : ServiceRegistration) (cursor : Option Uuid) (row : UsageRow) :
    UsageRow :=
  if pending after.name cursor row then repriceRow pricingFingerprint before after row else row

/-- How many rows the cursor has not passed have a property. -/
def countFrom (rows : List UsageRow) (service : Text) (cursor : Option Uuid)
    (holds : UsageRow → Bool) : ℕ :=
  rows.countP fun row ↦ holds row && pending service cursor row

/-- Assumes: rows with different ids, and a page with a last row. The rows that the cursor has not
passed are those of the page and those after it. -/
theorem countFrom_eq (hids : (rows.map UsageRow.id).Nodup) {last : UsageRow}
    (hlast : (repricingPage rows service cursor).getLast? = some last)
    (holds : UsageRow → Bool) : countFrom rows service cursor holds =
      (repricingPage rows service cursor).countP holds +
        countFrom rows service (some last.id) holds := by
  have hcursor := (mem_repricingPage (List.mem_of_getLast? hlast)).2
  have hperm := List.mergeSort_perm (rows.filter (pending service cursor)) idOrder
  have hrest : countFrom rows service (some last.id) holds =
      (((rows.filter (pending service cursor)).mergeSort idOrder).drop 1000).countP holds := by
    have hwithin : countFrom rows service (some last.id) holds =
        ((rows.filter (pending service cursor)).mergeSort idOrder).countP fun row ↦
          holds row && pending service (some last.id) row := by
      rw [hperm.countP_eq, List.countP_filter, countFrom]
      apply List.countP_congr
      intro row _
      simp only [Bool.and_eq_true]
      exact ⟨fun h ↦ ⟨h, pending_of_later hcursor h.2⟩, And.left⟩
    have hnodup := hperm.nodup_iff.mpr (hids.of_map.filter (pending service cursor))
    have hmem : ∀ row ∈ (rows.filter (pending service cursor)).mergeSort idOrder,
        row ∈ rows ∧ pending service cursor row = true :=
      fun row hrow ↦ List.mem_filter.mp (List.mem_mergeSort.mp hrow)
    rw [← List.take_append_drop 1000 (List.mergeSort _ _)] at hwithin hnodup hmem
    rw [hwithin, List.countP_append, List.countP_eq_zero.mpr, Nat.zero_add]
    · apply List.countP_congr
      intro row hrow
      have hrow' := hmem row (List.mem_append_right _ hrow)
      have hafter := (pending_last_iff hids hlast hrow'.1).mpr
        ⟨hrow'.2, fun hpage ↦ List.disjoint_of_nodup_append hnodup hpage hrow⟩
      rw [hafter, Bool.and_true]
    · intro row hpage hholds
      have hrow' := hmem row (List.mem_append_left _ hpage)
      have hafter := (pending_last_iff hids hlast hrow'.1).mp (Bool.and_eq_true_iff.mp hholds).2
      exact hafter.2 hpage
  rw [hrest, repricingPage, ← List.countP_append, List.take_append_drop, hperm.countP_eq,
    List.countP_filter]
  rfl

/-- The loop ends at an empty page. -/
theorem repriceLoop_empty {before after : ServiceRegistration} {summary : HistoricalUsageRepricing}
    (hempty : (repricingPage rows after.name cursor).getLast? = none) :
    repriceLoop pricingFingerprint before after rows cursor summary = (rows, summary) := by
  rw [repriceLoop]
  split
  · rfl
  · rename_i heq
    rw [hempty] at heq
    cases heq

/-- The loop goes on after a page that is not empty. -/
theorem repriceLoop_page {before after : ServiceRegistration} {summary : HistoricalUsageRepricing}
    {last : UsageRow} (hlast : (repricingPage rows after.name cursor).getLast? = some last) :
    repriceLoop pricingFingerprint before after rows cursor summary =
      repriceLoop pricingFingerprint before after
        (applyChanges rows
          (pageChanges pricingFingerprint before after (repricingPage rows after.name cursor)))
        (some last.id)
        ⟨summary.updatedRequests + (pageChanges pricingFingerprint before after
            (repricingPage rows after.name cursor)).length,
          summary.unchangedRequests + (repricingPage rows after.name cursor).countP fun row ↦
            (changeOf pricingFingerprint before after row).isNone⟩ := by
  rw [repriceLoop]
  split
  · rename_i heq
    rw [hlast] at heq
    cases heq
  · rename_i other heq
    rw [hlast] at heq
    rw [Option.some.inj heq]

/-- Assumes: an empty page. The cursor has passed every row. -/
theorem pending_of_empty (hempty : (repricingPage rows service cursor).getLast? = none)
    {row : UsageRow} (hrow : row ∈ rows) : pending service cursor row = false := by
  rw [Bool.eq_false_iff]
  intro hpending
  have hmem : row ∈ (rows.filter (pending service cursor)).mergeSort idOrder :=
    List.mem_mergeSort.mpr (List.mem_filter.mpr ⟨hrow, hpending⟩)
  have hpage := List.getLast?_eq_none_iff.mp hempty
  rw [repricingPage, List.take_eq_nil_iff] at hpage
  rcases hpage with hzero | hnil
  · cases hzero
  · rw [hnil] at hmem
    cases hmem

/-- Assumes: rows with different ids. The loop reprices the rows that its cursor has not passed,
each once. -/
theorem repriceLoop_eq (before after : ServiceRegistration) (rows : List UsageRow)
    (cursor : Option Uuid) (summary : HistoricalUsageRepricing)
    (hids : (rows.map UsageRow.id).Nodup) :
    repriceLoop pricingFingerprint before after rows cursor summary =
      (rows.map (repriceFrom pricingFingerprint before after cursor),
        ⟨summary.updatedRequests + countFrom rows after.name cursor fun row ↦
            (changeOf pricingFingerprint before after row).isSome,
          summary.unchangedRequests + countFrom rows after.name cursor fun row ↦
            (changeOf pricingFingerprint before after row).isNone⟩) := by
  induction rows, cursor, summary using repriceLoop.induct pricingFingerprint before after with
  | case1 rows cursor summary hempty =>
    have hnone : ∀ row ∈ rows, pending after.name cursor row = false :=
      fun row hrow ↦ pending_of_empty hempty hrow
    have hzero : ∀ holds, countFrom rows after.name cursor holds = 0 := by
      intro holds
      rw [countFrom, List.countP_eq_zero]
      intro row hrow
      rw [hnone row hrow, Bool.and_false]
      exact Bool.false_ne_true
    have hsame : rows.map (repriceFrom pricingFingerprint before after cursor) = rows := by
      rw [← List.map_id rows, List.map_map]
      apply List.map_congr_left
      intro row hrow
      rw [Function.comp_apply, id_eq, repriceFrom, hnone row hrow]
      rfl
    rw [repriceLoop_empty pricingFingerprint hempty, hzero, hzero, hsame, Nat.add_zero,
      Nat.add_zero]
  | case2 rows cursor summary last hlast hmem page changes ih =>
    have hrows := applyChanges_page pricingFingerprint hids before after after.name cursor
    have hkept : ∀ row ∈ rows, pending after.name (some last.id) row = true →
        row ∉ repricingPage rows after.name cursor :=
      fun row hrow hafter ↦ ((pending_last_iff hids hlast hrow).mp hafter).2
    have hids' : ((applyChanges rows changes).map UsageRow.id).Nodup := by
      rw [hrows, List.map_map]
      convert hids using 2
      funext row
      rw [Function.comp_apply]
      split
      · exact repriceRow_id pricingFingerprint before after row
      · rfl
    have hcount : ∀ holds, countFrom (applyChanges rows changes) after.name (some last.id) holds =
        countFrom rows after.name (some last.id) holds := by
      intro holds
      rw [hrows, countFrom, countFrom, List.countP_map]
      apply List.countP_congr
      intro row hrow
      rw [Function.comp_apply]
      split
      · rename_i hpage
        have hpassed : pending after.name (some last.id) row = false :=
          Bool.eq_false_iff.mpr fun hafter ↦ hkept row hrow hafter hpage
        rw [pending_repriceRow, hpassed, Bool.and_false, Bool.and_false]
      · exact Iff.rfl
    have hmap : (applyChanges rows changes).map
        (repriceFrom pricingFingerprint before after (some last.id)) =
          rows.map (repriceFrom pricingFingerprint before after cursor) := by
      rw [hrows, List.map_map]
      apply List.map_congr_left
      intro row hrow
      rw [Function.comp_apply, repriceFrom, repriceFrom]
      split
      · rename_i hpage
        have hpassed : pending after.name (some last.id) row = false :=
          Bool.eq_false_iff.mpr fun hafter ↦ hkept row hrow hafter hpage
        rw [pending_repriceRow, hpassed, (mem_repricingPage hpage).2]
        rfl
      · rename_i hpage
        have hsame : pending after.name (some last.id) row = pending after.name cursor row :=
          Bool.eq_iff_iff.mpr ((pending_last_iff hids hlast hrow).trans (and_iff_left hpage))
        rw [hsame]
    have hlength : changes.length = (repricingPage rows after.name cursor).countP fun row ↦
        (changeOf pricingFingerprint before after row).isSome := by
      simp only [changes, page, pageChanges, List.length_filterMap_eq_countP, Option.isSome_map]
    rw [repriceLoop_page pricingFingerprint hlast, ih hids', hcount, hcount, hmap,
      countFrom_eq hids hlast, countFrom_eq hids hlast, hlength]
    simp only [Nat.add_assoc]
    rfl

/-- Assumes: rows with different ids. A repricing rewrites the rows of the service whose price
differs, and counts them. -/
theorem repriceServiceUsage_eq (before after : ServiceRegistration) (rows : List UsageRow)
    (hids : (rows.map UsageRow.id).Nodup) :
    repriceServiceUsage pricingFingerprint before after rows =
      (rows.map (repriceFrom pricingFingerprint before after none),
        ⟨countFrom rows after.name none fun row ↦
            (changeOf pricingFingerprint before after row).isSome,
          countFrom rows after.name none fun row ↦
            (changeOf pricingFingerprint before after row).isNone⟩) := by
  rw [repriceServiceUsage, repriceLoop_eq _ _ _ _ _ _ hids]
  simp only [Nat.zero_add]

end Relayna.Usage

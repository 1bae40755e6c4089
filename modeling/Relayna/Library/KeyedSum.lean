import Mathlib.Algebra.BigOperators.Group.List.Basic
import Mathlib.Algebra.BigOperators.Ring.List
import Mathlib.Algebra.Order.BigOperators.Group.List
import Mathlib.Data.Finset.Card
import Mathlib.Data.List.AList

/-!
# Sums over the entries of an association list

Ledgers keep, beside a table of open entries, a counter that should be the sum of some measure of
the entries: reserved amounts, working bytes, permits. `total measure table` is that sum, over
Mathlib's `AList`, and the lemmas say how it moves when an entry is inserted, erased or overwritten.
A counter that moves the same way therefore stays equal to the sum, and the bound `measure_le_total`
of one entry by the sum is what keeps a subtraction from going below zero.
-/

set_option autoImplicit false
set_option relaxedAutoImplicit false

namespace Relayna.Library.KeyedSum

variable {Key Value Amount : Type*}

section Monoid

variable [AddCommMonoid Amount]

/-- The sum of a measure over the entries of a table. -/
def total (measure : Key → Value → Amount) (table : AList fun _ : Key ↦ Value) : Amount :=
  (table.entries.map fun entry ↦ measure entry.1 entry.2).sum

@[simp] theorem total_empty (measure : Key → Value → Amount) :
    total measure (∅ : AList fun _ : Key ↦ Value) = 0 :=
  rfl

/-- Measures that agree on the entries of a table have the same total. -/
theorem total_congr [DecidableEq Key] {measure measure' : Key → Value → Amount}
    (table : AList fun _ : Key ↦ Value)
    (hagree : ∀ key value, table.lookup key = some value → measure key value = measure' key value) :
    total measure table = total measure' table := by
  unfold total
  congr 1
  refine List.map_congr_left fun entry hentry ↦ ?_
  exact hagree entry.1 entry.2 (AList.mem_lookup_iff.mpr hentry)

/-- A measure that is zero on the entries of a table has total zero. -/
theorem total_eq_zero [DecidableEq Key] (measure : Key → Value → Amount)
    {table : AList fun _ : Key ↦ Value}
    (hzero : ∀ key value, table.lookup key = some value → measure key value = 0) :
    total measure table = 0 := by
  refine List.sum_eq_zero fun amount hamount ↦ ?_
  obtain ⟨entry, hentry, rfl⟩ := List.mem_map.mp hamount
  exact hzero entry.1 entry.2 (AList.mem_lookup_iff.mpr hentry)

/-- The total of a sum of measures is the sum of their totals. -/
theorem total_add (measure measure' : Key → Value → Amount) (table : AList fun _ : Key ↦ Value) :
    total (fun key value ↦ measure key value + measure' key value) table =
      total measure table + total measure' table :=
  List.sum_map_add

variable [DecidableEq Key]

/-- A new entry adds its measure. Assumes: a key the table does not hold. -/
theorem total_insert_of_notMem (measure : Key → Value → Amount) {table : AList fun _ : Key ↦ Value}
    {key : Key} (hkey : key ∉ table) (value : Value) :
    total measure (table.insert key value) = measure key value + total measure table := by
  unfold total
  rw [AList.entries_insert_of_notMem hkey, List.map_cons, List.sum_cons]

/-- Erasing an entry takes its measure away. Assumes: an entry of the table. -/
theorem measure_add_total_erase (measure : Key → Value → Amount)
    {table : AList fun _ : Key ↦ Value} {key : Key} {value : Value}
    (hlookup : table.lookup key = some value) :
    measure key value + total measure (table.erase key) = total measure table := by
  have hmem : key ∈ table.entries.keys := by
    rw [← AList.keys, ← AList.mem_keys, ← AList.lookup_isSome, hlookup]
    rfl
  obtain ⟨found, before, after, hbefore, hentries, herase⟩ := List.exists_of_kerase hmem
  have hfound : table.lookup key = some found := by
    refine AList.mem_lookup_iff.mpr ?_
    rw [hentries]
    simp
  have hsame : found = value := Option.some.inj (hfound.symm.trans hlookup)
  have hrest : (table.erase key).entries = before ++ after := herase
  unfold total
  rw [hrest, hentries, hsame]
  simp only [List.map_append, List.map_cons, List.sum_append, List.sum_cons]
  exact add_left_comm _ _ _

/-- Overwriting an entry replaces its measure. Assumes: an entry of the table. -/
theorem measure_add_total_insert (measure : Key → Value → Amount)
    {table : AList fun _ : Key ↦ Value} {key : Key} {value : Value}
    (hlookup : table.lookup key = some value) (replacement : Value) :
    measure key value + total measure (table.insert key replacement) =
      measure key replacement + total measure table := by
  have hinsert : total measure (table.insert key replacement) =
      measure key replacement + total measure (table.erase key) := by
    unfold total
    rw [AList.entries_insert, List.map_cons, List.sum_cons]
    rfl
  rw [hinsert, ← measure_add_total_erase measure hlookup]
  exact add_left_comm _ _ _

end Monoid

section Counting

/-- The total of an indicator is the number of entries it holds of. -/
theorem total_indicator (holds : Key → Value → Prop) [∀ key value, Decidable (holds key value)]
    (table : AList fun _ : Key ↦ Value) :
    total (fun key value ↦ if holds key value then 1 else 0) table =
      table.entries.countP fun entry ↦ holds entry.1 entry.2 := by
  unfold total
  induction table.entries with
  | nil => rfl
  | cons entry rest ih =>
    rw [List.map_cons, List.sum_cons, List.countP_cons, ih, Nat.add_comm]
    simp only [decide_eq_true_eq]

/-- The number of keys with a property is the total of its indicator. -/
theorem card_filter_keys [DecidableEq Key] (holds : Key → Prop) [DecidablePred holds]
    (table : AList fun _ : Key ↦ Value) :
    (table.keys.toFinset.filter holds).card =
      total (fun key _ ↦ if holds key then 1 else 0) table := by
  have hfilter : table.keys.toFinset.filter holds =
      (table.keys.filter fun key ↦ holds key).toFinset := by
    rw [List.toFinset_filter]
    simp only [decide_eq_true_eq]
  rw [total_indicator (fun key _ ↦ holds key), hfilter,
    List.toFinset_card_of_nodup (table.keys_nodup.filter _), ← List.countP_eq_length_filter,
    AList.keys, List.keys, List.countP_map]
  rfl

end Counting

section Semiring

variable [NonUnitalNonAssocSemiring Amount]

/-- A common factor of a measure is a factor of its total. -/
theorem total_mul_left (factor : Amount) (measure : Key → Value → Amount)
    (table : AList fun _ : Key ↦ Value) :
    total (fun key value ↦ factor * measure key value) table = factor * total measure table :=
  List.sum_map_mul_left _ _ _

end Semiring

section Ordered

variable [AddCommMonoid Amount] [PartialOrder Amount] [IsOrderedAddMonoid Amount]
variable [DecidableEq Key]

/-- A total of nonnegative measures is nonnegative. -/
theorem total_nonneg (measure : Key → Value → Amount) {table : AList fun _ : Key ↦ Value}
    (hnonneg : ∀ key value, table.lookup key = some value → 0 ≤ measure key value) :
    0 ≤ total measure table := by
  refine List.sum_nonneg fun amount hamount ↦ ?_
  obtain ⟨entry, hentry, rfl⟩ := List.mem_map.mp hamount
  exact hnonneg entry.1 entry.2 (AList.mem_lookup_iff.mpr hentry)

/-- One entry's measure is at most the total. Assumes: nonnegative measures. -/
theorem measure_le_total (measure : Key → Value → Amount) {table : AList fun _ : Key ↦ Value}
    (hnonneg : ∀ key value, table.lookup key = some value → 0 ≤ measure key value) {key : Key}
    {value : Value} (hlookup : table.lookup key = some value) :
    measure key value ≤ total measure table := by
  rw [← measure_add_total_erase measure hlookup]
  refine le_add_of_nonneg_right (total_nonneg measure fun other value' hother ↦ ?_)
  by_cases hkey : other = key
  · rw [hkey, AList.lookup_erase] at hother
    exact absurd hother (by simp)
  · rw [AList.lookup_erase_ne hkey] at hother
    exact hnonneg other value' hother

/-- A measure bounded by another has a smaller total. -/
theorem total_le_total (measure measure' : Key → Value → Amount)
    {table : AList fun _ : Key ↦ Value}
    (hle : ∀ key value, table.lookup key = some value → measure key value ≤ measure' key value) :
    total measure table ≤ total measure' table := by
  refine List.sum_le_sum fun entry hentry ↦ ?_
  exact hle entry.1 entry.2 (AList.mem_lookup_iff.mpr hentry)

end Ordered

end Relayna.Library.KeyedSum

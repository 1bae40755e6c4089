import Mathlib.Data.List.Sort
import Mathlib.Order.Lattice

/-!
# Keyset pages

A listing hands out its rows in the order of a key, a page at a time. Each page is read from what is
there by then, with a condition that the key is greater than the one at which the page before ended.
When no two rows have the same key, the pages are the pieces of one sorted list:
`drop_eq_filter_last` says that what the condition selects is what the pages before have left.
-/

set_option autoImplicit false
set_option relaxedAutoImplicit false

namespace Relayna.Library.Keyset

variable {Row Key : Type*} [LinearOrder Key] (key : Row → Key)

/-- Whether a row comes no later than another. -/
def before (row other : Row) : Bool :=
  decide (key row ≤ key other)

/-- The rows in the order of their keys. -/
def ordered (rows : List Row) : List Row :=
  rows.mergeSort (before key)

/-- Whether a row comes after a bound. -/
def after (bound : Option Key) (row : Row) : Bool :=
  bound.all fun least ↦ decide (least < key row)

variable {key} {rows : List Row}

theorem ordered_perm (rows : List Row) : (ordered key rows).Perm rows :=
  List.mergeSort_perm rows (before key)

theorem ordered_sorted (rows : List Row) :
    (ordered key rows).Pairwise fun row other ↦ key row ≤ key other := by
  have hsorted : (ordered key rows).Pairwise fun row other ↦ before key row other = true := by
    apply List.pairwise_mergeSort
    · intro first second third hfirst hsecond
      exact decide_eq_true ((of_decide_eq_true hfirst).trans (of_decide_eq_true hsecond))
    · intro first second
      simpa [before] using le_total (key first) (key second)
  exact hsorted.imp of_decide_eq_true

/-- Assumes: rows with different keys. Each ordered row comes strictly before the next. -/
theorem ordered_strict (hkeys : (rows.map key).Nodup) :
    (ordered key rows).Pairwise fun row other ↦ key row < key other := by
  have hdistinct : (ordered key rows).Pairwise fun row other ↦ key row ≠ key other :=
    List.pairwise_map.mp (((ordered_perm rows).map key).nodup_iff.mpr hkeys)
  exact (List.pairwise_and_iff.mpr ⟨ordered_sorted rows, hdistinct⟩).imp
    fun h ↦ lt_of_le_of_ne h.1 h.2

/-- Assumes: a list in strict order, and the same rows. It is the ordered list. -/
theorem eq_ordered {sorted : List Row}
    (hsorted : sorted.Pairwise fun row other ↦ key row < key other) (hperm : sorted.Perm rows) :
    sorted = ordered key rows := by
  have hkeys : (rows.map key).Nodup := by
    apply (hperm.map key).nodup_iff.mp
    exact List.pairwise_map.mpr (hsorted.imp ne_of_lt)
  apply (hperm.trans (ordered_perm rows).symm).eq_of_pairwise _ hsorted (ordered_strict hkeys)
  intro row other _ _ hbefore hafter
  exact absurd (hbefore.trans hafter) (lt_irrefl _)

/-- Assumes: rows with different keys. Selecting and ordering commute. -/
theorem ordered_filter (hkeys : (rows.map key).Nodup) (selects : Row → Bool) :
    ordered key (rows.filter selects) = (ordered key rows).filter selects := by
  symm
  apply eq_ordered
  · exact (ordered_strict hkeys).filter selects
  · exact (ordered_perm rows).filter selects

/-- Assumes: a function of the rows that keeps the keys. It commutes with ordering. -/
theorem map_ordered {Image : Type*} (key : Row → Key) (key' : Image → Key) (image : Row → Image)
    (hkey : ∀ row, key' (image row) = key row) (rows : List Row) :
    (ordered key rows).map image = ordered key' (rows.map image) := by
  apply List.map_mergeSort
  intro row _ other _
  rw [before, before, hkey, hkey]

/-- Assumes: a list in strict order, and the last row of its beginning. What comes after that row is
the rest of the list. -/
theorem drop_eq_filter_last {sorted : List Row} {count : ℕ} {last : Row}
    (hsorted : sorted.Pairwise fun row other ↦ key row < key other)
    (hlast : (sorted.take count).getLast? = some last) :
    sorted.filter (after key (some (key last))) = sorted.drop count := by
  rw [← List.take_append_drop count sorted, List.pairwise_append] at hsorted
  have htake : (sorted.take count).filter (after key (some (key last))) = [] := by
    rw [List.filter_eq_nil_iff]
    intro row hrow
    rw [← List.dropLast_append_getLast? last hlast] at hrow hsorted
    have hle : key row ≤ key last := by
      rcases List.mem_append.mp hrow with hinit | hend
      · exact ((List.pairwise_append.mp hsorted.1).2.2 row hinit last
          (List.mem_singleton_self last)).le
      · rw [List.mem_singleton.mp hend]
    simpa [after] using hle
  have hdrop : (sorted.drop count).filter (after key (some (key last))) = sorted.drop count := by
    rw [List.filter_eq_self]
    intro row hrow
    exact decide_eq_true (hsorted.2.2 last (List.mem_of_getLast? hlast) row hrow)
  conv_lhs => rw [← List.take_append_drop count sorted]
  rw [List.filter_append, htake, hdrop, List.nil_append]

/-- Assumes: a list in strict order, a bound that leaves a piece of it, and the last row of a page
of that piece. The next bound leaves what the page has left of the piece. -/
theorem filter_after_page {sorted rest : List Row} {bound : Option Key} {count : ℕ} {last : Row}
    (hsorted : sorted.Pairwise fun row other ↦ key row < key other)
    (hrest : sorted.filter (after key bound) = rest)
    (hlast : (rest.take count).getLast? = some last) :
    sorted.filter (after key (some (key last))) = rest.drop count := by
  have hafter : after key bound last = true := by
    have hmem := List.mem_of_mem_take (List.mem_of_getLast? hlast)
    rw [← hrest] at hmem
    exact List.of_mem_filter hmem
  have hsorted' : rest.Pairwise fun row other ↦ key row < key other :=
    hrest ▸ hsorted.filter (after key bound)
  rw [← drop_eq_filter_last hsorted' hlast, ← hrest, List.filter_filter]
  apply List.filter_congr
  intro row _
  rw [Bool.eq_iff_iff, Bool.and_eq_true]
  refine ⟨fun hrow ↦ ⟨hrow, ?_⟩, And.left⟩
  cases bound with
  | none => rfl
  | some least =>
    exact decide_eq_true ((of_decide_eq_true hafter).trans (of_decide_eq_true hrow))

end Relayna.Library.Keyset

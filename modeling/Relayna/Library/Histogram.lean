import Mathlib.Algebra.Order.Ring.Nat
import Mathlib.Data.List.OfFn
import Mathlib.Data.Multiset.Filter

/-!
# Histograms over increasing bounds

A histogram counts samples in buckets: one for each bound of an increasing list, which takes the
samples that are at most the bound and above the bound before it, and one for what is above the last
bound. `index` is the bucket of a sample and `tallies` are the counts of the buckets, by recursion
on the bounds: the first bucket, and the histogram of what is above its bound.

`ofFn_countP_index` says that counting by `index` gives `tallies`, and `countP_le_split` how the
number of samples up to a bound grows from one bound to a larger one.
-/

set_option autoImplicit false
set_option relaxedAutoImplicit false

namespace Relayna.Library.Histogram

variable {Value : Type*} [LinearOrder Value]

/-- The bucket of a value. -/
def index (bounds : List Value) (value : Value) : ℕ :=
  (bounds.takeWhile fun bound ↦ bound < value).length

theorem index_cons (bound : Value) (bounds : List Value) (value : Value) :
    index (bound :: bounds) value = if bound < value then index bounds value + 1 else 0 := by
  unfold index
  by_cases hbound : bound < value
  · rw [List.takeWhile_cons_of_pos (by simpa using hbound), List.length_cons, if_pos hbound]
  · rw [List.takeWhile_cons_of_neg (by simpa using hbound), List.length_nil, if_neg hbound]

/-- The counts of the buckets. -/
def tallies : List Value → Multiset Value → List ℕ
  | [], samples => [samples.card]
  | bound :: bounds, samples =>
    samples.countP (· ≤ bound) :: tallies bounds (samples.filter (bound < ·))

/-- Counting the samples of each bucket gives the counts of the buckets. -/
theorem ofFn_countP_index (bounds : List Value) (samples : Multiset Value) :
    List.ofFn (fun bucket : Fin (bounds.length + 1) ↦
      samples.countP fun value ↦ index bounds value = bucket) = tallies bounds samples := by
  induction bounds generalizing samples with
  | nil =>
    rw [List.ofFn_succ]
    simp [tallies, index]
  | cons bound bounds ih =>
    rw [List.ofFn_succ, tallies, ← ih]
    congr 1
    · refine Multiset.countP_congr rfl fun value _ ↦ ?_
      rw [index_cons]
      by_cases hbound : bound < value
      · simp [hbound]
      · simp [hbound, not_lt.mp hbound]
    · congr 1
      ext bucket
      rw [Multiset.countP_filter]
      refine Multiset.countP_congr rfl fun value _ ↦ ?_
      rw [index_cons]
      by_cases hbound : bound < value
      · simp [hbound]
      · simp [hbound]

/-- Assumes: a bound below another. The samples up to the larger bound are those up to the smaller
one, and those between the two. -/
theorem countP_le_split {bound other : Value} (hother : bound < other) (samples : Multiset Value) :
    samples.countP (· ≤ other) =
      samples.countP (· ≤ bound) + (samples.filter (bound < ·)).countP (· ≤ other) := by
  rw [Multiset.countP_filter]
  induction samples using Multiset.induction with
  | empty => rfl
  | cons value samples ih =>
    rw [Multiset.countP_cons, Multiset.countP_cons, Multiset.countP_cons, ih]
    by_cases hbound : value ≤ bound
    · simp [hbound, hbound.trans hother.le, not_lt.mpr hbound]
      omega
    · by_cases hvalue : value ≤ other
      · simp [hbound, hvalue, not_le.mp hbound]
        omega
      · simp [hbound, hvalue]

/-- Every sample is in one bucket. -/
theorem sum_tallies (bounds : List Value) (samples : Multiset Value) :
    (tallies bounds samples).sum = samples.card := by
  induction bounds generalizing samples with
  | nil => simp [tallies]
  | cons bound bounds ih =>
    have hrest : (samples.filter (bound < ·)).card = samples.countP fun value ↦ ¬value ≤ bound := by
      rw [Multiset.countP_eq_card_filter]
      simp only [not_le]
    rw [tallies, List.sum_cons, ih, hrest]
    exact (Multiset.card_eq_countP_add_countP (· ≤ bound) samples).symm

end Relayna.Library.Histogram

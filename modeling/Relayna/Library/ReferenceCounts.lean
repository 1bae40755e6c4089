import Mathlib.Algebra.BigOperators.Group.List.Basic
import Mathlib.Algebra.Ring.Nat
import Mathlib.Data.List.Perm.Basic
import Relayna.Library.KeyedSum

/-!
# Tables of reference counts

A table counts how many references to a key are alive and forgets a key whose last reference is
gone. `Counts table live` says that the table is the counting of a list of live references: it holds
exactly the keys that occur, each with its multiplicity, so no entry is zero and no count can go
below zero. Acquiring and releasing keep it (`Counts.acquire`, `Counts.release`), and every weighted
sum over the table is the sum over the references (`Counts.total_eq`).
-/

set_option autoImplicit false
set_option relaxedAutoImplicit false

namespace Relayna.Library.ReferenceCounts

open Relayna.Library.KeyedSum

variable {Key : Type*} [DecidableEq Key]

/-- One more reference to a key. -/
def acquire (table : AList fun _ : Key ↦ ℕ) (key : Key) : AList fun _ : Key ↦ ℕ :=
  table.insert key ((table.lookup key).getD 0 + 1)

/-- One reference less; the last one takes the entry away. -/
def release (table : AList fun _ : Key ↦ ℕ) (key : Key) : AList fun _ : Key ↦ ℕ :=
  match table.lookup key with
  | none => table
  | some count => if count - 1 = 0 then table.erase key else table.insert key (count - 1)

/-- The table counts the live references. -/
def Counts (table : AList fun _ : Key ↦ ℕ) (live : List Key) : Prop :=
  ∀ key, table.lookup key = if live.count key = 0 then none else some (live.count key)

theorem counts_empty : Counts (∅ : AList fun _ : Key ↦ ℕ) [] :=
  fun _ ↦ rfl

theorem Counts.perm {table : AList fun _ : Key ↦ ℕ} {live live' : List Key}
    (hcounts : Counts table live) (hperm : live.Perm live') : Counts table live' := by
  intro key
  rw [hcounts key, hperm.count_eq key]

theorem Counts.lookup_getD {table : AList fun _ : Key ↦ ℕ} {live : List Key}
    (hcounts : Counts table live) (key : Key) : (table.lookup key).getD 0 = live.count key := by
  rw [hcounts key]
  split_ifs with hzero
  · exact hzero.symm
  · rfl

theorem Counts.acquire {table : AList fun _ : Key ↦ ℕ} {live : List Key}
    (hcounts : Counts table live) (key : Key) :
    Counts (acquire table key) (key :: live) := by
  intro other
  unfold ReferenceCounts.acquire
  rw [hcounts.lookup_getD key]
  by_cases hkey : other = key
  · subst hkey
    simp
  · rw [AList.lookup_insert_ne hkey, hcounts other, List.count_cons_of_ne (Ne.symm hkey)]

/-- Assumes: a reference that is alive. Releasing it leaves the counting of the others. -/
theorem Counts.release {table : AList fun _ : Key ↦ ℕ} {key : Key} {rest : List Key}
    (hcounts : Counts table (key :: rest)) : Counts (release table key) rest := by
  have hkey : table.lookup key = some (rest.count key + 1) := by
    rw [hcounts key, List.count_cons_self, if_neg (Nat.succ_ne_zero _)]
  intro other
  unfold ReferenceCounts.release
  rw [hkey]
  simp only [Nat.add_sub_cancel]
  by_cases hother : other = key
  · subst hother
    split_ifs with hzero
    · exact AList.lookup_erase other table
    · exact AList.lookup_insert table
  · have hsame : table.lookup other =
        if rest.count other = 0 then none else some (rest.count other) := by
      rw [hcounts other, List.count_cons_of_ne (Ne.symm hother)]
    split_ifs at hsame ⊢
    · rw [AList.lookup_erase_ne hother, hsame]
    · rw [AList.lookup_erase_ne hother, hsame]
    · rw [AList.lookup_insert_ne hother, hsame]
    · rw [AList.lookup_insert_ne hother, hsame]

/-- Assumes: a reference that is alive. Releasing it takes its weight away. -/
theorem Counts.total_release (weight : Key → ℕ) {table : AList fun _ : Key ↦ ℕ} {key : Key}
    {rest : List Key} (hcounts : Counts table (key :: rest)) :
    total (fun key count ↦ weight key * count) table =
      weight key +
        total (fun key count ↦ weight key * count) (ReferenceCounts.release table key) := by
  have hkey : table.lookup key = some (rest.count key + 1) := by
    rw [hcounts key, List.count_cons_self, if_neg (Nat.succ_ne_zero _)]
  unfold ReferenceCounts.release
  rw [hkey]
  simp only [Nat.add_sub_cancel]
  split_ifs with hzero
  · rw [← measure_add_total_erase (fun key count ↦ weight key * count) hkey, hzero, Nat.zero_add,
      Nat.mul_one]
  · have hinsert := measure_add_total_insert (fun key count ↦ weight key * count) hkey
      (rest.count key)
    rw [Nat.mul_add, Nat.mul_one] at hinsert
    omega

/-- Assumes: a table that counts the live references. A weighted sum over the table is the sum of
the weights of the references. -/
theorem Counts.total_eq (weight : Key → ℕ) {live : List Key} :
    ∀ {table : AList fun _ : Key ↦ ℕ}, Counts table live →
      total (fun key count ↦ weight key * count) table = (live.map weight).sum := by
  induction live with
  | nil =>
    intro table hcounts
    refine total_eq_zero _ fun key count hlookup ↦ ?_
    rw [hcounts key] at hlookup
    exact absurd hlookup (by simp)
  | cons key rest ih =>
    intro table hcounts
    rw [hcounts.total_release weight, ih hcounts.release, List.map_cons, List.sum_cons]

end Relayna.Library.ReferenceCounts

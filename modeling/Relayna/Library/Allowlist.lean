import Mathlib.Data.List.Perm.Basic

/-!
# Lists that restrict when they are not empty

An allowlist without entries allows everything, so the intersection of two of them changes its
meaning when it becomes empty. `narrow` is the intersection that keeps the convention as long as the
lists have something in common, and `Clash` says that they have not.

`Narrowed lists result` says that a list stands for several others at once. It is kept by every
`narrow` that does not clash (`Narrowed.snoc`), and a clash is the end of compatibility for good
(`compatible_snoc_iff`, `Compatible.of_append`).
-/

set_option autoImplicit false
set_option relaxedAutoImplicit false

namespace Relayna.Library.Allowlist

variable {α : Type*}

/-- An empty list allows every value. -/
def Allows (list : List α) (value : α) : Prop :=
  list = [] ∨ value ∈ list

/-- The lists that restrict have a value in common, or none restricts. -/
def Compatible (lists : List (List α)) : Prop :=
  (∀ list ∈ lists, list = []) ∨ ∃ value, ∀ list ∈ lists, list ≠ [] → value ∈ list

/-- A list that allows what all the lists allow, and restricts when one of them does. -/
def Narrowed (lists : List (List α)) (result : List α) : Prop :=
  (result = [] ∧ ∀ list ∈ lists, list = []) ∨
    (result ≠ [] ∧ (∃ list ∈ lists, list ≠ []) ∧
      ∀ value, value ∈ result ↔ ∀ list ∈ lists, list ≠ [] → value ∈ list)

theorem Compatible.perm {lists others : List (List α)} (hperm : lists.Perm others)
    (hcompatible : Compatible lists) : Compatible others := by
  rcases hcompatible with hempty | ⟨value, hvalue⟩
  · exact .inl fun list hlist ↦ hempty list (hperm.mem_iff.mpr hlist)
  · exact .inr ⟨value, fun list hlist ↦ hvalue list (hperm.mem_iff.mpr hlist)⟩

theorem Compatible.of_append {lists others : List (List α)}
    (hcompatible : Compatible (lists ++ others)) : Compatible lists := by
  rcases hcompatible with hempty | ⟨value, hvalue⟩
  · exact .inl fun list hlist ↦ hempty list (List.mem_append_left _ hlist)
  · exact .inr ⟨value, fun list hlist ↦ hvalue list (List.mem_append_left _ hlist)⟩

theorem narrowed_singleton (list : List α) : Narrowed [list] list := by
  by_cases hlist : list = []
  · exact .inl ⟨hlist, fun other hother ↦ (List.mem_singleton.mp hother).trans hlist⟩
  · refine .inr ⟨hlist, ⟨list, List.mem_singleton_self _, hlist⟩, fun value ↦ ?_⟩
    simp [hlist]

theorem Narrowed.compatible {lists : List (List α)} {result : List α}
    (hnarrowed : Narrowed lists result) : Compatible lists := by
  rcases hnarrowed with ⟨-, hempty⟩ | ⟨hresult, -, hmem⟩
  · exact .inl hempty
  · obtain ⟨value, hvalue⟩ := List.exists_mem_of_ne_nil result hresult
    exact .inr ⟨value, (hmem value).mp hvalue⟩

/-- A list that stands for others allows exactly what all of them allow. -/
theorem Narrowed.allows_iff {lists : List (List α)} {result : List α}
    (hnarrowed : Narrowed lists result) (value : α) :
    Allows result value ↔ ∀ list ∈ lists, Allows list value := by
  rcases hnarrowed with ⟨hresult, hempty⟩ | ⟨hresult, -, hmem⟩
  · exact ⟨fun _ list hlist ↦ .inl (hempty list hlist), fun _ ↦ .inl hresult⟩
  · unfold Allows
    rw [or_iff_right hresult, hmem value]
    refine forall₂_congr fun list _ ↦ ?_
    by_cases hlist : list = [] <;> simp [hlist]

/-- Assumes: two lists with the same entries. One of them may stand in the place of the other. -/
theorem Narrowed.congr_last {lists : List (List α)} {last other result : List α}
    (hsame : ∀ value, value ∈ last ↔ value ∈ other)
    (hnarrowed : Narrowed (lists ++ [last]) result) :
    Narrowed (lists ++ [other]) result := by
  have hnil : last = [] ↔ other = [] := by
    simp only [List.eq_nil_iff_forall_not_mem, hsame]
  unfold Narrowed at hnarrowed ⊢
  simpa [or_imp, forall_and, hnil, hsame, or_and_right, exists_or] using hnarrowed

theorem compatible_congr_last {lists : List (List α)} {last other : List α}
    (hsame : ∀ value, value ∈ last ↔ value ∈ other) :
    Compatible (lists ++ [last]) ↔ Compatible (lists ++ [other]) := by
  have hnil : last = [] ↔ other = [] := by
    simp only [List.eq_nil_iff_forall_not_mem, hsame]
  unfold Compatible
  simp only [List.mem_append, List.mem_singleton, or_imp, forall_and, forall_eq, hnil, hsame, ne_eq]

section Narrow

variable [DecidableEq α]

/-- The entries that both lists allow, where an empty list does not restrict. -/
def narrow (current next : List α) : List α :=
  if next = [] then current
  else if current = [] then next
  else current.filter (· ∈ next)

/-- Both lists restrict, and nothing is left. -/
def Clash (current next : List α) : Prop :=
  next ≠ [] ∧ current ≠ [] ∧ narrow current next = []

instance (current next : List α) : Decidable (Clash current next) :=
  inferInstanceAs (Decidable (_ ∧ _))

theorem mem_narrow {current next : List α} (hnext : next ≠ []) (hcurrent : current ≠ [])
    (value : α) : value ∈ narrow current next ↔ value ∈ current ∧ value ∈ next := by
  rw [narrow, if_neg hnext, if_neg hcurrent, List.mem_filter, decide_eq_true_eq]

/-- Assumes: a list that stands for others. Adding one that does not clash with it. -/
theorem Narrowed.snoc {lists : List (List α)} {result next : List α}
    (hnarrowed : Narrowed lists result) (hclash : ¬ Clash result next) :
    Narrowed (lists ++ [next]) (narrow result next) := by
  by_cases hnext : next = []
  · have hsame : narrow result next = result := if_pos hnext
    rw [hsame]
    rcases hnarrowed with ⟨hresult, hempty⟩ | ⟨hresult, ⟨list, hlist, hne⟩, hmem⟩
    · refine .inl ⟨hresult, fun list hlist ↦ ?_⟩
      rcases List.mem_append.mp hlist with hold | hnew
      · exact hempty list hold
      · exact (List.mem_singleton.mp hnew).trans hnext
    · refine .inr ⟨hresult, ⟨list, List.mem_append_left _ hlist, hne⟩, fun value ↦ ?_⟩
      rw [hmem value]
      simp [or_imp, forall_and, hnext]
  · rcases hnarrowed with ⟨hresult, hempty⟩ | ⟨hresult, ⟨list, hlist, hne⟩, hmem⟩
    · have hsame : narrow result next = next := by
        rw [narrow, if_neg hnext, if_pos hresult]
      rw [hsame]
      refine .inr ⟨hnext, ⟨next, List.mem_append_right _ (List.mem_singleton_self _), hnext⟩,
        fun value ↦ ⟨fun hvalue list hlist hne ↦ ?_, fun hall ↦ ?_⟩⟩
      · rcases List.mem_append.mp hlist with hold | hnew
        · exact absurd (hempty list hold) hne
        · rwa [List.mem_singleton.mp hnew]
      · exact hall next (List.mem_append_right _ (List.mem_singleton_self _)) hnext
    · refine .inr ⟨fun hnil ↦ hclash ⟨hnext, hresult, hnil⟩,
        ⟨list, List.mem_append_left _ hlist, hne⟩, fun value ↦ ?_⟩
      rw [mem_narrow hnext hresult, hmem value]
      simp [or_imp, forall_and, hnext]

/-- Assumes: a list that stands for others. The others and one more are compatible exactly when it
does not clash. -/
theorem compatible_snoc_iff {lists : List (List α)} {result next : List α}
    (hnarrowed : Narrowed lists result) : Compatible (lists ++ [next]) ↔ ¬ Clash result next := by
  constructor
  · rintro hcompatible ⟨hnext, hresult, hnil⟩
    rcases hnarrowed with ⟨hempty, -⟩ | ⟨-, -, hmem⟩
    · exact hresult hempty
    rcases hcompatible with hempty | ⟨value, hvalue⟩
    · exact hnext (hempty next (List.mem_append_right _ (List.mem_singleton_self _)))
    · have hboth : value ∈ narrow result next := by
        refine (mem_narrow hnext hresult value).mpr ⟨(hmem value).mpr fun list hlist ↦ ?_, ?_⟩
        · exact hvalue list (List.mem_append_left _ hlist)
        · exact hvalue next (List.mem_append_right _ (List.mem_singleton_self _)) hnext
      rw [hnil] at hboth
      exact absurd hboth List.not_mem_nil
  · exact fun hclash ↦ (hnarrowed.snoc hclash).compatible

end Narrow

end Relayna.Library.Allowlist

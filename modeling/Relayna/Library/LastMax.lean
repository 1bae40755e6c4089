import Mathlib.Data.List.Induction
import Mathlib.Data.List.Perm.Basic
import Mathlib.Order.Lattice

/-!
# The last of the largest

`lastMax key` is a fold over a list that keeps the last of the elements whose key is largest. Its
result can depend on the order of the list, since several elements may have the largest key:
`lastMax_perm_iff` says when what is read off the result does not.
-/

set_option autoImplicit false
set_option relaxedAutoImplicit false

namespace Relayna.Library

section LastMax

variable {α β κ : Type} [LinearOrder κ] (key : α → κ)

/-- The larger of two, the later when they are equal. -/
def laterMax (best : Option α) (next : α) : Option α :=
  match best with
  | none => some next
  | some old => if key next < key old then some old else some next

/-- The last of the elements whose key is largest. -/
def lastMax (items : List α) : Option α :=
  items.foldl (laterMax key) none

/-- An element that no key exceeds. -/
def IsTop (items : List α) (item : α) : Prop :=
  item ∈ items ∧ ∀ other ∈ items, key other ≤ key item

/-- Where an element stands ahead of all others: of those before it by a key at least as large, of
those after it by a larger one. -/
def Outranks (before : List α) (item : α) (after : List α) : Prop :=
  (∀ other ∈ before, key other ≤ key item) ∧ ∀ other ∈ after, key other < key item

@[simp] theorem lastMax_nil : lastMax key ([] : List α) = none :=
  rfl

theorem lastMax_concat (items : List α) (last : α) :
    lastMax key (items ++ [last]) = laterMax key (lastMax key items) last := by
  rw [lastMax, List.foldl_append]
  rfl

variable {key}

theorem lastMax_eq_none {items : List α} (hnone : lastMax key items = none) : items = [] := by
  rcases List.eq_nil_or_concat items with rfl | ⟨front, last, rfl⟩
  · rfl
  · rw [List.concat_eq_append, lastMax_concat] at hnone
    unfold laterMax at hnone
    split at hnone
    · exact absurd hnone (by simp)
    · split at hnone <;> simp at hnone

/-- The result stands ahead of all others at its place in the list. -/
theorem lastMax_split {items : List α} {item : α} (hmax : lastMax key items = some item) :
    ∃ before after, items = before ++ item :: after ∧ Outranks key before item after := by
  induction items using List.reverseRecOn generalizing item with
  | nil => simp at hmax
  | append_singleton front last ih =>
    rw [lastMax_concat] at hmax
    rcases hfront : lastMax key front with _ | old
    · rw [hfront, laterMax, Option.some.injEq] at hmax
      refine ⟨[], [], ?_, ?_, ?_⟩
      · rw [lastMax_eq_none hfront, hmax, List.nil_append]
      · simp
      · simp
    · obtain ⟨before, after, hsplit, hbefore, hafter⟩ := ih hfront
      rw [hfront, laterMax] at hmax
      split_ifs at hmax with hlt
      · obtain rfl := Option.some.inj hmax
        refine ⟨before, after ++ [last], ?_, hbefore, ?_⟩
        · rw [hsplit, List.append_assoc, List.cons_append]
        · intro other hother
          rcases List.mem_append.mp hother with hold | hlast
          · exact hafter other hold
          · rw [List.mem_singleton.mp hlast]
            exact hlt
      · obtain rfl := Option.some.inj hmax
        refine ⟨front, [], rfl, ?_, by simp⟩
        intro other hother
        refine le_trans ?_ (not_lt.mp hlt)
        rw [hsplit] at hother
        rcases List.mem_append.mp hother with hold | hrest
        · exact hbefore other hold
        · rcases List.mem_cons.mp hrest with rfl | hlater
          · exact le_rfl
          · exact (hafter other hlater).le

/-- A largest element followed only by smaller ones is the result. -/
theorem lastMax_of_outranks {before after : List α} {item : α}
    (houtranks : Outranks key before item after) :
    lastMax key (before ++ item :: after) = some item := by
  induction after using List.reverseRecOn with
  | nil =>
    rw [lastMax_concat]
    rcases hbefore : lastMax key before with _ | old
    · rfl
    · obtain ⟨front, back, hsplit, -⟩ := lastMax_split hbefore
      have hold : old ∈ before := by simp [hsplit]
      exact if_neg (not_lt.mpr (houtranks.1 old hold))
  | append_singleton after last ih =>
    rw [← List.cons_append, ← List.append_assoc, lastMax_concat]
    rw [ih ⟨houtranks.1, fun other hother ↦ houtranks.2 other (by simp [hother])⟩]
    exact if_pos (houtranks.2 last (by simp))

/-- The result is an element that no key exceeds. -/
theorem isTop_of_lastMax {items : List α} {item : α} (hmax : lastMax key items = some item) :
    IsTop key items item := by
  obtain ⟨before, after, rfl, hbefore, hafter⟩ := lastMax_split hmax
  constructor
  · simp
  · intro other hother
    rcases List.mem_append.mp hother with hold | hrest
    · exact hbefore other hold
    · rcases List.mem_cons.mp hrest with rfl | hlater
      · exact le_rfl
      · exact (hafter other hlater).le

/-- Assumes: no element stands twice in the list. The result is the one that stands ahead of all
others. -/
theorem lastMax_eq_some_iff {before after : List α} {item : α}
    (hnodup : (before ++ item :: after).Nodup) :
    lastMax key (before ++ item :: after) = some item ↔ Outranks key before item after := by
  constructor
  · intro hmax
    obtain ⟨front, back, hsplit, houtranks⟩ := lastMax_split hmax
    have hbefore : item ∉ before := fun hmem ↦
      (List.nodup_append.mp hnodup).2.2 item hmem item (by simp) rfl
    have hafter : item ∉ after :=
      (List.nodup_cons.mp (List.nodup_append.mp hnodup).2.1).1
    obtain ⟨rfl, -, rfl⟩ := (List.append_cons_inj_of_notMem hbefore hafter).mp hsplit
    exact houtranks
  · exact lastMax_of_outranks

/-- An element that is not the result can be left out. -/
theorem lastMax_remove (before after : List α) (item : α) :
    lastMax key (before ++ item :: after) = some item ∨
      lastMax key (before ++ item :: after) = lastMax key (before ++ after) := by
  induction after using List.reverseRecOn with
  | nil =>
    rw [lastMax_concat, List.append_nil]
    rcases lastMax key before with _ | old
    · exact Or.inl rfl
    · exact (ite_eq_or_eq (key item < key old) (some old) (some item)).symm
  | append_singleton after last ih =>
    rw [← List.cons_append, ← List.append_assoc, ← List.append_assoc, lastMax_concat,
      lastMax_concat]
    rcases ih with hitem | hsame
    · rw [hitem, laterMax]
      split_ifs with hlt
      · exact Or.inl rfl
      · refine Or.inr ?_
        rcases hrest : lastMax key (before ++ after) with _ | old
        · rfl
        · have hold : old ∈ before ++ item :: after := by
            have hmem := (isTop_of_lastMax hrest).1
            simp only [List.mem_append, List.mem_cons] at hmem ⊢
            tauto
          have hle := (isTop_of_lastMax hitem).2 old hold
          exact (if_neg (not_lt.mpr (hle.trans (not_lt.mp hlt)))).symm
    · rw [hsame]
      exact Or.inr rfl

/-- Every largest element is the result for some order of the list. -/
theorem exists_perm_lastMax {items : List α} {item : α} (htop : IsTop key items item) :
    ∃ order : List α, order.Perm items ∧ lastMax key order = some item := by
  obtain ⟨before, after, rfl⟩ := List.append_of_mem htop.1
  refine ⟨before ++ after ++ [item], ?_, ?_⟩
  · rw [List.append_assoc]
    exact List.Perm.append_left before List.perm_append_comm
  · refine lastMax_of_outranks ⟨fun other hother ↦ htop.2 other ?_, by simp⟩
    rcases List.mem_append.mp hother with hold | hlater <;> simp [*]

/-- What is read off the result is the same for all orders of a list exactly if it is the same for
all its largest elements. -/
theorem lastMax_perm_iff (read : α → β) (items : List α) :
    (∀ order : List α, order.Perm items →
      (lastMax key order).map read = (lastMax key items).map read) ↔
    ∀ first second, IsTop key items first → IsTop key items second → read first = read second := by
  constructor
  · intro hsame
    have hread : ∀ item, IsTop key items item →
        some (read item) = (lastMax key items).map read := by
      intro item htop
      obtain ⟨order, hperm, hmax⟩ := exists_perm_lastMax htop
      rw [← hsame order hperm, hmax, Option.map_some]
    intro first second hfirst hsecond
    exact Option.some.inj ((hread first hfirst).trans (hread second hsecond).symm)
  · intro hagree order hperm
    rcases horder : lastMax key order with _ | found
    · have hnil : items = [] := by
        rw [lastMax_eq_none horder] at hperm
        exact hperm.nil_eq.symm
      rw [hnil, lastMax_nil]
    · have hfound := isTop_of_lastMax horder
      rcases hitems : lastMax key items with _ | kept
      · rw [lastMax_eq_none hitems] at hperm
        rw [hperm.eq_nil, lastMax_nil] at horder
        exact absurd horder (by simp)
      · have htop : IsTop key items found :=
          ⟨hperm.subset hfound.1, fun other hother ↦ hfound.2 other (hperm.symm.subset hother)⟩
        show some (read found) = some (read kept)
        rw [hagree found kept htop (isTop_of_lastMax hitems)]

/-- Every order of the elements that a test selects comes from an order of all of them. -/
theorem forall_perm_filter (serves : α → Bool) (items : List α) (holds : List α → Prop) :
    (∀ order : List α, order.Perm items → holds (order.filter serves)) ↔
      ∀ order : List α, order.Perm (items.filter serves) → holds order := by
  constructor
  · intro hall order hperm
    let rest := items.filter fun item ↦ !serves item
    have hserved : order.filter serves = order :=
      List.filter_eq_self.mpr fun item hitem ↦ (List.mem_filter.mp (hperm.subset hitem)).2
    have hrest : rest.filter serves = [] := by
      simp [rest]
    have hwhole : (order ++ rest).Perm items :=
      (hperm.append_right rest).trans (List.filter_append_perm serves items)
    have hkept := hall _ hwhole
    rwa [List.filter_append, hserved, hrest, List.append_nil] at hkept
  · intro hall order hperm
    exact hall _ (hperm.filter serves)

end LastMax

end Relayna.Library

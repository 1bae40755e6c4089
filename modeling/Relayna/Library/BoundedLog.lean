import Mathlib.Data.List.Chain
import Mathlib.Data.Nat.Notation

/-!
# Logs that keep their newest entries

A log numbers its entries from one and keeps the newest of them, up to a capacity. `recent` is that
suffix as a function of everything that was ever logged, so the log after any number of additions is
known from the history alone: `recent_append` is the rule for one addition.

A reader that wants one entry for each key walks from the newest entry to the oldest and skips the
keys it has seen. `latest` is the walk, and `mem_latest_reverse` and `nodup_latest` say what it
yields: for each key that occurs, its last entry, once.
-/

set_option autoImplicit false
set_option relaxedAutoImplicit false

namespace Relayna.Library.BoundedLog

variable {Entry Key : Type*}

/-! ### Numbered suffixes -/

/-- The entries with their numbers, which begin with one. -/
def numbered (entries : List Entry) : List (ℕ × Entry) :=
  (entries.zipIdx 1).map Prod.swap

/-- What a log of the given capacity keeps of its entries. -/
def recent (capacity : ℕ) (entries : List Entry) : List (ℕ × Entry) :=
  (numbered entries).drop (entries.length - capacity)

@[simp] theorem length_numbered (entries : List Entry) :
    (numbered entries).length = entries.length := by
  simp [numbered]

theorem numbered_snoc (entries : List Entry) (entry : Entry) :
    numbered (entries ++ [entry]) = numbered entries ++ [(entries.length + 1, entry)] := by
  simp [numbered, List.zipIdx_append, Nat.add_comm]

theorem map_fst_numbered (entries : List Entry) :
    (numbered entries).map Prod.fst = List.range' 1 entries.length := by
  simp [numbered, Function.comp_def]

theorem map_snd_numbered (entries : List Entry) : (numbered entries).map Prod.snd = entries := by
  simp [numbered, Function.comp_def]

theorem length_recent (capacity : ℕ) (entries : List Entry) :
    (recent capacity entries).length = min capacity entries.length := by
  simp only [recent, List.length_drop, length_numbered]
  omega

/-- Pushing an entry and dropping what is over the capacity keeps the recent entries. -/
theorem recent_append (capacity : ℕ) (entries : List Entry) (entry : Entry) :
    (recent capacity entries ++ [(entries.length + 1, entry)]).drop
        ((recent capacity entries ++ [(entries.length + 1, entry)]).length - capacity) =
      recent capacity (entries ++ [entry]) := by
  have hpush : recent capacity entries ++ [(entries.length + 1, entry)] =
      (numbered (entries ++ [entry])).drop (entries.length - capacity) := by
    rw [numbered_snoc, List.drop_append_of_le_length (by simp), recent]
  have hlength := length_recent capacity entries
  rw [List.length_append, hlength, hpush, List.drop_drop, recent, List.length_append]
  simp only [List.length_singleton]
  congr 1
  omega

/-- The numbers of the recent entries are consecutive and end with the length of the history. -/
theorem map_fst_recent (capacity : ℕ) (entries : List Entry) :
    (recent capacity entries).map Prod.fst =
      List.range' (entries.length - capacity + 1) (min capacity entries.length) := by
  rw [recent, List.map_drop, map_fst_numbered, List.drop_range']
  congr 1 <;> omega

/-- Assumes: a positive capacity. The number of the oldest recent entry, or the next number of an
empty log. -/
theorem oldest_recent {capacity : ℕ} (hcapacity : 0 < capacity) (entries : List Entry) :
    ((recent capacity entries).head?.map Prod.fst).getD (entries.length + 1) =
      entries.length - capacity + 1 := by
  rw [← List.head?_map, map_fst_recent, List.head?_range']
  split_ifs with hempty
  · rw [Option.getD_none]
    omega
  · rfl

/-- The numbers of the recent entries follow one another. -/
theorem isChain_recent (capacity : ℕ) (entries : List Entry) :
    (recent capacity entries).IsChain fun older newer ↦ newer.1 = older.1 + 1 := by
  have hchain : ((recent capacity entries).map Prod.fst).IsChain
      fun older newer ↦ newer = older + 1 := by
    rw [map_fst_recent]
    exact List.isChain_range' _ _ 1
  exact (List.isChain_map Prod.fst).mp hchain

/-- A recent entry is the entry of the history with its number. -/
theorem getElem?_of_mem_recent {capacity number : ℕ} {entries : List Entry} {entry : Entry}
    (hentry : (number, entry) ∈ recent capacity entries) : entries[number - 1]? = some entry := by
  obtain ⟨pair, hpair, hswap⟩ := List.mem_map.mp (List.mem_of_mem_drop hentry)
  obtain ⟨rfl, rfl⟩ := Prod.mk.inj hswap
  exact List.mk_mem_zipIdx_iff_le_and_getElem?_sub.mp hpair |>.2

theorem fst_le_of_mem_take {position : ℕ} {entries : List Entry} {entry : ℕ × Entry}
    (hentry : entry ∈ (numbered entries).take position) : entry.1 ≤ position := by
  have hfst : entry.1 ∈ _ := List.mem_map_of_mem hentry
  rw [List.map_take, map_fst_numbered] at hfst
  rcases Nat.le_total position entries.length with hle | hle
  · rw [List.take_range'_of_length_ge hle, List.mem_range'_1] at hfst
    omega
  · rw [List.take_range'_of_length_le hle, List.mem_range'_1] at hfst
    omega

theorem lt_fst_of_mem_drop {position : ℕ} {entries : List Entry} {entry : ℕ × Entry}
    (hentry : entry ∈ (numbered entries).drop position) : position < entry.1 := by
  have hfst : entry.1 ∈ _ := List.mem_map_of_mem hentry
  rw [List.map_drop, map_fst_numbered, List.drop_range', List.mem_range'_1] at hfst
  omega

/-- Assumes: a position that the log still reaches back to. The recent entries with larger numbers
are the entries from that position on. -/
theorem filter_recent {capacity position : ℕ} {entries : List Entry}
    (hposition : entries.length - capacity ≤ position) :
    ((recent capacity entries).filter fun entry ↦ position < entry.1).map Prod.snd =
      entries.drop position := by
  set skipped := entries.length - capacity with hskipped
  have hsplit : recent capacity entries =
      ((numbered entries).take position).drop skipped ++ (numbered entries).drop position := by
    rw [recent, ← hskipped]
    conv_lhs => rw [← List.take_append_drop position (numbered entries)]
    rw [List.drop_append, List.length_take, length_numbered]
    congr 1
    rw [List.drop_drop]
    congr 1
    omega
  have hseen : (((numbered entries).take position).drop skipped).filter
      (fun entry ↦ decide (position < entry.1)) = [] := by
    rw [List.filter_eq_nil_iff]
    intro entry hentry
    have hle := fst_le_of_mem_take (List.mem_of_mem_drop hentry)
    simpa using hle
  have hnew : ((numbered entries).drop position).filter
      (fun entry ↦ decide (position < entry.1)) = (numbered entries).drop position := by
    rw [List.filter_eq_self]
    intro entry hentry
    simpa using lt_fst_of_mem_drop hentry
  rw [hsplit, List.filter_append, hseen, hnew, List.nil_append, List.map_drop, map_snd_numbered]

/-! ### The last entry of each key -/

section Keys

variable [DecidableEq Key] (key : Entry → Key)

/-- One entry for each key that has not been seen, the first in the list. -/
def latest (seen : List Key) : List Entry → List Entry
  | [] => []
  | entry :: rest =>
    if key entry ∈ seen then latest seen rest else entry :: latest (key entry :: seen) rest

/-- An entry with no later one of its key. -/
def IsLatest (entries : List Entry) (entry : Entry) : Prop :=
  ∃ before after, entries = before ++ entry :: after ∧ ∀ other ∈ after, key other ≠ key entry

theorem mem_latest (seen : List Key) (entries : List Entry) (entry : Entry) :
    entry ∈ latest key seen entries ↔ key entry ∉ seen ∧
      ∃ before after, entries = before ++ entry :: after ∧
        ∀ other ∈ before, key other ≠ key entry := by
  induction entries generalizing seen with
  | nil => simp [latest]
  | cons first rest ih =>
    unfold latest
    split_ifs with hfirst
    · rw [ih]
      refine and_congr_right fun hentry ↦ ?_
      constructor
      · rintro ⟨before, after, rfl, hbefore⟩
        refine ⟨first :: before, after, rfl, ?_⟩
        intro other hother
        rcases List.mem_cons.mp hother with rfl | hother
        · intro hkey
          exact hentry (hkey ▸ hfirst)
        · exact hbefore other hother
      · rintro ⟨before, after, hrest, hbefore⟩
        rcases before with _ | ⟨head, before⟩
        · rw [List.nil_append, List.cons.injEq] at hrest
          exact absurd (hrest.1 ▸ hfirst) hentry
        · rw [List.cons_append, List.cons.injEq] at hrest
          exact ⟨before, after, hrest.2, fun other hother ↦
            hbefore other (List.mem_cons_of_mem _ hother)⟩
    · rw [List.mem_cons, ih]
      constructor
      · rintro (rfl | ⟨hseen, before, after, rfl, hbefore⟩)
        · exact ⟨hfirst, [], rest, rfl, by simp⟩
        · refine ⟨fun hentry ↦ hseen (List.mem_cons_of_mem _ hentry), first :: before,
            after, rfl, ?_⟩
          intro other hother
          rcases List.mem_cons.mp hother with rfl | hother
          · intro hkey
            exact hseen (hkey ▸ List.mem_cons_self)
          · exact hbefore other hother
      · rintro ⟨hentry, before, after, hrest, hbefore⟩
        rcases before with _ | ⟨head, before⟩
        · rw [List.nil_append, List.cons.injEq] at hrest
          exact .inl hrest.1.symm
        · rw [List.cons_append, List.cons.injEq] at hrest
          have hhead := hbefore head List.mem_cons_self
          rw [← hrest.1] at hhead
          refine .inr ⟨?_, before, after, hrest.2, fun other hother ↦
            hbefore other (List.mem_cons_of_mem _ hother)⟩
          rw [List.mem_cons]
          rintro (hkey | hkey)
          · exact hhead hkey.symm
          · exact hentry hkey

/-- The walk from the newest entry to the oldest yields the last entry of each key. -/
theorem mem_latest_reverse (entries : List Entry) (entry : Entry) :
    entry ∈ latest key [] entries.reverse ↔ IsLatest key entries entry := by
  rw [mem_latest]
  constructor
  · rintro ⟨-, before, after, hentries, hbefore⟩
    refine ⟨after.reverse, before.reverse, ?_, ?_⟩
    · rw [← List.reverse_reverse entries, hentries]
      simp
    · intro other hother
      exact hbefore other (List.mem_reverse.mp hother)
  · rintro ⟨before, after, rfl, hafter⟩
    refine ⟨List.not_mem_nil, after.reverse, before.reverse, by simp, ?_⟩
    intro other hother
    exact hafter other (List.mem_reverse.mp hother)

/-- No key is yielded twice. -/
theorem nodup_latest (seen : List Key) (entries : List Entry) :
    ((latest key seen entries).map key).Nodup := by
  induction entries generalizing seen with
  | nil => exact List.nodup_nil
  | cons first rest ih =>
    unfold latest
    split_ifs with hfirst
    · exact ih seen
    · rw [List.map_cons, List.nodup_cons]
      refine ⟨?_, ih _⟩
      intro hmem
      obtain ⟨other, hother, hkey⟩ := List.mem_map.mp hmem
      exact ((mem_latest key _ rest other).mp hother).1 (hkey ▸ List.mem_cons_self)

end Keys

end Relayna.Library.BoundedLog

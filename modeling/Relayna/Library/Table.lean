import Mathlib.Data.List.AList

/-!
# Tables that are swept

`retain` is the operation of hash maps that keeps the entries with a property. It works on Mathlib's
`AList`, whose other operations have their lemmas there.
-/

set_option autoImplicit false
set_option relaxedAutoImplicit false

namespace Relayna.Library.Table

variable {Key Value : Type*}

/-- The entries that are kept. -/
def retain (keep : Key → Value → Bool) (table : AList fun _ : Key ↦ Value) :
    AList fun _ : Key ↦ Value :=
  ⟨table.entries.filter fun entry ↦ keep entry.1 entry.2,
    table.nodupKeys.sublist List.filter_sublist⟩

variable [DecidableEq Key]

/-- An entry that is kept was there. -/
theorem lookup_retain_eq_some {keep : Key → Value → Bool} {table : AList fun _ : Key ↦ Value}
    {key : Key} {value : Value} :
    (retain keep table).lookup key = some value ↔
      table.lookup key = some value ∧ keep key value = true := by
  rw [← Option.mem_def, AList.mem_lookup_iff, ← Option.mem_def, AList.mem_lookup_iff]
  exact List.mem_filter

/-- Assumes: an entry after an insertion. It is the new one, or was there. -/
theorem lookup_insert_cases {table : AList fun _ : Key ↦ Value} {key inserted : Key}
    {value old : Value} (hlookup : (table.insert inserted value).lookup key = some old) :
    key = inserted ∧ old = value ∨ key ≠ inserted ∧ table.lookup key = some old := by
  by_cases hsame : key = inserted
  · subst hsame
    rw [AList.lookup_insert] at hlookup
    exact .inl ⟨rfl, (Option.some.inj hlookup).symm⟩
  · rw [AList.lookup_insert_ne hsame] at hlookup
    exact .inr ⟨hsame, hlookup⟩

/-- Assumes: an entry that is left after an erasure. It was there, and is another one. -/
theorem lookup_erase_eq_some {table : AList fun _ : Key ↦ Value} {key erased : Key} {value : Value}
    (hlookup : (table.erase erased).lookup key = some value) :
    key ≠ erased ∧ table.lookup key = some value := by
  have hother : key ≠ erased := by
    rintro rfl
    rw [AList.lookup_erase] at hlookup
    cases hlookup
  exact ⟨hother, (AList.lookup_erase_ne hother).symm.trans hlookup⟩

/-- An insertion adds at most one entry. -/
theorem length_insert_le (table : AList fun _ : Key ↦ Value) (key : Key) (value : Value) :
    (table.insert key value).entries.length ≤ table.entries.length + 1 := by
  rw [AList.entries_insert, List.length_cons]
  exact Nat.succ_le_succ (List.kerase_sublist key table.entries).length_le

/-- Assumes: the key has an entry. An insertion replaces it. -/
theorem length_insert_of_mem {table : AList fun _ : Key ↦ Value} {key : Key} (hmem : key ∈ table)
    (value : Value) : (table.insert key value).entries.length = table.entries.length := by
  have hkeys : key ∈ table.entries.keys := hmem
  have hpositive : 0 < table.entries.keys.length := List.length_pos_of_mem hkeys
  have herased : (List.kerase key table.entries).keys.length = table.entries.keys.length - 1 := by
    rw [List.keys_kerase, List.length_erase_of_mem hkeys]
  simp only [List.keys, List.length_map] at hpositive herased
  rw [AList.entries_insert, List.length_cons, herased, Nat.sub_add_cancel hpositive]

/-- Some entry of a table has a property. -/
theorem any_entries_iff (holds : Key → Value → Prop) [∀ key value, Decidable (holds key value)]
    (table : AList fun _ : Key ↦ Value) :
    (table.entries.any fun entry ↦ holds entry.1 entry.2) = true ↔
      ∃ key value, table.lookup key = some value ∧ holds key value := by
  rw [List.any_eq_true]
  constructor
  · rintro ⟨⟨key, value⟩, hentry, hholds⟩
    exact ⟨key, value, AList.mem_lookup_iff.mpr hentry, of_decide_eq_true hholds⟩
  · rintro ⟨key, value, hlookup, hholds⟩
    exact ⟨⟨key, value⟩, AList.mem_lookup_iff.mp hlookup, decide_eq_true hholds⟩

end Relayna.Library.Table

import Relayna.ResponseCost.Scalars
import Relayna.ResponseCost.Strings

/-!
# The costs of a value

`tally` is what reading a value does to the costs of the observer, on the syntax tree: each value
that begins clears the costs at or under its path, and each scalar is recorded at its path. On a
whole document this is a lookup: `tally_document` says that the cost under a path is that of the
value which the path leads to, with the last of several members counting and replacing the whole
subtree of the earlier ones. The keys that the observer cannot hold match no path, as little as
their text does (`keyText_eq_iff`).
-/

set_option autoImplicit false
set_option relaxedAutoImplicit false

namespace Relayna.ResponseCost

open Relayna.Library.Json

variable {F64 : Type}

mutual

/-- The costs after a value at a path. -/
def tally (serde : Serde F64) (path : Path) :
    Value → (Fin 6 → Option F64) → Fin 6 → Option F64
  | .array elements, costs => tallyElements serde path elements costs
  | .object members, costs => tallyMembers serde path members costs
  | .string _, costs => costs
  | .null, costs => record path (scalarCost serde .null) costs
  | .bool value, costs => record path (scalarCost serde (.bool value)) costs
  | .number literal, costs => record path (scalarCost serde (.number literal)) costs

/-- The costs after the elements of an array. -/
def tallyElements (serde : Serde F64) (path : Path) :
    List Value → (Fin 6 → Option F64) → Fin 6 → Option F64
  | [], costs => costs
  | value :: elements, costs =>
    tallyElements serde path elements
      (tally serde (relevant (path ++ [[]])) value (clear (path ++ [[]]) costs))

/-- The costs after the members of an object. -/
def tallyMembers (serde : Serde F64) (path : Path) :
    List (StringBody × Value) → (Fin 6 → Option F64) → Fin 6 → Option F64
  | [], costs => costs
  | (raw, value) :: members, costs =>
    tallyMembers serde path members
      (tally serde (relevant (path ++ [keyText raw.1])) value
        (clear (path ++ [keyText raw.1]) costs))

end

theorem tallyElements_snoc (serde : Serde F64) (path : Path) (elements : List Value) (value : Value)
    (costs : Fin 6 → Option F64) :
    tallyElements serde path (elements ++ [value]) costs =
      tally serde (relevant (path ++ [[]])) value
        (clear (path ++ [[]]) (tallyElements serde path elements costs)) := by
  induction elements generalizing costs with
  | nil => simp only [List.nil_append, tallyElements]
  | cons first elements ih => simp only [List.cons_append, tallyElements, ih]

theorem tallyMembers_snoc (serde : Serde F64) (path : Path) (members : List (StringBody × Value))
    (raw : StringBody) (value : Value) (costs : Fin 6 → Option F64) :
    tallyMembers serde path (members ++ [(raw, value)]) costs =
      tally serde (relevant (path ++ [keyText raw.1])) value
        (clear (path ++ [keyText raw.1]) (tallyMembers serde path members costs)) := by
  induction members generalizing costs with
  | nil => simp only [List.nil_append, tallyMembers]
  | cons first members ih => simp only [List.cons_append, tallyMembers, ih]

theorem tally_scalar (serde : Serde F64) (path : Path) {value : Value} {text : List UInt8}
    (htext : ScalarText value text) (costs : Fin 6 → Option F64) :
    tally serde path value costs = record path (scalarCost serde value) costs := by
  cases htext <;> simp only [tally]

/-! ### Paths -/

theorem leadsTo_iff (path target : Path) : leadsTo path target ↔ path <+: target := by
  induction path generalizing target with
  | nil => simp [leadsTo]
  | cons key path ih =>
    cases target with
    | nil => simp [leadsTo]
    | cons first target =>
      have htail := ih target
      simp only [leadsTo, Bool.and_eq_true, decide_eq_true_eq] at htail
      simp only [leadsTo, List.length_cons, List.zip_cons_cons, List.all_cons, Bool.and_eq_true,
        decide_eq_true_eq, Nat.add_le_add_iff_right, List.cons_prefix_cons, ← htail]
      tauto

theorem reaches_iff (path target : Path) : reaches path target ↔ path = target := by
  constructor
  · intro hreaches
    simp only [reaches, Bool.and_eq_true, decide_eq_true_eq] at hreaches
    have hinitial : path <+: target := by
      rw [← leadsTo_iff, leadsTo, Bool.and_eq_true, decide_eq_true_eq]
      exact ⟨hreaches.1.le, hreaches.2⟩
    exact hinitial.eq_of_length hreaches.1
  · rintro rfl
    have hleads := (leadsTo_iff path path).mpr List.prefix_rfl
    simp only [leadsTo, Bool.and_eq_true, decide_eq_true_eq] at hleads
    simpa only [reaches, Bool.and_eq_true, decide_eq_true_eq] using ⟨trivial, hleads.2⟩

/-- No cost path has an empty key, and none has a key of more than 14 bytes. -/
theorem costPaths_key : ∀ index, ∀ key ∈ costPaths index, key ≠ [] ∧ key.length ≤ 14 := by
  decide

/-- The path that is kept for a value leads to the same costs. -/
theorem relevant_leadsTo (path : Path) (index : Fin 6) :
    leadsTo (relevant path) (costPaths index) ↔ leadsTo path (costPaths index) := by
  unfold relevant
  split_ifs with hsome
  · rfl
  · refine iff_of_false (fun hleads ↦ ?_) (fun hleads ↦ hsome ⟨index, hleads⟩)
    rw [leadsTo_iff] at hleads
    exact (costPaths_key index [] (hleads.subset List.mem_cons_self)).1 rfl

theorem relevant_eq_self {path : Path} {index : Fin 6} (hleads : leadsTo path (costPaths index)) :
    relevant path = path :=
  if_pos ⟨index, hleads⟩

/-- A key that the observer holds is a key of a cost path exactly when its text is. -/
theorem keyText_eq_iff {index : Fin 6} {key : List UInt8} (hkey : key ∈ costPaths index)
    (raw : StringBody) : keyText raw.1 = key ↔ decode raw.1 = key := by
  obtain ⟨hnonempty, hlength⟩ := costPaths_key index key hkey
  unfold keyText
  split_ifs with hshort
  · rfl
  · refine iff_of_false (fun heq ↦ hnonempty heq.symm) (fun heq ↦ ?_)
    have hbound := length_le_decode raw.2
    rw [heq] at hbound
    omega

/-! ### The costs of a document -/

/-- The cost of the value that the rest of a path leads to. -/
def costAt (serde : Serde F64) (rest : Path) (value : Value) : Option F64 :=
  (value.pointer rest).bind (scalarCost serde)

section Lookup

variable {serde : Serde F64} {index : Fin 6} {path : Path} {costs : Fin 6 → Option F64}

/-- A value on a cost path leaves the cost of what the rest of the path leads to, and a value off
the path leaves the cost unchanged. -/
def TalliesValue (serde : Serde F64) (index : Fin 6) (path : Path) (value : Value)
    (costs : Fin 6 → Option F64) : Prop :=
  (∀ rest, path ++ rest = costPaths index → costs index = none →
      tally serde path value costs index = costAt serde rest value) ∧
    (¬path <+: costPaths index → tally serde path value costs index = costs index)

/-- The last member with the next key of a cost path decides. -/
def TalliesMembers (serde : Serde F64) (index : Fin 6) (path : Path)
    (members : List (StringBody × Value)) (costs : Fin 6 → Option F64) : Prop :=
  (∀ key rest, path ++ key :: rest = costPaths index →
      tallyMembers serde path members costs index =
        (Value.lastMember key members).elim (costs index) (costAt serde rest)) ∧
    ((∀ key, ¬path ++ [key] <+: costPaths index) →
      tallyMembers serde path members costs index = costs index)

/-- A value that begins on a cost path starts without a cost. -/
theorem TalliesValue.enter {value : Value}
    (hvalue : TalliesValue serde index (relevant path) value (clear path costs)) {rest : Path}
    (hrest : path ++ rest = costPaths index) :
    tally serde (relevant path) value (clear path costs) index = costAt serde rest value := by
  have hleads : leadsTo path (costPaths index) :=
    (leadsTo_iff _ _).mpr ⟨rest, hrest⟩
  have hself := relevant_eq_self hleads
  rw [hself] at hvalue ⊢
  exact hvalue.1 rest hrest (if_pos hleads)

theorem TalliesValue.skip {value : Value}
    (hvalue : TalliesValue serde index (relevant path) value (clear path costs))
    (hpath : ¬path <+: costPaths index) :
    tally serde (relevant path) value (clear path costs) index = costs index := by
  have hleads : ¬leadsTo path (costPaths index) := fun hleads ↦ hpath ((leadsTo_iff _ _).mp hleads)
  have hrelevant : ¬relevant path <+: costPaths index :=
    fun hinitial ↦ hleads ((relevant_leadsTo path index).mp ((leadsTo_iff _ _).mpr hinitial))
  exact (hvalue.2 hrelevant).trans (if_neg hleads)

/-- No element of an array is on a cost path. -/
theorem element_not_initial (path : Path) (index : Fin 6) : ¬path ++ [[]] <+: costPaths index :=
  fun hinitial ↦ (costPaths_key index [] (hinitial.subset (by simp))).1 rfl

theorem tallies_scalar {value : Value}
    (htally : tally serde path value costs = record path (scalarCost serde value) costs)
    (hget : ∀ key, value.get key = none) : TalliesValue serde index path value costs := by
  refine ⟨fun rest hrest hnone ↦ ?_, fun hpath ↦ ?_⟩
  · rw [htally, record]
    cases rest with
    | nil =>
      rw [List.append_nil] at hrest
      exact if_pos ((reaches_iff _ _).mpr hrest)
    | cons key rest =>
      have hreaches : ¬reaches path (costPaths index) := by
        rw [reaches_iff, ← hrest]
        simp
      rw [if_neg hreaches, hnone, costAt, Value.pointer, hget]
      rfl
  · have hreaches : ¬reaches path (costPaths index) := by
      rw [reaches_iff]
      rintro rfl
      exact hpath List.prefix_rfl
    rw [htally, record, if_neg hreaches]

theorem tallies_members_cons {raw : StringBody} {value : Value}
    {members : List (StringBody × Value)}
    (hvalue : TalliesValue serde index (relevant (path ++ [keyText raw.1])) value
      (clear (path ++ [keyText raw.1]) costs))
    (hmembers : TalliesMembers serde index path members
      (tally serde (relevant (path ++ [keyText raw.1])) value
        (clear (path ++ [keyText raw.1]) costs))) :
    TalliesMembers serde index path ((raw, value) :: members) costs := by
  refine ⟨fun key rest hrest ↦ ?_, fun hpath ↦ ?_⟩
  · have hkey : key ∈ costPaths index := by
      rw [← hrest]
      simp
    rw [tallyMembers, hmembers.1 key rest hrest, Value.lastMember_cons]
    by_cases hmatch : decode raw.1 = key
    · have htext := (keyText_eq_iff hkey raw).mpr hmatch
      have henter := hvalue.enter (show path ++ [keyText raw.1] ++ rest = costPaths index by
        rw [htext, List.append_assoc, List.singleton_append, hrest])
      rw [henter, if_pos hmatch]
      cases Value.lastMember key members <;> rfl
    · have htext : keyText raw.1 ≠ key := fun htext ↦ hmatch ((keyText_eq_iff hkey raw).mp htext)
      have hskip := hvalue.skip (show ¬path ++ [keyText raw.1] <+: costPaths index by
        rw [← hrest, List.prefix_append_right_inj, List.cons_prefix_cons]
        exact fun hinitial ↦ htext hinitial.1)
      rw [hskip, if_neg hmatch, Option.or_none]
  · rw [tallyMembers, hmembers.2 hpath]
    exact hvalue.skip (hpath _)

/-- What every value does to a cost, by induction on the value. -/
theorem tally_tallies (serde : Serde F64) (index : Fin 6) (path : Path) (value : Value)
    (costs : Fin 6 → Option F64) : TalliesValue serde index path value costs := by
  refine tally.induct serde (TalliesValue serde index) (TalliesMembers serde index)
    (fun path elements costs ↦ tallyElements serde path elements costs index = costs index)
    ?array ?object ?string ?null ?bool ?number ?noElement ?element ?noMember ?member
    path value costs
  case array =>
    intro path elements costs ih
    refine ⟨fun rest _ hnone ↦ ?_, fun _ ↦ by rw [tally, ih]⟩
    rw [tally, ih, hnone, costAt]
    cases rest <;> rfl
  case object =>
    intro path members costs ih
    refine ⟨fun rest hrest hnone ↦ ?_, fun hpath ↦ ?_⟩
    · rw [tally]
      cases rest with
      | nil =>
        rw [List.append_nil] at hrest
        refine (ih.2 fun key hinitial ↦ ?_).trans hnone
        rw [← hrest] at hinitial
        exact absurd hinitial.length_le (by simp)
      | cons key rest =>
        rw [ih.1 key rest hrest, hnone, costAt, Value.pointer, Value.get]
        cases Value.lastMember key members <;> rfl
    · rw [tally]
      exact ih.2 fun key hinitial ↦ hpath ((List.prefix_append _ _).trans hinitial)
  case string =>
    intro path raw costs
    refine ⟨fun rest _ hnone ↦ ?_, fun _ ↦ by rw [tally]⟩
    rw [tally, hnone, costAt]
    cases rest <;> rfl
  case null => exact fun path costs ↦ tallies_scalar (by rw [tally]) fun _ ↦ rfl
  case bool => exact fun path value costs ↦ tallies_scalar (by rw [tally]) fun _ ↦ rfl
  case number => exact fun path literal costs ↦ tallies_scalar (by rw [tally]) fun _ ↦ rfl
  case noElement => exact fun path costs ↦ by rw [tallyElements]
  case element =>
    intro path value elements costs hvalue hmore
    rw [tallyElements, hmore]
    exact hvalue.skip (element_not_initial path index)
  case noMember =>
    exact fun path costs ↦ ⟨fun key rest _ ↦ by rw [tallyMembers]; rfl,
      fun _ ↦ by rw [tallyMembers]⟩
  case member => exact fun path raw value members costs ↦ tallies_members_cons

def documentCosts (serde : Serde F64) (value : Value) : Fin 6 → Option F64 :=
  fun index ↦ costAt serde (costPaths index) value

/-- Reading a document from its root finds, under each path, the cost of what the path leads to. -/
theorem tally_document (serde : Serde F64) (value : Value) :
    tally serde [] value (fun _ ↦ none) = documentCosts serde value :=
  funext fun index ↦ (tally_tallies serde index [] value _).1 (costPaths index) rfl rfl

end Lookup

end Relayna.ResponseCost

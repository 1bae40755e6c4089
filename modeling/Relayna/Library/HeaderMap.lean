import Mathlib.Data.List.Basic

/-!
# Maps with several values for a name

The headers of a message are a list of names with values, in which a name may occur more than once.
`remove` takes every value of a name away, `insert` replaces them by one value, and neither touches
another name.

A program that rewrites headers is a list of edits. `getAll_applyAll` says what it leaves for a
name: the values of the last edit of the name, or those that the name had. `AgreeOff hidden` relates
two maps that have the same values for every name outside `hidden`; a program that edits every
hidden name makes the maps equal for every reader, whatever the hidden values were.
-/

set_option autoImplicit false
set_option relaxedAutoImplicit false

namespace Relayna.Library.HeaderMap

variable {Name Value : Type*}

/-- Names with their values, in the order of their arrival. -/
abbrev Headers (Name Value : Type*) := List (Name × Value)

variable [DecidableEq Name]

/-- The values of a name. -/
def getAll (headers : Headers Name Value) (name : Name) : List Value :=
  (headers.filter fun header ↦ header.1 = name).map Prod.snd

/-- The first value of a name. -/
def first (headers : Headers Name Value) (name : Name) : Option Value :=
  (getAll headers name).head?

/-- Whether a name has a value. -/
def contains (headers : Headers Name Value) (name : Name) : Bool :=
  !(getAll headers name).isEmpty

/-- Every value of a name is taken away. -/
def remove (headers : Headers Name Value) (name : Name) : Headers Name Value :=
  headers.filter fun header ↦ header.1 ≠ name

/-- The values of a name are replaced by one. -/
def insert (headers : Headers Name Value) (name : Name) (value : Value) : Headers Name Value :=
  remove headers name ++ [(name, value)]

theorem getAll_cons_of_ne {first name : Name} (hfirst : first ≠ name) (value : Value)
    (headers : Headers Name Value) :
    getAll ((first, value) :: headers) name = getAll headers name := by
  rw [getAll, List.filter_cons_of_neg (by simpa using hfirst), getAll]

@[simp] theorem getAll_remove_self (headers : Headers Name Value) (name : Name) :
    getAll (remove headers name) name = [] := by
  simp [getAll, remove]

theorem getAll_remove_of_ne (headers : Headers Name Value) {name other : Name}
    (hother : other ≠ name) : getAll (remove headers name) other = getAll headers other := by
  unfold getAll remove
  rw [List.filter_filter]
  congr 1
  refine List.filter_congr fun header _ ↦ ?_
  by_cases hname : header.1 = other
  · simp [hname, hother]
  · simp [hname]

@[simp] theorem getAll_insert_self (headers : Headers Name Value) (name : Name) (value : Value) :
    getAll (insert headers name value) name = [value] := by
  simp [getAll, insert, remove]

theorem getAll_insert_of_ne (headers : Headers Name Value) {name other : Name} (value : Value)
    (hother : other ≠ name) : getAll (insert headers name value) other = getAll headers other := by
  rw [← getAll_remove_of_ne headers hother]
  simp [getAll, insert, Ne.symm hother]

/-! ### Programs of edits -/

inductive Edit (Name Value : Type*)
  | remove (name : Name)
  | insert (name : Name) (value : Value)

def Edit.name : Edit Name Value → Name
  | .remove name => name
  | .insert name _ => name

/-- The values that a name has after an edit of it. -/
def Edit.values : Edit Name Value → List Value
  | .remove _ => []
  | .insert _ value => [value]

/-- A map after one edit. -/
def apply (headers : Headers Name Value) : Edit Name Value → Headers Name Value
  | .remove name => remove headers name
  | .insert name value => insert headers name value

/-- A map after edits, the first of them first. -/
def applyAll (headers : Headers Name Value) (edits : List (Edit Name Value)) : Headers Name Value :=
  edits.foldl apply headers

theorem getAll_apply (headers : Headers Name Value) (edit : Edit Name Value) (name : Name) :
    getAll (apply headers edit) name =
      if edit.name = name then edit.values else getAll headers name := by
  split_ifs with hname
  · subst hname
    cases edit with
    | remove name => exact getAll_remove_self headers name
    | insert name value => exact getAll_insert_self headers name value
  · cases edit with
    | remove other => exact getAll_remove_of_ne headers (Ne.symm hname)
    | insert other value => exact getAll_insert_of_ne headers value (Ne.symm hname)

/-- What the last edit of a name leaves there, if there is one. -/
def lastValues (name : Name) : List (Edit Name Value) → Option (List Value)
  | [] => none
  | edit :: later =>
    (lastValues name later).or (if edit.name = name then some edit.values else none)

@[simp] theorem lastValues_nil (name : Name) :
    lastValues name ([] : List (Edit Name Value)) = none := rfl

@[simp] theorem lastValues_cons (name : Name) (edit : Edit Name Value)
    (later : List (Edit Name Value)) : lastValues name (edit :: later) =
      (lastValues name later).or (if edit.name = name then some edit.values else none) := rfl

@[simp] theorem lastValues_append (name : Name) (earlier later : List (Edit Name Value)) :
    lastValues name (earlier ++ later) = (lastValues name later).or (lastValues name earlier) := by
  induction earlier with
  | nil => simp
  | cons edit earlier ih => rw [List.cons_append, lastValues_cons, ih, lastValues_cons,
      Option.or_assoc]

/-- A name has the values that its last edit has left there, or those it had. -/
theorem getAll_applyAll (edits : List (Edit Name Value)) :
    ∀ (headers : Headers Name Value) (name : Name),
      getAll (applyAll headers edits) name =
        (lastValues name edits).getD (getAll headers name) := by
  induction edits with
  | nil => exact fun headers name ↦ rfl
  | cons edit later ih =>
    intro headers name
    show getAll (applyAll (apply headers edit) later) name = _
    rw [ih, getAll_apply, lastValues_cons]
    cases lastValues name later with
    | some values => rfl
    | none => split_ifs <;> rfl

theorem lastValues_eq_none {name : Name} {edits : List (Edit Name Value)}
    (huntouched : ∀ edit ∈ edits, edit.name ≠ name) : lastValues name edits = none := by
  induction edits with
  | nil => rfl
  | cons edit later ih =>
    obtain ⟨hedit, hlater⟩ := List.forall_mem_cons.mp huntouched
    rw [lastValues_cons, ih hlater, if_neg hedit, Option.none_or]

theorem lastValues_isSome {name : Name} {edits : List (Edit Name Value)}
    (htouched : ∃ edit ∈ edits, edit.name = name) : (lastValues name edits).isSome = true := by
  induction edits with
  | nil => exact absurd htouched (by simp)
  | cons edit later ih =>
    rw [lastValues_cons, Option.isSome_or, Bool.or_eq_true]
    obtain ⟨found, hfound, hname⟩ := htouched
    rcases List.mem_cons.mp hfound with rfl | hlater
    · exact .inr (by rw [if_pos hname, Option.isSome_some])
    · exact .inl (ih ⟨found, hlater, hname⟩)

/-! ### Maps that differ in hidden names -/

/-- Two maps have the same values for every name that is not hidden. -/
def AgreeOff (hidden : Name → Prop) (left right : Headers Name Value) : Prop :=
  ∀ name, ¬ hidden name → getAll left name = getAll right name

/-- Assumes: two maps agree except for hidden names, and every hidden name is edited. After the
edits they have the same values everywhere. -/
theorem AgreeOff.applyAll {hidden : Name → Prop} {left right : Headers Name Value}
    (hagree : AgreeOff hidden left right) {edits : List (Edit Name Value)}
    (hedited : ∀ name, hidden name → ∃ edit ∈ edits, edit.name = name) (name : Name) :
    getAll (applyAll left edits) name = getAll (applyAll right edits) name := by
  rw [getAll_applyAll, getAll_applyAll]
  by_cases hhidden : hidden name
  · obtain ⟨values, hvalues⟩ := Option.isSome_iff_exists.mp
      (lastValues_isSome (hedited name hhidden))
    rw [hvalues, Option.getD_some, Option.getD_some]
  · rw [hagree name hhidden]

end Relayna.Library.HeaderMap

import Mathlib.Data.List.Basic

/-!
# A register with numbered versions

The values that a register was given, newest first. Version `n` is the value that the `n`-th write
left, and version `0` is the register before any write. A later write leaves the older versions what
they were (`valueAt_cons_of_le`), so a copy that was taken at some time stays a copy of its version
(`Copy.Of.write`), and a copy that is taken now is of the newest one (`Copy.of_newest`).
-/

set_option autoImplicit false
set_option relaxedAutoImplicit false

namespace Relayna.Library.VersionedRegister

variable {Value : Type*}

def valueAt (values : List Value) (version : ℕ) : Option Value :=
  (values.drop (values.length - version)).head?

theorem valueAt_length (values : List Value) : valueAt values values.length = values.head? := by
  rw [valueAt, Nat.sub_self, List.drop_zero]

/-- Assumes: a version that was written before. Another write leaves it what it was. -/
theorem valueAt_cons_of_le {values : List Value} {version : ℕ} (hversion : version ≤ values.length)
    (value : Value) : valueAt (value :: values) version = valueAt values version := by
  have hlater : (value :: values).length - version = values.length - version + 1 := by
    rw [List.length_cons]
    omega
  rw [valueAt, hlater, List.drop_succ_cons, valueAt]

/-- A value of a version was written. -/
theorem mem_of_valueAt {values : List Value} {version : ℕ} {value : Value}
    (hvalue : valueAt values version = some value) : value ∈ values :=
  List.mem_of_mem_drop (List.mem_of_mem_head? hvalue)

/-- A value with the version that it is of. -/
structure Copy (Value : Type*) where
  version : ℕ
  value : Option Value

/-- The copy that is taken now. -/
def newest (values : List Value) : Copy Value :=
  ⟨values.length, values.head?⟩

/-- A copy holds the value of its version. -/
structure Copy.Of (values : List Value) (copy : Copy Value) : Prop where
  written : copy.version ≤ values.length
  value : copy.value = valueAt values copy.version

theorem Copy.of_newest (values : List Value) : (newest values).Of values :=
  ⟨Nat.le_refl _, (valueAt_length values).symm⟩

theorem Copy.Of.write {values : List Value} {copy : Copy Value} (hcopy : copy.Of values)
    (value : Value) : copy.Of (value :: values) where
  written := Nat.le_succ_of_le hcopy.written
  value := hcopy.value.trans (valueAt_cons_of_le hcopy.written value).symm

/-- What a copy holds was written. -/
theorem Copy.Of.mem {values : List Value} {copy : Copy Value} (hcopy : copy.Of values)
    {value : Value} (hvalue : copy.value = some value) : value ∈ values :=
  mem_of_valueAt (hcopy.value.symm.trans hvalue)

/-- Assumes: a copy of the last version. It holds the newest value. -/
theorem Copy.Of.value_eq_head? {values : List Value} {copy : Copy Value} (hcopy : copy.Of values)
    (hversion : values.length ≤ copy.version) : copy.value = values.head? := by
  have hlast : copy.version = values.length := Nat.le_antisymm hcopy.written hversion
  rw [hcopy.value, hlast, valueAt_length]

/-- A copy holds nothing only where nothing had been written. -/
theorem Copy.Of.version_eq_zero {values : List Value} {copy : Copy Value} (hcopy : copy.Of values)
    (hvalue : copy.value = none) : copy.version = 0 := by
  rw [hcopy.value, valueAt, List.head?_eq_none_iff, List.drop_eq_nil_iff] at hvalue
  have hwritten := hcopy.written
  omega

/-- The copy of version `0` holds nothing. -/
theorem Copy.Of.value_eq_none {values : List Value} {copy : Copy Value} (hcopy : copy.Of values)
    (hversion : copy.version = 0) : copy.value = none := by
  rw [hcopy.value, hversion, valueAt, Nat.sub_zero, List.drop_length, List.head?_nil]

end Relayna.Library.VersionedRegister

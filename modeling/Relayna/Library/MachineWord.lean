import Mathlib.Algebra.Order.Group.Nat
import Mathlib.Algebra.Order.Ring.Int
import Mathlib.Order.Basic

/-!
# Machine-word arithmetic on natural numbers

A word of `width` bits is a natural number below `2 ^ width`, and each operation says what the
machine does at the end of the range: `checkedAdd`, `checkedMul` and `checkedSub` have no result,
`saturatingAdd` and `saturatingMul` stop at the end, `wrappingAdd` and `wrappingSub` go around, and
so does `wrappingAddSigned` on signed words. The lemmas give the condition under which each one is
the exact operation. `littleEndian` gives the bytes of a word.
-/

set_option autoImplicit false
set_option relaxedAutoImplicit false

namespace Relayna.Library.MachineWord

variable {width : ℕ}

/-- A word of `width` bits, for values that are only stored and compared. -/
abbrev Word (width : ℕ) := Fin (2 ^ width)

/-- Addition without a result above the range. -/
def checkedAdd (width left right : ℕ) : Option ℕ :=
  if left + right < 2 ^ width then some (left + right) else none

/-- Multiplication without a result above the range. -/
def checkedMul (width left right : ℕ) : Option ℕ :=
  if left * right < 2 ^ width then some (left * right) else none

/-- Subtraction without a result below zero. -/
def checkedSub (left right : ℕ) : Option ℕ :=
  if right ≤ left then some (left - right) else none

/-- Addition that stops at the largest word. -/
def saturatingAdd (width left right : ℕ) : ℕ :=
  min (left + right) (2 ^ width - 1)

/-- Multiplication that stops at the largest word. -/
def saturatingMul (width left right : ℕ) : ℕ :=
  min (left * right) (2 ^ width - 1)

/-- Addition that goes around above the range. -/
def wrappingAdd (width left right : ℕ) : ℕ :=
  (left + right) % 2 ^ width

/-- Subtraction that goes around below zero. -/
def wrappingSub (width left right : ℕ) : ℕ :=
  (left + 2 ^ width - right) % 2 ^ width

/-- Addition of signed words that goes around at both ends of the range. -/
def wrappingAddSigned (width : ℕ) (left right : ℤ) : ℤ :=
  (left + right).bmod (2 ^ width)

/-- Subtraction of two's-complement integers that stops at the ends of their range. -/
def saturatingSubSigned (width : ℕ) (left right : ℤ) : ℤ :=
  max (-2 ^ (width - 1)) (min (2 ^ (width - 1) - 1) (left - right))

theorem checkedAdd_eq_some {left right result : ℕ} :
    checkedAdd width left right = some result ↔ left + right = result ∧ result < 2 ^ width := by
  unfold checkedAdd
  split_ifs with hfits
  · refine ⟨fun hsome ↦ ?_, fun hresult ↦ congrArg some hresult.1⟩
    obtain rfl := Option.some.inj hsome
    exact ⟨rfl, hfits⟩
  · refine ⟨fun hnone ↦ absurd hnone (by simp), fun hresult ↦ ?_⟩
    exact absurd (hresult.1 ▸ hresult.2) hfits

theorem checkedMul_eq_some {left right result : ℕ} :
    checkedMul width left right = some result ↔ left * right = result ∧ result < 2 ^ width := by
  unfold checkedMul
  split_ifs with hfits
  · refine ⟨fun hsome ↦ ?_, fun hresult ↦ congrArg some hresult.1⟩
    obtain rfl := Option.some.inj hsome
    exact ⟨rfl, hfits⟩
  · refine ⟨fun hnone ↦ absurd hnone (by simp), fun hresult ↦ ?_⟩
    exact absurd (hresult.1 ▸ hresult.2) hfits

theorem checkedSub_of_le {left right : ℕ} (hle : right ≤ left) :
    checkedSub left right = some (left - right) :=
  if_pos hle

/-- Assumes: a sum in range. Saturating addition is exact. -/
theorem saturatingAdd_of_lt {left right : ℕ} (hlt : left + right < 2 ^ width) :
    saturatingAdd width left right = left + right :=
  min_eq_left (Nat.le_sub_one_of_lt hlt)

/-- Adding to a word that stands for a number, stopped at the end of the range, gives the word that
stands for the sum. -/
theorem saturatingAdd_min (width value right : ℕ) :
    saturatingAdd width (min value (2 ^ width - 1)) right =
      min (value + right) (2 ^ width - 1) := by
  unfold saturatingAdd
  omega

/-- Assumes: a sum in range. Wrapping addition is exact. -/
theorem wrappingAdd_of_lt {left right : ℕ} (hlt : left + right < 2 ^ width) :
    wrappingAdd width left right = left + right :=
  Nat.mod_eq_of_lt hlt

/-- Assumes: a sum that is not negative, in range. Wrapping addition of signed words is exact. -/
theorem wrappingAddSigned_of_lt {left right : ℤ} (hnonneg : 0 ≤ left + right)
    (hlt : (left + right) * 2 < (2 ^ width : ℕ)) :
    wrappingAddSigned width left right = left + right :=
  Int.bmod_eq_of_le_mul_two (by omega) hlt

/-- Assumes: a sum that is not negative. Wrapping addition of signed words is exact in range, and
nowhere else. -/
theorem wrappingAddSigned_eq_iff {left right : ℤ} (hnonneg : 0 ≤ left + right) :
    wrappingAddSigned width left right = left + right ↔
      (left + right) * 2 < (2 ^ width : ℕ) := by
  refine ⟨fun hexact ↦ ?_, wrappingAddSigned_of_lt hnonneg⟩
  have hlt : wrappingAddSigned width left right < ((2 ^ width : ℕ) + 1) / 2 :=
    Int.bmod_lt (Nat.two_pow_pos width)
  omega

/-- Assumes: a word and a subtrahend that does not exceed it. Wrapping subtraction is exact. -/
theorem wrappingSub_of_le {left right : ℕ} (hle : right ≤ left) (hlt : left < 2 ^ width) :
    wrappingSub width left right = left - right := by
  unfold wrappingSub
  have hsum : left + 2 ^ width - right = (left - right) + 2 ^ width := by omega
  rw [hsum, Nat.add_mod_right]
  exact Nat.mod_eq_of_lt (by omega)

/-- The lowest `count` bytes of a number, the lowest first. -/
def littleEndian : ℕ → ℕ → List UInt8
  | 0, _ => []
  | count + 1, value => UInt8.ofNat (value % 256) :: littleEndian count (value / 256)

@[simp] theorem length_littleEndian (count value : ℕ) :
    (littleEndian count value).length = count := by
  induction count generalizing value with
  | zero => rfl
  | succ count ih => exact congrArg (· + 1) (ih (value / 256))

/-- Assumes: two words of `count` bytes. Their bytes determine them. -/
theorem littleEndian_injective {count left right : ℕ} (hleft : left < 256 ^ count)
    (hright : right < 256 ^ count) (hbytes : littleEndian count left = littleEndian count right) :
    left = right := by
  induction count generalizing left right with
  | zero =>
    rw [pow_zero] at hleft hright
    omega
  | succ count ih =>
    obtain ⟨hlow, hhigh⟩ := List.cons.inj hbytes
    have hmod : left % 256 = right % 256 := by
      have hnat := congrArg UInt8.toNat hlow
      rw [UInt8.toNat_ofNat', UInt8.toNat_ofNat'] at hnat
      omega
    have hdiv : left / 256 = right / 256 := by
      rw [pow_succ] at hleft hright
      exact ih (by omega) (by omega) hhigh
    omega

end Relayna.Library.MachineWord

import Mathlib.Algebra.Order.Floor.Semifield
import Mathlib.Data.Int.Log
import Mathlib.Data.Sign.Basic
import Mathlib.Tactic.Ring

/-!
# Truncation to significant digits

The value of a number whose digits after the first few are cut off. The unit of the last digit that
stays is a power of the base, from the logarithm of the magnitude. For a multiple of a power of the
base this is a division of natural numbers: `truncate_scaled`.
-/

set_option autoImplicit false
set_option relaxedAutoImplicit false

namespace Relayna.Library

variable {K : Type*} [Field K] [LinearOrder K] [IsStrictOrderedRing K] [FloorSemiring K]

/-- The value with its first `count` significant digits in a base. -/
def truncate (base count : ℕ) (value : K) : K :=
  let unit : K := (base : K) ^ (Int.log base |value| + 1 - count)
  SignType.sign value * (⌊|value| / unit⌋₊ * unit)

variable {base mantissa : ℕ}

omit [FloorSemiring K] in
theorem base_pos (hbase : 1 < base) : (0 : K) < base :=
  Nat.cast_pos.mpr (Nat.zero_lt_of_lt hbase)

/-- Assumes: a positive mantissa. The logarithm of a multiple of a power of the base. -/
theorem log_scaled (hbase : 1 < base) (hmantissa : 0 < mantissa) (scale : ℤ) :
    Int.log base ((mantissa : K) * (base : K) ^ scale) = Nat.log base mantissa + scale := by
  have hscale : (0 : K) < (base : K) ^ scale := zpow_pos (base_pos hbase) scale
  have hpos : (0 : K) < mantissa * (base : K) ^ scale :=
    mul_pos (Nat.cast_pos.mpr hmantissa) hscale
  have hbase' : (base : K) ≠ 0 := (base_pos hbase).ne'
  apply le_antisymm
  · have hupper : (mantissa : K) * (base : K) ^ scale <
        (base : K) ^ ((Nat.log base mantissa + scale : ℤ) + 1) := by
      have hlt : (mantissa : K) < (base : K) ^ (Nat.log base mantissa + 1) := by
        exact_mod_cast Nat.lt_pow_succ_log_self hbase mantissa
      rw [add_right_comm, zpow_add₀ hbase']
      exact mul_lt_mul_of_pos_right (by exact_mod_cast hlt) hscale
    have hlog := (Int.lt_zpow_iff_log_lt hbase hpos).mp hupper
    omega
  · have hlower : (base : K) ^ (Nat.log base mantissa + scale : ℤ) ≤
        mantissa * (base : K) ^ scale := by
      have hle : (base : K) ^ Nat.log base mantissa ≤ mantissa := by
        exact_mod_cast Nat.pow_log_le_self base hmantissa.ne'
      rw [zpow_add₀ hbase', zpow_natCast]
      exact mul_le_mul_of_nonneg_right hle hscale.le
    exact (Int.zpow_le_iff_le_log hbase hpos).mp hlower

/-- Assumes: a positive mantissa. The digits that are cut off are those beyond the first ones. -/
theorem truncate_scaled (hbase : 1 < base) (hmantissa : 0 < mantissa) (count : ℕ) (scale : ℤ) :
    truncate base count ((mantissa : K) * (base : K) ^ scale) =
      (mantissa / base ^ (Nat.log base mantissa + 1 - count) : ℕ) *
        (base : K) ^ (scale + (Nat.log base mantissa + 1 - count : ℕ)) := by
  have hbase' : (base : K) ≠ 0 := (base_pos hbase).ne'
  have hpos : (0 : K) < mantissa * (base : K) ^ scale :=
    mul_pos (Nat.cast_pos.mpr hmantissa) (zpow_pos (base_pos hbase) scale)
  unfold truncate
  dsimp only
  rw [abs_of_pos hpos, sign_pos hpos, log_scaled hbase hmantissa, SignType.coe_one, one_mul]
  rcases le_total count (Nat.log base mantissa + 1) with hcut | hall
  · obtain ⟨omitted, homitted⟩ := Nat.exists_eq_add_of_le hcut
    have hexponent : (Nat.log base mantissa + scale + 1 - count : ℤ) = scale + omitted := by omega
    have hquotient : (mantissa : K) * (base : K) ^ scale / (base : K) ^ (scale + omitted : ℤ) =
        mantissa / (base ^ omitted : ℕ) := by
      rw [zpow_add₀ hbase', zpow_natCast, mul_comm, Nat.cast_pow]
      exact mul_div_mul_left _ _ (zpow_ne_zero scale hbase')
    rw [hexponent, hquotient, Nat.floor_div_eq_div, homitted, Nat.add_sub_cancel_left]
  · -- every digit stays, and the unit is that of a digit behind the last one
    obtain ⟨missing, hmissing⟩ := Nat.exists_eq_add_of_le hall
    have hexponent : (Nat.log base mantissa + scale + 1 - count : ℤ) = scale - missing := by omega
    have hquotient : (mantissa : K) * (base : K) ^ scale / (base : K) ^ (scale - missing : ℤ) =
        (mantissa * base ^ missing : ℕ) := by
      rw [mul_div_assoc, ← zpow_sub₀ hbase', sub_sub_cancel, zpow_natCast, Nat.cast_mul,
        Nat.cast_pow]
    rw [hexponent, hquotient, Nat.floor_natCast, Nat.sub_eq_zero_of_le hall, pow_zero, Nat.div_one,
      Nat.cast_mul, Nat.cast_pow, mul_assoc, ← zpow_natCast, ← zpow_add₀ hbase', Nat.cast_zero,
      add_zero, add_sub_cancel]

omit [IsStrictOrderedRing K] in
theorem truncate_zero (base count : ℕ) : truncate base count (0 : K) = 0 := by
  unfold truncate
  rw [sign_zero, SignType.coe_zero, zero_mul]

theorem truncate_neg (base count : ℕ) (value : K) :
    truncate base count (-value) = -truncate base count value := by
  unfold truncate
  rw [abs_neg, Left.sign_neg, SignType.coe_neg, neg_mul]

end Relayna.Library

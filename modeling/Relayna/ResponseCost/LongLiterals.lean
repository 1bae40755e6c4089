import Mathlib.Algebra.Order.Field.Power
import Mathlib.Data.Rat.Floor
import Relayna.Library.Json.Parts
import Relayna.Library.Truncation
import Relayna.ResponseCost.Acceptance

/-!
# Long number literals

A number literal of more than 128 bytes is not kept. `Scalar::cost` builds a shorter one from the
significant digits that were kept, the counts of the digits after the point and of the digits left
out, and the exponent, which stops growing at `1_000_000_000`. `cost_truncated` says that the
shorter literal denotes the value truncated to its first 64 significant digits, unless the exponent
has reached that bound; then both values are zero, too large or too small for `f64`.
-/

set_option autoImplicit false
set_option relaxedAutoImplicit false

namespace Relayna.ResponseCost

open Relayna.Library
open Relayna.Library.Json

section Literal

variable (literal : NumberLiteral)

/-! ### The counters of a literal -/

/-- The digits of a literal from the first one that is not zero. -/
def leading : List UInt8 :=
  literal.digits.dropWhile fun byte ↦ byte = zero

theorem significant_text : significant literal.text = leading literal := by
  unfold significant mantissaOf leading
  rw [literal.span_text.1, literal.filter_mantissa]

theorem fractionOf_text : fractionOf literal.text = literal.fractionDigits := by
  unfold fractionOf mantissaOf
  rw [literal.span_text.1, literal.filter_fraction]

theorem exponentOf_text : exponentOf literal.text = literal.exponentText :=
  literal.span_text.2

/-- The exponent as it is kept: its magnitude is at most `1_000_000_000`. -/
def keptExponent : ℤ :=
  if minus ∈ exponentOf literal.text then -magnitude literal.text else magnitude literal.text

theorem decimal_eq_decimalValue : decimal = decimalValue :=
  rfl

/-- The kept exponent is the exponent between its bounds. -/
theorem keptExponent_eq :
    keptExponent literal = max (-1000000000) (min literal.exponentValue 1000000000) := by
  unfold keptExponent magnitude
  rw [exponentOf_text, decimal_eq_decimalValue, literal.exponentValue_eq]
  generalize decimalValue (literal.exponentText.filter isDigit) = value
  split_ifs <;> omega

theorem isDigit_leading : ∀ byte ∈ leading literal, isDigit byte = true :=
  fun byte hbyte ↦ literal.isDigit_of_mem byte ((List.dropWhile_sublist _).subset hbyte)

theorem head?_leading : (leading literal).head? ≠ some zero :=
  head?_dropWhile_zeros literal.digits

/-- How many significant digits are left out. -/
def omitted : ℕ :=
  (leading literal).length - 64

/-- The digits of the shorter literal. -/
def kept : List UInt8 :=
  if leading literal = [] then [zero] else (leading literal).take 64

theorem natural_kept : Natural (kept literal) := by
  have hdigits := isDigit_leading literal
  have hhead := head?_leading literal
  unfold kept
  rcases hleading : leading literal with _ | ⟨first, rest⟩
  · exact .zero
  · rw [hleading] at hdigits hhead
    rw [if_neg (List.cons_ne_nil _ _), List.take_succ_cons]
    rw [List.forall_mem_cons] at hdigits
    refine .many hdigits.1 (fun hzero ↦ hhead (congrArg some hzero)) fun byte hbyte ↦ ?_
    exact hdigits.2 byte (List.mem_of_mem_take hbyte)

/-- The shorter literal that is built from the counters. -/
def shortened : NumberLiteral :=
  .scaled literal.negative (kept literal) (natural_kept literal)
    (keptExponent literal - literal.fractionDigits.length + omitted literal)

/-- `Scalar::cost` builds the shorter literal. -/
theorem abridged_text : (Scalar.after literal.text).abridged = (shortened literal).text := by
  rw [Scalar.abridged_after ((number_iff_literal _).mpr ⟨literal, rfl⟩), shortened,
    NumberLiteral.scaled_text]
  have hsign : literal.text.head? = some minus ↔ literal.negative = true := by
    rw [← literal.head_text, decide_eq_true_eq]
  unfold abridge kept keptExponent omitted
  dsimp only
  rw [significant_text, fractionOf_text]
  simp only [hsign]

/-! ### The values of a literal and of the shorter one -/

/-- The significant digits as a number. -/
def mantissaValue : ℕ :=
  decimalValue (leading literal)

theorem value_eq :
    literal.value = NumberLiteral.signOf literal.negative * (mantissaValue literal *
      10 ^ (literal.exponentValue - literal.fractionDigits.length)) := by
  unfold NumberLiteral.value mantissaValue leading
  rw [decimalValue_dropWhile, mul_assoc]

theorem decimalValue_kept :
    decimalValue (kept literal) = mantissaValue literal / 10 ^ omitted literal := by
  unfold kept mantissaValue omitted
  split_ifs with hnone
  · rw [hnone]
    rfl
  · exact decimalValue_take (isDigit_leading literal) 64

theorem shortened_value :
    (shortened literal).value = NumberLiteral.signOf literal.negative *
      ((mantissaValue literal / 10 ^ omitted literal : ℕ) *
        10 ^ (keptExponent literal - literal.fractionDigits.length + omitted literal)) := by
  rw [shortened, NumberLiteral.scaled_value, decimalValue_kept, mul_assoc]

theorem mantissaValue_lt : mantissaValue literal < 10 ^ literal.digits.length :=
  calc mantissaValue literal
    _ < 10 ^ (leading literal).length := decimalValue_lt (isDigit_leading literal)
    _ ≤ 10 ^ literal.digits.length :=
      Nat.pow_le_pow_right (by decide) (List.dropWhile_sublist _).length_le

/-- Assumes: a literal that is not zero. The digits left out are those beyond the first 64, and a
digit is kept. -/
theorem omitted_eq (hpos : 0 < mantissaValue literal) :
    omitted literal = Nat.log 10 (mantissaValue literal) + 1 - 64 ∧
      0 < mantissaValue literal / 10 ^ omitted literal := by
  have hne : leading literal ≠ [] := by
    intro hnone
    rw [mantissaValue, hnone] at hpos
    exact absurd hpos (by decide)
  have hlog : Nat.log 10 (mantissaValue literal) + 1 = (leading literal).length :=
    (log_decimalValue (isDigit_leading literal) hne (head?_leading literal)).2
  have hlength : omitted literal ≤ Nat.log 10 (mantissaValue literal) := by
    rw [omitted, ← hlog]
    omega
  refine ⟨by rw [omitted, hlog], Nat.div_pos ?_ (Nat.pow_pos (by decide))⟩
  exact (Nat.pow_le_pow_right (by decide) hlength).trans (Nat.pow_log_le_self 10 hpos.ne')

/-- The sign passes through the truncation. -/
theorem truncate_signOf (negative : Bool) (value : ℚ) :
    truncate 10 64 (NumberLiteral.signOf negative * value) =
      NumberLiteral.signOf negative * truncate 10 64 value := by
  cases negative with
  | true =>
    show truncate 10 64 (-1 * value) = -1 * truncate 10 64 value
    rw [neg_one_mul, neg_one_mul, truncate_neg]
  | false =>
    show truncate 10 64 (1 * value) = 1 * truncate 10 64 value
    rw [one_mul, one_mul]

/-- Assumes: an exponent below the bound. The shorter literal denotes the truncated value. -/
theorem shortened_truncate (hexponent : |literal.exponentValue| < 1000000000) :
    (shortened literal).value = truncate 10 64 literal.value := by
  have hkept : keptExponent literal = literal.exponentValue := by
    rw [keptExponent_eq]
    rw [abs_lt] at hexponent
    omega
  rw [shortened_value, value_eq, truncate_signOf, hkept]
  rcases Nat.eq_zero_or_pos (mantissaValue literal) with hzero | hpos
  · rw [hzero, Nat.zero_div, Nat.cast_zero, zero_mul, zero_mul, truncate_zero]
  · have htruncated := @truncate_scaled ℚ _ _ _ _ 10 (mantissaValue literal) (by decide) hpos 64
      (literal.exponentValue - literal.fractionDigits.length)
    rw [Nat.cast_ofNat, ← (omitted_eq literal hpos).1] at htruncated
    rw [htruncated]

/-! ### Exponents beyond the bound -/

/-- A multiple of a large power of ten. -/
theorem lt_scaled {mantissa : ℕ} (hpos : 0 < mantissa) {scale : ℤ} (hscale : 309 < scale) :
    10 ^ 309 < (mantissa : ℚ) * 10 ^ scale := by
  have hone : (1 : ℚ) ≤ mantissa := by exact_mod_cast hpos
  calc (10 : ℚ) ^ 309
    _ = 10 ^ (309 : ℤ) := (zpow_natCast 10 309).symm
    _ < 10 ^ scale := zpow_lt_zpow_right₀ (by decide) hscale
    _ ≤ mantissa * 10 ^ scale := le_mul_of_one_le_left (by positivity) hone

/-- A short multiple of a small power of ten. -/
theorem scaled_lt {mantissa count : ℕ} (hshort : mantissa < 10 ^ count) {scale : ℤ}
    (hscale : count + scale ≤ -400) : (mantissa : ℚ) * 10 ^ scale < 10 ^ (-400 : ℤ) := by
  have hmantissa : (mantissa : ℚ) < 10 ^ (count : ℤ) := by
    rw [zpow_natCast]
    exact_mod_cast hshort
  calc (mantissa : ℚ) * 10 ^ scale
    _ < 10 ^ (count : ℤ) * 10 ^ scale := mul_lt_mul_of_pos_right hmantissa (by positivity)
    _ = 10 ^ (count + scale : ℤ) := (zpow_add₀ (by decide) _ _).symm
    _ ≤ 10 ^ (-400 : ℤ) := zpow_le_zpow_right₀ (by decide) hscale

theorem abs_signOf_mul (negative : Bool) {mantissa : ℕ} {scale : ℤ} :
    |NumberLiteral.signOf negative * ((mantissa : ℚ) * 10 ^ scale)| =
      (mantissa : ℚ) * 10 ^ scale := by
  have hnonneg : (0 : ℚ) ≤ mantissa * 10 ^ scale := by positivity
  cases negative with
  | true =>
    show |-1 * ((mantissa : ℚ) * 10 ^ scale)| = _
    rw [neg_one_mul, abs_neg, abs_of_nonneg hnonneg]
  | false =>
    show |1 * ((mantissa : ℚ) * 10 ^ scale)| = _
    rw [one_mul, abs_of_nonneg hnonneg]

/-- Two values that are zero, or beyond the range of `f64` on the same side. -/
def OutOfRange (left right : ℚ) : Prop :=
  left = 0 ∧ right = 0 ∨ (10 ^ 309 < |left| ∧ 10 ^ 309 < |right|) ∨
    (|left| < 10 ^ (-400 : ℤ) ∧ |right| < 10 ^ (-400 : ℤ))

/-- Assumes: an exponent at or beyond the bound, and fewer than `10 ^ 8` digits. -/
theorem shortened_outOfRange (hdigits : literal.digits.length < 100000000)
    (hexponent : 1000000000 ≤ |literal.exponentValue|) :
    OutOfRange literal.value (shortened literal).value := by
  have hfraction : literal.fractionDigits.length ≤ literal.digits.length := by
    rw [NumberLiteral.digits, List.length_append]
    exact Nat.le_add_left _ _
  have homitted : omitted literal ≤ literal.digits.length :=
    (Nat.sub_le _ _).trans (List.dropWhile_sublist _).length_le
  have hkept := keptExponent_eq literal
  unfold OutOfRange
  rw [value_eq, shortened_value, abs_signOf_mul, abs_signOf_mul]
  rcases Nat.eq_zero_or_pos (mantissaValue literal) with hzero | hpos
  · left
    rw [hzero, Nat.zero_div, Nat.cast_zero, zero_mul, zero_mul, mul_zero]
    exact ⟨rfl, rfl⟩
  · right
    have hlt := mantissaValue_lt literal
    rcases le_abs'.mp hexponent with hsmall | hlarge
    · right
      refine ⟨scaled_lt hlt (by omega), scaled_lt ((Nat.div_le_self _ _).trans_lt hlt) (by omega)⟩
    · left
      exact ⟨lt_scaled hpos (by omega), lt_scaled (omitted_eq literal hpos).2 (by omega)⟩

end Literal

/-! ### The cost of a long literal -/

/-- For every number literal of more than 128 bytes with fewer than `10 ^ 8` digits before its
exponent, the cost is read from a shorter number literal. It denotes the value of the literal with
its first 64 significant digits if the exponent is below `10 ^ 9` in magnitude; otherwise both
literals are zero, or both are beyond the range of `f64` on the same side. -/
theorem cost_truncated {F64 : Type} (serde : Serde F64) (literal : NumberLiteral)
    (hlong : 128 < literal.text.length) (hdigits : literal.digits.length < 10 ^ 8) :
    (Scalar.after literal.text).cost serde =
        (serde.parse (Scalar.after literal.text).abridged).filter serde.isCost ∧
      Number (Scalar.after literal.text).abridged ∧
      ∀ short : NumberLiteral, short.text = (Scalar.after literal.text).abridged →
        (|literal.exponentValue| < 10 ^ 9 → short.value = truncate 10 64 literal.value) ∧
        (10 ^ 9 ≤ |literal.exponentValue| → OutOfRange literal.value short.value) := by
  have hnumber : Number literal.text := (number_iff_literal _).mpr ⟨literal, rfl⟩
  have hbuilt := abridged_text literal
  refine ⟨?_, ?_, fun short hshort ↦ ?_⟩
  · rw [Scalar.cost_long serde hnumber hlong, Scalar.abridged_after hnumber]
  · rw [hbuilt]
    exact (number_iff_literal _).mpr ⟨shortened literal, rfl⟩
  · rw [NumberLiteral.value_eq_of_text_eq (hshort.trans hbuilt)]
    constructor
    · exact fun hexponent ↦ shortened_truncate literal hexponent
    · exact fun hexponent ↦ shortened_outOfRange literal hdigits hexponent

/-- Seventy digits behind fifty zeros, with an exponent that is written with zeros. -/
def sevens : NumberLiteral where
  negative := false
  whole := [zero]
  fraction := some (List.replicate 50 zero ++ List.replicate 70 55)
  exponent := some
    { mark := 69
      negative := true
      signed := true
      digits := List.replicate 20 zero ++ ascii "12"
      isMark := rfl
      sign := fun _ ↦ rfl
      isDigits := ⟨by decide, by decide +kernel⟩ }
  isNatural := .zero
  isFraction := by
    intro digits hdigits
    obtain rfl := Option.some.inj hdigits
    exact ⟨by decide, by decide +kernel⟩

/-- What is built for it: six digits less, so that the exponent is `-12 - 120 + 6`. -/
def sevensAbridged : List UInt8 :=
  List.replicate 64 55 ++ ascii "e-126"

theorem cost_truncated_sevens :
    (Scalar.after sevens.text).cost (Serde.reference
        (fun text ↦ if text = sevensAbridged then some 1 else none) fun number : ℕ ↦ 0 < number) =
        some 1 ∧
      (shortened sevens).value = truncate 10 64 sevens.value := by
  obtain ⟨hcost, -, hvalue⟩ := cost_truncated (Serde.reference
    (fun text ↦ if text = sevensAbridged then some 1 else none) fun number : ℕ ↦ 0 < number) sevens
    (by decide +kernel) (by decide +kernel)
  refine ⟨hcost.trans (by decide +kernel), ?_⟩
  exact (hvalue (shortened sevens) (abridged_text sevens).symm).1 (by decide +kernel)

end Relayna.ResponseCost

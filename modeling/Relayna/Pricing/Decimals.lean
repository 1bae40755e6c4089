import Relayna.Library.Json.Parts
import Relayna.Pricing.Services

/-!
# The decimal form of a price

`crates/gateway-core/src/services.rs`: a submitted price is accepted only if the number that is
stored for it is the same decimal number. `normalized_decimal` brings both spellings into one form:
a sign, the digits without zeros at either end, and the power of ten that they are multiplied by.
Its arithmetic is that of signed 64-bit integers.

`normalizedDecimal_canonical` says that the form is that of the number: it has its value, two
numbers have one form only if they are equal, and there is no form only where the arithmetic
overflows.
-/

set_option autoImplicit false
set_option relaxedAutoImplicit false

namespace Relayna.Pricing

open Relayna.Library.Json

/-! ### The normal form -/

/-- A number that fits `i64`. -/
def FitsI64 (value : ℤ) : Prop :=
  -2 ^ 63 ≤ value ∧ value < 2 ^ 63

instance (value : ℤ) : Decidable (FitsI64 value) :=
  inferInstanceAs (Decidable (_ ∧ _))

/-- The result of a checked operation or a conversion to `i64`. -/
def toI64 (value : ℤ) : Option ℤ :=
  if FitsI64 value then some value else none

/-- `split_once`, at the first byte of a kind. -/
def splitOnce (isMark : UInt8 → Bool) (text : Text) : Option (Text × Text) :=
  match text.dropWhile fun byte ↦ !isMark byte with
  | [] => none
  | _ :: after => some (text.takeWhile fun byte ↦ !isMark byte, after)

/-- `str::parse::<i64>`. -/
def parseI64 : Text → Option ℤ
  | 43 :: digits => (naturalValue digits).bind fun value ↦ toI64 value
  | 45 :: digits => (naturalValue digits).bind fun value ↦ toI64 (-value)
  | digits => (naturalValue digits).bind fun value ↦ toI64 value

/-- `normalized_decimal`: the sign, the digits and the scale. -/
def normalizedDecimal (value : Text) : Option (Bool × Text × ℤ) := do
  let (mantissa, exponent) := (splitOnce isExponentMark value).getD (value, [48])
  let exponent ← parseI64 exponent
  let fraction : ℕ := ((splitOnce (fun byte ↦ decide (byte = 46)) mantissa).map
    fun parts ↦ parts.2.length).getD 0
  let digits := ((mantissa.dropWhile (· = 45)).filter (· ≠ 46)).dropWhile (· = 48)
  if digits = [] then some (false, [48], 0)
  else
    let significant := trimTrailingZeros digits
    let fraction ← toI64 fraction
    let difference ← toI64 (exponent - fraction)
    let zeros ← toI64 (digits.length - significant.length : ℕ)
    let scale ← toI64 (difference + zeros)
    some (decide (mantissa.head? = some 45), significant, scale)

def formValue (form : Bool × Text × ℤ) : ℚ :=
  NumberLiteral.signOf form.1 * decimalValue form.2.1 * 10 ^ form.2.2

/-! ### The parts of a literal -/

theorem splitOnce_append {isMark : UInt8 → Bool} {front back : Text} {mark : UInt8}
    (hfront : ∀ byte ∈ front, isMark byte = false) (hmark : isMark mark = true) :
    splitOnce isMark (front ++ mark :: back) = some (front, back) := by
  have hplain : ∀ byte ∈ front, (!isMark byte) = true := fun byte hbyte ↦ by
    rw [hfront byte hbyte]
    rfl
  rw [splitOnce, List.dropWhile_append_of_pos hplain, List.takeWhile_append_of_pos hplain]
  simp [hmark]

theorem splitOnce_eq_none {isMark : UInt8 → Bool} {text : Text}
    (hplain : ∀ byte ∈ text, isMark byte = false) : splitOnce isMark text = none := by
  have hall : (text.dropWhile fun byte ↦ !isMark byte) = [] := by
    refine List.dropWhile_eq_nil_iff.mpr fun byte hbyte ↦ ?_
    rw [hplain byte hbyte]
    rfl
  rw [splitOnce, hall]

theorem naturalValue_digits {digits : Text} (hdigits : Digits digits) :
    naturalValue digits = some (decimalValue digits) :=
  if_pos ⟨hdigits.1, List.all_eq_true.mpr hdigits.2⟩

section Literal

variable (literal : NumberLiteral)

def signText : Text :=
  if literal.negative then [45] else []

/-- A mantissa is a sign, digits, and perhaps a point with further digits. -/
theorem mantissa_cases :
    (literal.mantissa = signText literal ++ literal.whole ∧ literal.fractionDigits = []) ∨
      literal.mantissa = signText literal ++ literal.whole ++ 46 :: literal.fractionDigits := by
  unfold NumberLiteral.mantissa NumberLiteral.fractionDigits
  rcases literal.fraction with _ | digits
  · exact Or.inl ⟨List.append_nil _, rfl⟩
  · exact Or.inr rfl

theorem signText_byte {byte : UInt8} (hbyte : byte ∈ signText literal) : byte = 45 := by
  unfold signText at hbyte
  split_ifs at hbyte
  · exact List.mem_singleton.mp hbyte
  · cases hbyte

/-- Before the point stand a sign and digits. -/
theorem front_byte {byte : UInt8} (hbyte : byte ∈ signText literal ++ literal.whole) :
    byte = 45 ∨ isDigit byte = true := by
  rcases List.mem_append.mp hbyte with hsign | hwhole
  · exact Or.inl (signText_byte literal hsign)
  · exact Or.inr (literal.isDigit_whole byte hwhole)

/-- A literal is split at the mark of its exponent. -/
theorem splitOnce_text :
    (splitOnce isExponentMark literal.text).getD (literal.text, [48]) =
      (literal.mantissa, literal.exponent.elim [48] fun exponent ↦ exponent.text.tail) := by
  have hplain : ∀ byte ∈ literal.mantissa, isExponentMark byte = false :=
    fun byte hbyte ↦ literal.mantissa_not_mark hbyte
  unfold NumberLiteral.text
  rcases literal.exponent with _ | exponent
  · rw [Option.elim_none, Option.elim_none, List.append_nil, splitOnce_eq_none hplain]
    rfl
  · rw [Option.elim_some, Option.elim_some, Exponent.text,
      splitOnce_append hplain exponent.isMark]
    rfl

/-- Digits without a sign are read as they are. -/
theorem parseI64_digits {digits : Text} (hdigits : Digits digits) :
    parseI64 digits = toI64 (decimalValue digits) := by
  have hvalue := naturalValue_digits hdigits
  unfold parseI64
  split
  · rename_i rest
    exact absurd rfl (digit_ne (hdigits.2 43 List.mem_cons_self) (by decide))
  · rename_i rest
    exact absurd rfl (digit_ne (hdigits.2 45 List.mem_cons_self) (by decide))
  · rw [hvalue, Option.bind_some]

/-- The exponent is read. -/
theorem parseI64_exponent :
    parseI64 (literal.exponent.elim [48] fun exponent ↦ exponent.text.tail) =
      toI64 literal.exponentValue := by
  unfold NumberLiteral.exponentValue
  rcases literal.exponent with _ | exponent
  · exact parseI64_digits ⟨List.cons_ne_nil _ _, by simp [isDigit]⟩
  · rw [Option.elim_some, Option.elim_some, Exponent.text, List.tail_cons, Exponent.value]
    have hvalue := naturalValue_digits exponent.isDigits
    split_ifs with hsigned hnegative hnegative
    · show (naturalValue exponent.digits).bind _ = _
      rw [hvalue, Option.bind_some]
    · show (naturalValue exponent.digits).bind _ = _
      rw [hvalue, Option.bind_some]
    · exact absurd (exponent.sign hnegative) hsigned
    · exact parseI64_digits exponent.isDigits

/-- The digits after the point are counted. -/
theorem fraction_length :
    ((splitOnce (fun byte ↦ decide (byte = 46)) literal.mantissa).map
      fun parts ↦ parts.2.length).getD 0 = literal.fractionDigits.length := by
  have hfront : ∀ byte ∈ signText literal ++ literal.whole, decide (byte = 46) = false := by
    intro byte hbyte
    rcases front_byte literal hbyte with rfl | hdigit
    · rfl
    · exact decide_eq_false (digit_ne hdigit (by decide))
  rcases mantissa_cases literal with ⟨hmantissa, hfraction⟩ | hmantissa
  · rw [hmantissa, hfraction, splitOnce_eq_none hfront]
    rfl
  · rw [hmantissa, splitOnce_append hfront rfl]
    rfl

/-- The whole part begins with a digit, which is no sign. -/
theorem exists_whole : ∃ first digits, literal.whole = first :: digits ∧ first ≠ 45 := by
  obtain ⟨first, digits, hwhole⟩ := List.exists_cons_of_ne_nil literal.isNatural.digits.1
  have hfirst : isDigit first = true := literal.isDigit_whole first (by simp [hwhole])
  exact ⟨first, digits, hwhole, digit_ne hfirst (by decide)⟩

/-- The sign is dropped off the front. -/
theorem dropWhile_sign (rest : Text) :
    (signText literal ++ literal.whole ++ rest).dropWhile (· = 45) = literal.whole ++ rest := by
  have hsign : ∀ byte ∈ signText literal, decide (byte = 45) = true :=
    fun byte hbyte ↦ decide_eq_true (signText_byte literal hbyte)
  rw [List.append_assoc, List.dropWhile_append_of_pos hsign]
  obtain ⟨first, digits, hwhole, hne⟩ := exists_whole literal
  rw [hwhole]
  exact List.dropWhile_cons_of_neg (by simpa using hne)

/-- Without sign and point the digits remain. -/
theorem mantissa_digits :
    (literal.mantissa.dropWhile (· = 45)).filter (· ≠ 46) = literal.digits := by
  have hkept : ∀ digits : Text, (∀ byte ∈ digits, isDigit byte = true) →
      digits.filter (· ≠ 46) = digits := by
    intro digits hdigits
    refine List.filter_eq_self.mpr fun byte hbyte ↦ decide_eq_true ?_
    exact digit_ne (hdigits byte hbyte) (by decide)
  have hwhole := hkept literal.whole literal.isDigit_whole
  unfold NumberLiteral.digits
  rcases mantissa_cases literal with ⟨hmantissa, hfraction⟩ | hmantissa
  · rw [hmantissa, hfraction, List.append_nil]
    have hdropped := dropWhile_sign literal []
    rw [List.append_nil, List.append_nil] at hdropped
    rw [hdropped, hwhole]
  · rw [hmantissa, dropWhile_sign, List.filter_append, hwhole,
      List.filter_cons_of_neg (by decide),
      hkept _ literal.isDigit_fraction]

/-- The digits of a literal from the first one that is not zero. -/
def leadingDigits : Text :=
  literal.digits.dropWhile (· = 48)

/-- The power of ten that the digits without zeros at either end are multiplied by. -/
def scale : ℤ :=
  literal.exponentValue - literal.fractionDigits.length +
    ((leadingDigits literal).length - (trimTrailingZeros (leadingDigits literal)).length : ℕ)

/-- What `normalized_decimal` makes of a literal. -/
theorem normalizedDecimal_text :
    normalizedDecimal literal.text =
      (toI64 literal.exponentValue).bind fun exponent ↦
        if leadingDigits literal = [] then some (false, [48], 0)
        else
          (toI64 literal.fractionDigits.length).bind fun fraction ↦
          (toI64 (exponent - fraction)).bind fun difference ↦
          (toI64 ((leadingDigits literal).length -
            (trimTrailingZeros (leadingDigits literal)).length : ℕ)).bind fun zeros ↦
          (toI64 (difference + zeros)).bind fun scale ↦
            some (literal.negative, trimTrailingZeros (leadingDigits literal), scale) := by
  unfold normalizedDecimal
  rw [splitOnce_text]
  dsimp only
  rw [parseI64_exponent, fraction_length, mantissa_digits, literal.head_mantissa]
  rfl

theorem toI64_eq_some {value result : ℤ} (hfits : toI64 value = some result) : result = value := by
  unfold toI64 at hfits
  split_ifs at hfits
  exact (Option.some.inj hfits).symm

/-- The form of a literal, where there is one. -/
theorem form_cases {form : Bool × Text × ℤ} (hform : normalizedDecimal literal.text = some form) :
    (leadingDigits literal = [] ∧ form = (false, [48], 0)) ∨
      leadingDigits literal ≠ [] ∧
        form = (literal.negative, trimTrailingZeros (leadingDigits literal), scale literal) := by
  rw [normalizedDecimal_text] at hform
  obtain ⟨exponent, hexponent, hform⟩ := Option.bind_eq_some_iff.mp hform
  split_ifs at hform with hempty
  · exact Or.inl ⟨hempty, (Option.some.inj hform).symm⟩
  · refine Or.inr ⟨hempty, ?_⟩
    obtain ⟨fraction, hfraction, hform⟩ := Option.bind_eq_some_iff.mp hform
    obtain ⟨difference, hdifference, hform⟩ := Option.bind_eq_some_iff.mp hform
    obtain ⟨zeros, hzeros, hform⟩ := Option.bind_eq_some_iff.mp hform
    obtain ⟨result, hresult, hform⟩ := Option.bind_eq_some_iff.mp hform
    have hscale : result = scale literal := by
      rw [toI64_eq_some hresult, toI64_eq_some hdifference, toI64_eq_some hzeros,
        toI64_eq_some hexponent, toI64_eq_some hfraction]
      rfl
    rw [← Option.some.inj hform, hscale]

/-- The form has the value of the literal. -/
theorem formValue_eq {form : Bool × Text × ℤ} (hform : normalizedDecimal literal.text = some form) :
    formValue form = literal.value := by
  have hdigits : decimalValue literal.digits = decimalValue (leadingDigits literal) :=
    (decimalValue_dropWhile literal.digits).symm
  unfold NumberLiteral.value
  rw [hdigits]
  rcases form_cases literal hform with ⟨hempty, rfl⟩ | ⟨-, rfl⟩
  · rw [hempty]
    simp [formValue, decimalValue]
  · have hten : (10 : ℚ) ≠ 0 := by norm_num
    rw [formValue, decimalValue_trimTrailingZeros (leadingDigits literal), scale,
      zpow_add₀ hten, zpow_natCast]
    push_cast
    ring

theorem digits_length_le : literal.digits.length ≤ literal.text.length := by
  have hmantissa : literal.digits.length ≤ literal.mantissa.length := by
    rw [NumberLiteral.digits, List.length_append]
    rcases mantissa_cases literal with ⟨hmantissa, hfraction⟩ | hmantissa
    · simp [hmantissa, hfraction]
    · rw [hmantissa, List.length_append, List.length_append, List.length_cons]
      omega
  rw [NumberLiteral.text, List.length_append]
  omega

theorem toI64_of_fits {value : ℤ} (hfits : FitsI64 value) : toI64 value = some value :=
  if_pos hfits

/-- A length of a text that fits `isize` fits `i64`. -/
theorem fitsI64_length {length : ℕ} (hlength : length < 2 ^ 63) : FitsI64 length := by
  constructor <;> omega

/-- Assumes: a text as long as a string can be. There is a form unless the arithmetic overflows. -/
theorem overflow_of_none (hlength : literal.text.length < 2 ^ 63)
    (hnone : normalizedDecimal literal.text = none) :
    ¬ FitsI64 literal.exponentValue ∨
      ¬ FitsI64 (literal.exponentValue - literal.fractionDigits.length) ∨
      ¬ FitsI64 (scale literal) := by
  by_contra hfits
  rw [not_or, not_or, not_not, not_not, not_not] at hfits
  have hdigits := digits_length_le literal
  have hfraction : FitsI64 literal.fractionDigits.length := by
    refine fitsI64_length ?_
    rw [NumberLiteral.digits, List.length_append] at hdigits
    omega
  have hzeros : FitsI64 ((leadingDigits literal).length -
      (trimTrailingZeros (leadingDigits literal)).length : ℕ) := by
    refine fitsI64_length ?_
    have hleading : (leadingDigits literal).length ≤ literal.digits.length :=
      (List.dropWhile_sublist _).length_le
    omega
  rw [normalizedDecimal_text, toI64_of_fits hfits.1, Option.bind_some] at hnone
  split_ifs at hnone with hempty
  rw [toI64_of_fits hfraction, Option.bind_some, toI64_of_fits hfits.2.1, Option.bind_some,
    toI64_of_fits hzeros, Option.bind_some] at hnone
  change (toI64 (scale literal)).bind _ = none at hnone
  rw [toI64_of_fits hfits.2.2] at hnone
  cases hnone

end Literal

/-! ### One form for each number -/

/-- The forms of numbers: that of zero, and those whose digits begin and end with another digit. -/
def Canonical (form : Bool × Text × ℤ) : Prop :=
  form = (false, [48], 0) ∨
    ((∀ byte ∈ form.2.1, isDigit byte = true) ∧ form.2.1 ≠ [] ∧
      form.2.1.head? ≠ some 48 ∧ form.2.1.getLast? ≠ some 48)

/-- Assumes: digits that do not begin with a zero. Without the zeros at their end they are still
there, and have zeros at neither end. -/
theorem trimTrailingZeros_canonical {digits : Text} (hne : digits ≠ [])
    (hfirst : digits.head? ≠ some 48) :
    trimTrailingZeros digits ≠ [] ∧ (trimTrailingZeros digits).head? ≠ some 48 ∧
      (trimTrailingZeros digits).getLast? ≠ some 48 := by
  have hkept : trimTrailingZeros digits ≠ [] := by
    intro hempty
    have hzeros := List.dropWhile_eq_nil_iff.mp (List.reverse_eq_nil_iff.mp hempty)
    obtain ⟨first, rest, rfl⟩ := List.exists_cons_of_ne_nil hne
    have hzero := hzeros first (by simp)
    exact hfirst (congrArg some (of_decide_eq_true hzero))
  obtain ⟨zeros, hdigits, -⟩ := trimTrailingZeros_append digits
  refine ⟨hkept, ?_, ?_⟩
  · rw [hdigits, List.head?_append_of_ne_nil _ hkept] at hfirst
    exact hfirst
  · rw [trimTrailingZeros, List.getLast?_reverse]
    exact head?_dropWhile_zeros digits.reverse

/-- The digits of a form have zeros at neither end, unless it is that of zero. -/
theorem canonical_of_form (literal : NumberLiteral) {form : Bool × Text × ℤ}
    (hform : normalizedDecimal literal.text = some form) : Canonical form := by
  rcases form_cases literal hform with ⟨-, rfl⟩ | ⟨hne, rfl⟩
  · exact Or.inl rfl
  · refine Or.inr ⟨fun byte hbyte ↦ ?_,
      trimTrailingZeros_canonical hne (head?_dropWhile_zeros literal.digits)⟩
    obtain ⟨zeros, hdigits, -⟩ := trimTrailingZeros_append (leadingDigits literal)
    have hmem : byte ∈ leadingDigits literal := by
      rw [hdigits]
      exact List.mem_append_left _ hbyte
    exact literal.isDigit_of_mem byte ((List.dropWhile_sublist _).subset hmem)

/-- The value of a form is zero, or a power of ten times a number that is no multiple of ten. -/
theorem Canonical.value {form : Bool × Text × ℤ} (hcanonical : Canonical form) :
    (form = (false, [48], 0) ∧ formValue form = 0) ∨
      ¬ 10 ∣ decimalValue form.2.1 ∧ 0 < (decimalValue form.2.1 : ℚ) * 10 ^ form.2.2 := by
  rcases hcanonical with rfl | ⟨hdigits, hne, -, hlast⟩
  · exact Or.inl ⟨rfl, by simp [formValue, decimalValue]⟩
  · have hnot := not_dvd_decimalValue hdigits hne hlast
    have hpos : 0 < decimalValue form.2.1 := Nat.pos_of_ne_zero fun hzero ↦ hnot (by simp [hzero])
    exact Or.inr ⟨hnot, mul_pos (Nat.cast_pos.mpr hpos) (zpow_pos (by norm_num) _)⟩

/-- Signs of positive numbers can be told from the products. -/
theorem sign_inj {left right : Bool} {first second : ℚ} (hfirst : 0 < first) (hsecond : 0 < second)
    (hvalue : NumberLiteral.signOf left * first = NumberLiteral.signOf right * second) :
    left = right ∧ first = second := by
  rcases left <;> rcases right <;> simp only [NumberLiteral.signOf, if_true, if_false,
    Bool.false_eq_true, one_mul, neg_mul] at hvalue
  · exact ⟨rfl, hvalue⟩
  · linarith
  · linarith
  · exact ⟨rfl, neg_injective hvalue⟩

/-- A number has one form. -/
theorem form_inj {left right : Bool × Text × ℤ} (hleft : Canonical left) (hright : Canonical right)
    (hvalue : formValue left = formValue right) : left = right := by
  have hne : ∀ form : Bool × Text × ℤ, 0 < (decimalValue form.2.1 : ℚ) * 10 ^ form.2.2 →
      formValue form ≠ 0 := by
    intro form hpos
    rw [formValue, mul_assoc]
    refine mul_ne_zero ?_ hpos.ne'
    rcases form.1 <;> norm_num [NumberLiteral.signOf]
  rcases hleft.value with ⟨hleftZero, hleftValue⟩ | ⟨hleftDvd, hleftPos⟩ <;>
    rcases hright.value with ⟨hrightZero, hrightValue⟩ | ⟨hrightDvd, hrightPos⟩
  · rw [hleftZero, hrightZero]
  · exact absurd (hvalue.symm.trans hleftValue) (hne right hrightPos)
  · exact absurd (hvalue.trans hrightValue) (hne left hleftPos)
  · rw [formValue, formValue, mul_assoc, mul_assoc] at hvalue
    obtain ⟨hsign, hscaled⟩ := sign_inj hleftPos hrightPos hvalue
    obtain ⟨hdigits, hscale⟩ := eq_of_scaled_eq hleftDvd hrightDvd hscaled
    rcases hleft with rfl | ⟨hleftDigits, -, hleftFirst, -⟩
    · exact absurd (by simp [decimalValue]) hleftDvd
    · rcases hright with rfl | ⟨hrightDigits, -, hrightFirst, -⟩
      · exact absurd (by simp [decimalValue]) hrightDvd
      · have htext := decimalValue_inj hleftDigits hrightDigits hleftFirst hrightFirst hdigits
        exact Prod.ext hsign (Prod.ext htext hscale)

/-- The texts of literals are the numbers of JSON (`number_iff_literal`). Two numbers that have
forms have one form exactly if they are equal, the form of a number has its value, and a number as
long as a string can be has no form only if its exponent, the exponent less the digits after the
point, or the resulting scale does not fit a signed 64-bit integer. -/
theorem normalizedDecimal_canonical :
    (∀ left right : NumberLiteral, ∀ leftForm rightForm,
      normalizedDecimal left.text = some leftForm →
      normalizedDecimal right.text = some rightForm →
      (leftForm = rightForm ↔ left.value = right.value)) ∧
    (∀ literal : NumberLiteral, ∀ form, normalizedDecimal literal.text = some form →
      formValue form = literal.value) ∧
    ∀ literal : NumberLiteral, literal.text.length < 2 ^ 63 →
      normalizedDecimal literal.text = none →
      ¬ FitsI64 literal.exponentValue ∨
        ¬ FitsI64 (literal.exponentValue - literal.fractionDigits.length) ∨
        ¬ FitsI64 (scale literal) := by
  refine ⟨fun left right leftForm rightForm hleft hright ↦ ?_, fun literal form ↦
    formValue_eq literal, fun literal ↦ overflow_of_none literal⟩
  rw [← formValue_eq left hleft, ← formValue_eq right hright]
  constructor
  · rintro rfl
    rfl
  · exact form_inj (canonical_of_form left hleft) (canonical_of_form right hright)

/-- The literal `1.50e3`. -/
def scaledLiteral : NumberLiteral where
  negative := false
  whole := [49]
  fraction := some [53, 48]
  exponent := some ⟨101, false, false, [51], rfl, by simp, by simp, by simp [isDigit]⟩
  isNatural := Natural.many rfl (by decide) (by simp)
  isFraction := by simp [Digits, isDigit]

/-- The literal `1500`. -/
def plainLiteral : NumberLiteral where
  negative := false
  whole := [49, 53, 48, 48]
  fraction := none
  exponent := none
  isNatural := Natural.many rfl (by decide) (by simp [isDigit])
  isFraction := by simp

/-- The literal `1e9999999999999999999`. -/
def hugeLiteral : NumberLiteral where
  negative := false
  whole := [49]
  fraction := none
  exponent := some ⟨101, false, false, List.replicate 19 57, rfl, by simp, by simp,
    by simp [isDigit]⟩
  isNatural := Natural.many rfl (by decide) (by simp)
  isFraction := by simp

/-- Both spellings of 1500 have the form `15 · 10²`, and the literal whose exponent is above `2⁶³`
has none. -/
theorem normalizedDecimal_canonical_spellings :
    normalizedDecimal scaledLiteral.text = some (false, [49, 53], 2) ∧
    scaledLiteral.value = plainLiteral.value ∧
    formValue (false, [49, 53], 2) = plainLiteral.value ∧
    normalizedDecimal hugeLiteral.text = none ∧
    (¬ FitsI64 hugeLiteral.exponentValue ∨
      ¬ FitsI64 (hugeLiteral.exponentValue - hugeLiteral.fractionDigits.length) ∨
      ¬ FitsI64 (scale hugeLiteral)) := by
  have hnone : normalizedDecimal hugeLiteral.text = none := by decide
  exact ⟨by decide,
    (normalizedDecimal_canonical.1 scaledLiteral plainLiteral (false, [49, 53], 2) _
      (by decide) (by decide)).mp rfl,
    normalizedDecimal_canonical.2.1 plainLiteral _ (by decide), hnone,
    normalizedDecimal_canonical.2.2 hugeLiteral (by decide) hnone⟩

end Relayna.Pricing

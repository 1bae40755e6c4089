import Relayna.Library.Json.Decimal

/-!
# The parts of a literal in its text

Sign, digits, fraction and exponent of a number literal are found in its text by its marks: the
exponent begins at the first exponent mark, the fraction at the point. So a text has one value only
(`value_eq_of_text_eq`).

`scaled` is the literal of a natural number and a power of ten.
-/

set_option autoImplicit false
set_option relaxedAutoImplicit false

namespace Relayna.Library.Json

/-- A digit is none of the other bytes of a number. -/
theorem digit_ne {byte other : UInt8} (hdigit : isDigit byte = true)
    (hother : isDigit other = false) : byte ≠ other := by
  rintro rfl
  rw [hdigit] at hother
  cases hother

theorem digit_not_mark {byte : UInt8} (hdigit : isDigit byte = true) :
    isExponentMark byte = false := by
  have hlower : byte ≠ 101 := digit_ne hdigit (by decide)
  have hupper : byte ≠ 69 := digit_ne hdigit (by decide)
  simp [isExponentMark, hlower, hupper]

/-- Digits among other bytes are kept. -/
theorem filter_isDigit {digits : List UInt8} (hdigits : ∀ byte ∈ digits, isDigit byte = true) :
    digits.filter isDigit = digits :=
  List.filter_eq_self.mpr hdigits

namespace NumberLiteral

variable (literal : NumberLiteral)

theorem isDigit_whole : ∀ byte ∈ literal.whole, isDigit byte = true :=
  literal.isNatural.digits.2

theorem isDigit_fraction : ∀ byte ∈ literal.fractionDigits, isDigit byte = true :=
  fun byte hbyte ↦ literal.isDigit_of_mem byte (List.mem_append_right _ hbyte)

/-- A mantissa consists of a sign, digits and a point. -/
theorem mem_mantissa {byte : UInt8} (hbyte : byte ∈ literal.mantissa) :
    byte = minus ∨ byte = dot ∨ isDigit byte = true := by
  unfold mantissa at hbyte
  rw [List.mem_append, List.mem_append] at hbyte
  rcases hbyte with (hsign | hwhole) | hfraction
  · split_ifs at hsign
    · exact .inl (List.mem_singleton.mp hsign)
    · cases hsign
  · exact .inr (.inr (literal.isDigit_whole byte hwhole))
  · rcases hdigits : literal.fraction with _ | digits
    · rw [hdigits] at hfraction
      cases hfraction
    · rw [hdigits, Option.elim_some, List.mem_cons] at hfraction
      exact .inr (hfraction.imp_right ((literal.isFraction digits hdigits).2 byte))

/-- A mantissa contains no mark of an exponent. -/
theorem mantissa_not_mark {byte : UInt8} (hbyte : byte ∈ literal.mantissa) :
    isExponentMark byte = false := by
  rcases literal.mem_mantissa hbyte with rfl | rfl | hdigit
  · rfl
  · rfl
  · exact digit_not_mark hdigit

/-- The text of the exponent, empty if none is written. -/
def exponentText : List UInt8 :=
  literal.exponent.elim [] Exponent.text

/-- The exponent begins at the first exponent mark. -/
theorem span_text :
    (literal.text.takeWhile fun byte ↦ !isExponentMark byte) = literal.mantissa ∧
      (literal.text.dropWhile fun byte ↦ !isExponentMark byte) = literal.exponentText := by
  have hplain : ∀ byte ∈ literal.mantissa, (!isExponentMark byte) = true := fun byte hbyte ↦ by
    rw [literal.mantissa_not_mark hbyte]
    rfl
  unfold text exponentText
  rw [List.takeWhile_append_of_pos hplain, List.dropWhile_append_of_pos hplain]
  rcases literal.exponent with _ | exponent
  · rw [Option.elim_none, List.takeWhile_nil, List.dropWhile_nil, List.append_nil]
    exact ⟨rfl, rfl⟩
  · simp [Exponent.text, exponent.isMark]

/-- Without sign and point the digits remain. -/
theorem filter_mantissa : literal.mantissa.filter isDigit = literal.digits := by
  have hsign : (if literal.negative then [minus] else []).filter isDigit = [] := by
    split_ifs <;> rfl
  have hfraction : (literal.fraction.elim [] fun digits ↦ dot :: digits).filter isDigit =
      literal.fractionDigits := by
    unfold fractionDigits
    rcases hdigits : literal.fraction with _ | digits
    · rfl
    · rw [Option.elim_some, List.filter_cons_of_neg (by decide), Option.getD_some]
      exact filter_isDigit (literal.isFraction digits hdigits).2
  unfold mantissa digits
  rw [List.filter_append, List.filter_append, hsign, hfraction, List.nil_append,
    filter_isDigit literal.isDigit_whole]

/-- The fraction begins at the point. -/
theorem filter_fraction :
    (literal.mantissa.dropWhile fun byte ↦ byte ≠ dot).filter isDigit = literal.fractionDigits := by
  have hfront : ∀ byte ∈ (if literal.negative then [minus] else []) ++ literal.whole,
      decide (byte ≠ dot) = true := by
    intro byte hbyte
    rw [List.mem_append] at hbyte
    rcases hbyte with hsign | hwhole
    · split_ifs at hsign
      · rw [List.mem_singleton.mp hsign]
        decide
      · cases hsign
    · exact decide_eq_true (digit_ne (literal.isDigit_whole byte hwhole) (by decide))
  unfold mantissa fractionDigits
  rw [List.dropWhile_append_of_pos hfront]
  rcases hdigits : literal.fraction with _ | digits
  · rfl
  · rw [Option.elim_some, List.dropWhile_cons_of_neg (by simp),
      List.filter_cons_of_neg (by decide), Option.getD_some]
    exact filter_isDigit (literal.isFraction digits hdigits).2

/-- The sign stands in front. -/
theorem head_mantissa : decide (literal.mantissa.head? = some minus) = literal.negative := by
  obtain ⟨first, digits, hwhole⟩ := List.exists_cons_of_ne_nil literal.isNatural.digits.1
  have hfirst : first ≠ minus :=
    digit_ne (literal.isDigit_whole first (by simp [hwhole])) (by decide)
  unfold mantissa
  cases hnegative : literal.negative with
  | true => rfl
  | false => simp [hwhole, hfirst]

theorem head_text : decide (literal.text.head? = some minus) = literal.negative := by
  have hne : literal.mantissa ≠ [] := by
    unfold mantissa
    simp [literal.isNatural.digits.1]
  unfold text
  rw [List.head?_append_of_ne_nil _ hne]
  exact literal.head_mantissa

end NumberLiteral

namespace Exponent

variable (exponent : Exponent)

theorem minus_mem_text : minus ∈ exponent.text ↔ exponent.negative = true := by
  have hmark : minus ≠ exponent.mark := by
    intro hminus
    exact absurd (hminus ▸ exponent.isMark) (by decide)
  have hdigits : minus ∉ exponent.digits :=
    fun hmem ↦ absurd (exponent.isDigits.2 minus hmem) (by decide)
  have hsign := exponent.sign
  unfold text
  rw [List.mem_cons, List.mem_append]
  cases hnegative : exponent.negative with
  | true => simp [hsign hnegative]
  | false => cases exponent.signed <;> simp [hmark, hdigits, show minus ≠ plus by decide]

theorem filter_text : exponent.text.filter isDigit = exponent.digits := by
  have hmark : ¬isDigit exponent.mark = true := by
    intro hdigit
    have hother := digit_not_mark hdigit
    rw [exponent.isMark] at hother
    cases hother
  have hsign : (if exponent.signed then [if exponent.negative then minus else plus]
      else []).filter isDigit = [] := by
    cases exponent.signed <;> cases exponent.negative <;> rfl
  unfold text
  rw [List.filter_cons_of_neg hmark, List.filter_append, hsign, List.nil_append]
  exact filter_isDigit exponent.isDigits.2

end Exponent

namespace NumberLiteral

variable (literal : NumberLiteral)

/-- The digits of the exponent and its sign. -/
theorem exponentValue_eq :
    literal.exponentValue =
      if minus ∈ literal.exponentText then -(decimalValue (literal.exponentText.filter isDigit) : ℤ)
      else (decimalValue (literal.exponentText.filter isDigit) : ℤ) := by
  unfold exponentValue exponentText
  rcases literal.exponent with _ | exponent
  · rfl
  · rw [Option.elim_some, Option.elim_some, exponent.filter_text, Exponent.value]
    simp only [exponent.minus_mem_text]

/-- A text has one value. -/
theorem value_eq_of_text_eq {left right : NumberLiteral} (htext : left.text = right.text) :
    left.value = right.value := by
  have hmantissa : left.mantissa = right.mantissa := by
    rw [← left.span_text.1, ← right.span_text.1, htext]
  have hexponent : left.exponentText = right.exponentText := by
    rw [← left.span_text.2, ← right.span_text.2, htext]
  unfold value
  rw [← left.head_text, ← left.filter_mantissa, ← left.filter_fraction, left.exponentValue_eq,
    ← right.head_text, ← right.filter_mantissa, ← right.filter_fraction, right.exponentValue_eq,
    htext, hmantissa, hexponent]

end NumberLiteral

/-! ### Literals of scaled numbers -/

/-- The digits of a natural number. -/
theorem ascii_toString (value : ℕ) :
    ascii (toString value) =
      (Nat.toDigits 10 value).map fun character ↦ UInt8.ofNat character.toNat := by
  rw [ascii, Nat.toString_eq_repr, Nat.toList_repr]

/-- The bytes of the digits of a natural number. -/
theorem toNat_of_mem_toDigits {value : ℕ} {character : Char}
    (hcharacter : character ∈ Nat.toDigits 10 value) :
    isDigit (UInt8.ofNat character.toNat) = true ∧
      (UInt8.ofNat character.toNat).toNat = character.toNat := by
  have hall : ∀ code < 58, 48 ≤ code →
      isDigit (UInt8.ofNat code) = true ∧ (UInt8.ofNat code).toNat = code := by
    decide
  have hdigit := Nat.isDigit_of_mem_toDigits (by decide) le_rfl hcharacter
  obtain ⟨hlower, hupper⟩ := Char.isDigit_iff_toNat.mp hdigit
  exact hall character.toNat (Nat.lt_succ_of_le hupper) hlower

theorem digits_toString (value : ℕ) : Digits (ascii (toString value)) := by
  rw [ascii_toString]
  refine ⟨?_, fun byte hbyte ↦ ?_⟩
  · rw [ne_eq, List.map_eq_nil_iff]
    exact Nat.toDigits_ne_nil
  · obtain ⟨character, hcharacter, rfl⟩ := List.mem_map.mp hbyte
    exact (toNat_of_mem_toDigits hcharacter).1

theorem decimalValue_toString (value : ℕ) : decimalValue (ascii (toString value)) = value := by
  rw [ascii_toString, decimalValue, List.foldl_map]
  refine Eq.trans ?_ (@Nat.ofDigitChars_ten_toDigits value)
  rw [Nat.ofDigitChars_eq_foldl]
  refine List.foldl_ext _ _ _ fun total character hcharacter ↦ ?_
  rw [(toNat_of_mem_toDigits hcharacter).2, Nat.mul_comm]
  rfl

/-- The text of an integer: the digits of its magnitude, behind a sign if it is negative. -/
theorem ascii_toString_int (value : ℤ) :
    ascii (toString value) =
      (if value < 0 then [minus] else []) ++ ascii (toString value.natAbs) := by
  rw [Int.toString_eq_repr, Int.repr_eq_if]
  split_ifs with hnonneg hneg hneg
  · omega
  · rw [List.nil_append, Nat.toString_eq_repr]
    congr 2
    omega
  · rw [Nat.toString_eq_repr]
    have hmagnitude : (-value).toNat = value.natAbs := by omega
    rw [hmagnitude, ascii, String.toList_append, List.map_append]
    rfl
  · omega

theorem isExponentMark_lower : isExponentMark 101 = true :=
  rfl

theorem digits_of_none {digits : List UInt8} (hnone : none = some digits) : Digits digits := by
  cases hnone

/-- The literal of a natural number, given by its digits, times a power of ten. -/
def NumberLiteral.scaled (negative : Bool) (whole : List UInt8) (hwhole : Natural whole)
    (exponent : ℤ) : NumberLiteral where
  negative
  whole
  fraction := none
  exponent := some
    { mark := 101
      negative := exponent < 0
      signed := exponent < 0
      digits := ascii (toString exponent.natAbs)
      isMark := isExponentMark_lower
      sign := id
      isDigits := digits_toString exponent.natAbs }
  isNatural := hwhole
  isFraction := @digits_of_none

section Scaled

variable (negative : Bool) {whole : List UInt8} (hwhole : Natural whole) (exponent : ℤ)

theorem NumberLiteral.scaled_text :
    (scaled negative whole hwhole exponent).text =
      (if negative then [minus] else []) ++ (whole ++ 101 :: ascii (toString exponent)) := by
  rw [ascii_toString_int]
  show ((if negative then [minus] else []) ++ whole ++ []) ++ 101 ::
    ((if decide (exponent < 0) then [if decide (exponent < 0) then minus else plus] else []) ++
      ascii (toString exponent.natAbs)) = _
  rw [List.append_nil, List.append_assoc]
  by_cases hnegative : exponent < 0 <;> simp [hnegative]

theorem NumberLiteral.scaled_value :
    (scaled negative whole hwhole exponent).value =
      signOf negative * decimalValue whole * 10 ^ exponent := by
  have hexponent : (scaled negative whole hwhole exponent).exponentValue = exponent := by
    show (if decide (exponent < 0) then -(decimalValue (ascii (toString exponent.natAbs)) : ℤ)
      else (decimalValue (ascii (toString exponent.natAbs)) : ℤ)) = exponent
    rw [decimalValue_toString]
    by_cases hnegative : exponent < 0
    · simp only [hnegative, decide_true, if_true]
      omega
    · simp only [hnegative, decide_false, Bool.false_eq_true, if_false]
      omega
  have hdigits : (scaled negative whole hwhole exponent).digits = whole :=
    List.append_nil whole
  have hfraction : (scaled negative whole hwhole exponent).fractionDigits = [] := rfl
  unfold value
  rw [hexponent, hdigits, hfraction, List.length_nil, Nat.cast_zero, sub_zero]
  rfl

end Scaled

end Relayna.Library.Json

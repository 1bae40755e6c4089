import Mathlib.Data.List.Induction
import Mathlib.Data.List.TakeWhile
import Mathlib.Data.Nat.Digits.Lemmas
import Mathlib.Data.Rat.Cast.CharZero
import Mathlib.Tactic.FieldSimp
import Mathlib.Tactic.Ring
import Relayna.Library.Json.Reader

/-!
# The value of a JSON number

A number literal consists of a sign, digits, an optional fraction and an optional exponent, and
denotes a rational number. `number_iff_literal` says that these are the numbers of the grammar.

A positive number has one representation as a multiple of a power of ten whose digits neither begin
nor end with a zero: `eq_of_scaled_eq`.
-/

set_option autoImplicit false
set_option relaxedAutoImplicit false

namespace Relayna.Library.Json

/-! ### Digits -/

theorem decimalValue_append (front back : List UInt8) :
    decimalValue (front ++ back) = decimalValue front * 10 ^ back.length + decimalValue back := by
  induction back using List.reverseRecOn with
  | nil => simp [decimalValue]
  | append_singleton back byte ih =>
    have hstep : ∀ digits : List UInt8,
        decimalValue (digits ++ [byte]) = decimalValue digits * 10 + (byte.toNat - 48) := by
      intro digits
      rw [decimalValue, List.foldl_append]
      rfl
    rw [← List.append_assoc, hstep, hstep, ih, List.length_append, List.length_singleton, pow_succ]
    ring

/-- Leading zeros do not count. -/
theorem decimalValue_dropWhile (digits : List UInt8) :
    decimalValue (digits.dropWhile (· = zero)) = decimalValue digits := by
  induction digits with
  | nil => rfl
  | cons byte digits ih =>
    rw [List.dropWhile_cons]
    split_ifs with hzero
    · rw [ih, of_decide_eq_true hzero]
      rfl
    · rfl

/-- Without the zeros at their front, digits do not begin with a zero. -/
theorem head?_dropWhile_zeros (digits : List UInt8) :
    (digits.dropWhile (· = zero)).head? ≠ some zero := by
  intro hhead
  have hnot := List.head?_dropWhile_not (fun byte : UInt8 ↦ decide (byte = zero)) digits
  rw [hhead] at hnot
  exact absurd hnot (by decide)

/-- The digits without the zeros at their end. -/
def trimTrailingZeros (digits : List UInt8) : List UInt8 :=
  (digits.reverse.dropWhile (· = zero)).reverse

theorem trimTrailingZeros_append (digits : List UInt8) :
    ∃ zeros : List UInt8, digits = trimTrailingZeros digits ++ zeros ∧ decimalValue zeros = 0 := by
  refine ⟨(digits.reverse.takeWhile (· = zero)).reverse, ?_, ?_⟩
  · rw [trimTrailingZeros, ← List.reverse_append, List.takeWhile_append_dropWhile,
      List.reverse_reverse]
  · have hzeros : ∀ byte ∈ (digits.reverse.takeWhile (· = zero)).reverse, byte = zero := by
      intro byte hbyte
      have htaken := List.mem_takeWhile_imp (List.mem_reverse.mp hbyte)
      exact of_decide_eq_true htaken
    rw [List.eq_replicate_of_mem hzeros]
    induction (digits.reverse.takeWhile (· = zero)).reverse.length with
    | zero => rfl
    | succ count ih =>
      rw [List.replicate_succ', decimalValue_append, ih]
      rfl

/-- Zeros at the end count as a power of ten. -/
theorem decimalValue_trimTrailingZeros (digits : List UInt8) :
    decimalValue digits = decimalValue (trimTrailingZeros digits) *
      10 ^ (digits.length - (trimTrailingZeros digits).length) := by
  obtain ⟨zeros, hdigits, hzeros⟩ := trimTrailingZeros_append digits
  have hlength : digits.length - (trimTrailingZeros digits).length = zeros.length := by
    have hsum := congrArg List.length hdigits
    rw [List.length_append] at hsum
    omega
  rw [hlength]
  conv_lhs => rw [hdigits, decimalValue_append, hzeros, Nat.add_zero]

/-- The digits of a text, the last one first. -/
theorem decimalValue_eq_ofDigits (digits : List UInt8) :
    decimalValue digits = Nat.ofDigits 10 (digits.reverse.map fun byte ↦ byte.toNat - 48) := by
  induction digits using List.reverseRecOn with
  | nil => rfl
  | append_singleton digits byte ih =>
    rw [decimalValue_append, ih, List.reverse_append]
    show _ = Nat.ofDigits 10 ((byte.toNat - 48) :: _)
    rw [Nat.ofDigits_cons]
    simp [decimalValue]
    ring

def digitValue (byte : UInt8) : ℕ :=
  byte.toNat - 48

theorem digitValue_lt {byte : UInt8} (hdigit : isDigit byte = true) : digitValue byte < 10 := by
  simp only [isDigit, Bool.and_eq_true, decide_eq_true_eq, UInt8.le_iff_toNat_le] at hdigit
  have hupper : byte.toNat ≤ 57 := hdigit.2
  unfold digitValue
  omega

/-- A digit can be told from its value. -/
theorem ofNat_digitValue {byte : UInt8} (hdigit : isDigit byte = true) :
    UInt8.ofNat (digitValue byte + 48) = byte := by
  simp only [isDigit, Bool.and_eq_true, decide_eq_true_eq, UInt8.le_iff_toNat_le] at hdigit
  have hlower : 48 ≤ byte.toNat := hdigit.1
  rw [digitValue, Nat.sub_add_cancel hlower, UInt8.ofNat_toNat]

theorem eq_zero_of_digitValue {byte : UInt8} (hdigit : isDigit byte = true)
    (hvalue : digitValue byte = 0) : byte = zero := by
  rw [← ofNat_digitValue hdigit, hvalue]
  rfl

/-- Assumes: digits that do not begin with a zero. They are the digits of their value. -/
theorem digits_decimalValue {digits : List UInt8} (hdigits : ∀ byte ∈ digits, isDigit byte = true)
    (hfirst : digits.head? ≠ some zero) :
    Nat.digits 10 (decimalValue digits) = digits.reverse.map digitValue := by
  rw [decimalValue_eq_ofDigits]
  refine Nat.digits_ofDigits 10 (by decide) _ ?_ ?_
  · intro value hvalue
    obtain ⟨byte, hbyte, rfl⟩ := List.mem_map.mp hvalue
    exact digitValue_lt (hdigits byte (List.mem_reverse.mp hbyte))
  · intro hne hlast
    rcases digits with _ | ⟨byte, digits⟩
    · exact hne rfl
    · have hbyte : isDigit byte = true := hdigits byte List.mem_cons_self
      refine hfirst (congrArg some (eq_zero_of_digitValue hbyte ?_))
      simpa [digitValue] using hlast

/-- Assumes: two lists of digits, none of which begins with a zero. They are equal if they have the
same value. -/
theorem decimalValue_inj {left right : List UInt8} (hleft : ∀ byte ∈ left, isDigit byte = true)
    (hright : ∀ byte ∈ right, isDigit byte = true) (hleftFirst : left.head? ≠ some zero)
    (hrightFirst : right.head? ≠ some zero) (hvalue : decimalValue left = decimalValue right) :
    left = right := by
  have hmapped : left.reverse.map digitValue = right.reverse.map digitValue := by
    rw [← digits_decimalValue hleft hleftFirst, ← digits_decimalValue hright hrightFirst, hvalue]
  have hrecover : ∀ digits : List UInt8, (∀ byte ∈ digits, isDigit byte = true) →
      (digits.reverse.map digitValue).map (fun value ↦ UInt8.ofNat (value + 48)) =
        digits.reverse := by
    intro digits hdigits
    rw [List.map_map]
    refine (List.map_congr_left fun byte hbyte ↦ ?_).trans (List.map_id _)
    exact ofNat_digitValue (hdigits byte (List.mem_reverse.mp hbyte))
  rw [← List.reverse_inj, ← hrecover left hleft, ← hrecover right hright, hmapped]

/-- Assumes: digits that do not end with a zero. Their value is no multiple of ten. -/
theorem not_dvd_decimalValue {digits : List UInt8} (hdigits : ∀ byte ∈ digits, isDigit byte = true)
    (hne : digits ≠ []) (hlast : digits.getLast? ≠ some zero) : ¬ 10 ∣ decimalValue digits := by
  rcases List.eq_nil_or_concat digits with rfl | ⟨front, byte, rfl⟩
  · exact absurd rfl hne
  · rw [List.concat_eq_append] at *
    have hbyte : isDigit byte = true := hdigits byte (by simp)
    have hnonzero : digitValue byte ≠ 0 := fun hvalue ↦
      hlast (by rw [List.getLast?_concat, eq_zero_of_digitValue hbyte hvalue])
    have hvalue : decimalValue (front ++ [byte]) = decimalValue front * 10 + digitValue byte := by
      rw [decimalValue_append]
      simp [decimalValue, digitValue]
    have hlt := digitValue_lt hbyte
    omega

theorem decimalValue_lt {digits : List UInt8} (hdigits : ∀ byte ∈ digits, isDigit byte = true) :
    decimalValue digits < 10 ^ digits.length := by
  have hsmall : ∀ value ∈ digits.reverse.map digitValue, value < 10 := by
    intro value hvalue
    obtain ⟨byte, hbyte, rfl⟩ := List.mem_map.mp hvalue
    exact digitValue_lt (hdigits byte (List.mem_reverse.mp hbyte))
  have hlt := Nat.ofDigits_lt_base_pow_length (by decide) hsmall
  rw [List.length_map, List.length_reverse] at hlt
  rw [decimalValue_eq_ofDigits]
  exact hlt

/-- The first digits are a quotient. -/
theorem decimalValue_take {digits : List UInt8} (hdigits : ∀ byte ∈ digits, isDigit byte = true)
    (count : ℕ) :
    decimalValue (digits.take count) = decimalValue digits / 10 ^ (digits.length - count) := by
  have hrest : decimalValue (digits.drop count) < 10 ^ (digits.length - count) := by
    rw [← List.length_drop]
    exact decimalValue_lt fun byte hbyte ↦ hdigits byte (List.mem_of_mem_drop hbyte)
  have hsplit := decimalValue_append (digits.take count) (digits.drop count)
  rw [List.take_append_drop, List.length_drop] at hsplit
  rw [hsplit, Nat.mul_comm, Nat.mul_add_div (Nat.pow_pos (by decide)), Nat.div_eq_of_lt hrest,
    Nat.add_zero]

/-- Assumes: digits that do not begin with a zero. Their value is positive, and its logarithm tells
how many they are. -/
theorem log_decimalValue {digits : List UInt8} (hdigits : ∀ byte ∈ digits, isDigit byte = true)
    (hne : digits ≠ []) (hfirst : digits.head? ≠ some zero) :
    0 < decimalValue digits ∧ Nat.log 10 (decimalValue digits) + 1 = digits.length := by
  have hlength : (Nat.digits 10 (decimalValue digits)).length = digits.length := by
    rw [digits_decimalValue hdigits hfirst, List.length_map, List.length_reverse]
  have hvalue : decimalValue digits ≠ 0 := by
    intro hzero
    rw [hzero, Nat.digits_zero, List.length_nil] at hlength
    exact hne (List.length_eq_zero_iff.mp hlength.symm)
  rw [Nat.length_digits 10 _ (by decide) hvalue] at hlength
  exact ⟨Nat.pos_of_ne_zero hvalue, hlength⟩

/-! ### Multiples of powers of ten -/

/-- Assumes: two numbers that are no multiples of ten. Scaled by powers of ten they are equal only
if they and their scales are. -/
theorem eq_of_scaled_eq {left right : ℕ} {leftScale rightScale : ℤ} (hleft : ¬ 10 ∣ left)
    (hright : ¬ 10 ∣ right)
    (hvalue : (left : ℚ) * 10 ^ leftScale = (right : ℚ) * 10 ^ rightScale) :
    left = right ∧ leftScale = rightScale := by
  wlog hle : leftScale ≤ rightScale generalizing left right leftScale rightScale with hswap
  · have hswapped := hswap hright hleft hvalue.symm (le_of_not_ge hle)
    exact ⟨hswapped.1.symm, hswapped.2.symm⟩
  · obtain ⟨gap, rfl⟩ := Int.le.dest hle
    have hscaled : left = right * 10 ^ gap := by
      rw [zpow_add₀ (by norm_num), zpow_natCast, mul_comm (10 ^ leftScale : ℚ),
        ← mul_assoc] at hvalue
      exact_mod_cast mul_right_cancel₀ (zpow_ne_zero leftScale (by norm_num)) hvalue
    rcases gap with _ | gap
    · simpa using hscaled
    · exact absurd ⟨right * 10 ^ gap, by rw [hscaled, pow_succ]; ring⟩ hleft

/-! ### Literals -/

structure Exponent where
  mark : UInt8
  negative : Bool
  signed : Bool
  digits : List UInt8
  isMark : isExponentMark mark = true
  sign : negative = true → signed = true
  isDigits : Digits digits

def Exponent.text (exponent : Exponent) : List UInt8 :=
  exponent.mark ::
    ((if exponent.signed then [if exponent.negative then minus else plus] else []) ++
      exponent.digits)

def Exponent.value (exponent : Exponent) : ℤ :=
  if exponent.negative then -(decimalValue exponent.digits : ℤ)
  else (decimalValue exponent.digits : ℤ)

structure NumberLiteral where
  negative : Bool
  whole : List UInt8
  fraction : Option (List UInt8)
  exponent : Option Exponent
  isNatural : Natural whole
  isFraction : ∀ digits, fraction = some digits → Digits digits

namespace NumberLiteral

variable (literal : NumberLiteral)

/-- The text before the exponent. -/
def mantissa : List UInt8 :=
  (if literal.negative then [minus] else []) ++ literal.whole ++
    literal.fraction.elim [] fun digits ↦ dot :: digits

def text : List UInt8 :=
  literal.mantissa ++ literal.exponent.elim [] Exponent.text

/-- The digits after the point. -/
def fractionDigits : List UInt8 :=
  literal.fraction.getD []

/-- The digits before and after the point. -/
def digits : List UInt8 :=
  literal.whole ++ literal.fractionDigits

/-- The exponent, which is zero if none is written. -/
def exponentValue : ℤ :=
  literal.exponent.elim 0 Exponent.value

def signOf (negative : Bool) : ℚ :=
  if negative then -1 else 1

/-- The number that a literal denotes. -/
def value : ℚ :=
  signOf literal.negative * decimalValue literal.digits *
    10 ^ (literal.exponentValue - literal.fractionDigits.length)

end NumberLiteral

theorem Natural.digits {word : List UInt8} (hword : Natural word) : Digits word := by
  rcases hword with _ | ⟨hfirst, -, hrest⟩
  · refine ⟨List.cons_ne_nil _ _, fun byte hbyte ↦ ?_⟩
    rw [List.mem_singleton.mp hbyte]
    rfl
  · refine ⟨List.cons_ne_nil _ _, fun byte hbyte ↦ ?_⟩
    rcases List.mem_cons.mp hbyte with rfl | hmem
    · exact hfirst
    · exact hrest byte hmem

theorem NumberLiteral.isDigit_of_mem (literal : NumberLiteral) :
    ∀ byte ∈ literal.digits, isDigit byte = true := by
  intro byte hbyte
  rcases List.mem_append.mp hbyte with hwhole | hfraction
  · exact literal.isNatural.digits.2 byte hwhole
  · unfold NumberLiteral.fractionDigits at hfraction
    rcases hdigits : literal.fraction with _ | digits
    · rw [hdigits] at hfraction
      exact absurd hfraction List.not_mem_nil
    · rw [hdigits] at hfraction
      exact (literal.isFraction digits hdigits).2 byte hfraction

/-- The mantissas of the grammar are those of literals. -/
theorem Mantissa.literal {word : List UInt8} (hword : Mantissa word) (exponent : Option Exponent) :
    ∃ literal : NumberLiteral, literal.mantissa = word ∧ literal.exponent = exponent := by
  have hsigned : ∀ {signed : List UInt8} {fraction : Option (List UInt8)},
      (∀ digits, fraction = some digits → Digits digits) → Signed signed →
      ∃ literal : NumberLiteral,
        literal.mantissa = signed ++ fraction.elim [] (fun digits ↦ dot :: digits) ∧
        literal.exponent = exponent := by
    intro signed fraction hfraction hsigned
    rcases hsigned with ⟨hnatural⟩ | ⟨hnatural⟩
    · exact ⟨⟨false, _, fraction, exponent, hnatural, hfraction⟩, rfl, rfl⟩
    · exact ⟨⟨true, _, fraction, exponent, hnatural, hfraction⟩, rfl, rfl⟩
  rcases hword with ⟨hword⟩ | ⟨hword, hdigits⟩
  · obtain ⟨literal, hmantissa, hexponent⟩ := @hsigned _ none (by simp) hword
    exact ⟨literal, hmantissa.trans (List.append_nil _), hexponent⟩
  · exact @hsigned _ (some _) (by simpa using hdigits) hword

/-- The mantissas of literals are mantissas of the grammar. -/
theorem NumberLiteral.isMantissa (literal : NumberLiteral) : Mantissa literal.mantissa := by
  have hsigned : Signed ((if literal.negative then [minus] else []) ++ literal.whole) := by
    split_ifs
    · exact Signed.negative literal.isNatural
    · exact Signed.positive literal.isNatural
  unfold NumberLiteral.mantissa
  rcases hfraction : literal.fraction with _ | digits
  · rw [Option.elim_none, List.append_nil]
    exact Mantissa.integer hsigned
  · exact Mantissa.fraction hsigned (literal.isFraction digits hfraction)

/-- The numbers of the grammar are the texts of literals. -/
theorem number_iff_literal (text : List UInt8) :
    Number text ↔ ∃ literal : NumberLiteral, literal.text = text := by
  constructor
  · rintro (⟨hword⟩ | ⟨hword, hmark, hdigits⟩ | ⟨hword, hmark, hsign, hdigits⟩)
    · obtain ⟨literal, rfl, hexponent⟩ := hword.literal none
      exact ⟨literal, by rw [NumberLiteral.text, hexponent, Option.elim_none, List.append_nil]⟩
    · obtain ⟨literal, rfl, hexponent⟩ := hword.literal
        (some ⟨_, false, false, _, hmark, by simp, hdigits⟩)
      exact ⟨literal, by rw [NumberLiteral.text, hexponent]; rfl⟩
    · rcases hsign with rfl | rfl
      · obtain ⟨literal, rfl, hexponent⟩ := hword.literal
          (some ⟨_, false, true, _, hmark, by simp, hdigits⟩)
        exact ⟨literal, by rw [NumberLiteral.text, hexponent]; rfl⟩
      · obtain ⟨literal, rfl, hexponent⟩ := hword.literal
          (some ⟨_, true, true, _, hmark, by simp, hdigits⟩)
        exact ⟨literal, by rw [NumberLiteral.text, hexponent]; rfl⟩
  · rintro ⟨literal, rfl⟩
    unfold NumberLiteral.text
    rcases literal.exponent with _ | exponent
    · rw [Option.elim_none, List.append_nil]
      exact Number.mantissa literal.isMantissa
    · rw [Option.elim_some, Exponent.text]
      split_ifs
      · exact Number.signedExponent literal.isMantissa exponent.isMark (Or.inr rfl)
          exponent.isDigits
      · exact Number.signedExponent literal.isMantissa exponent.isMark (Or.inl rfl)
          exponent.isDigits
      · exact Number.exponent literal.isMantissa exponent.isMark exponent.isDigits

end Relayna.Library.Json

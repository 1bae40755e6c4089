import Mathlib.Data.List.TakeWhile
import Relayna.ResponseCost.Observer

/-!
# Scalars

The scalar automaton of the observer accepts exactly the words `true`, `false` and `null` and the
numbers of JSON: `valid_iff` for every text that begins as a scalar does. The counters that it keeps
in place of a long literal are functions of the literal, and `cost_number` says what the cost of a
literal is: its conversion when it has at most 128 bytes, otherwise that of `abridge`.
-/

set_option autoImplicit false
set_option relaxedAutoImplicit false

namespace Relayna.ResponseCost

open Relayna.Library.Json

namespace Scalar

/-- The scalar after a text; its first byte decides between a word and a number. -/
def after (text : List UInt8) : Scalar :=
  text.foldl feed (blank (text.headD 0))

theorem after_snoc {text : List UInt8} (htext : text ≠ []) (byte : UInt8) :
    after (text ++ [byte]) = (after text).feed byte := by
  match text, htext with
  | first :: rest, _ =>
    unfold after
    rw [List.cons_append, List.headD_cons, List.headD_cons, ← List.cons_append, List.foldl_append]
    rfl

/-! ### Words -/

theorem feed_word {scalar : Scalar} (hliteral : scalar.literal ≠ []) (byte : UInt8) :
    (scalar.feed byte).literal = scalar.literal ∧
      (scalar.feed byte).offset = scalar.offset + 1 ∧
      (scalar.feed byte).state =
        if scalar.literal[scalar.offset]? = some byte then scalar.state else .invalid := by
  unfold feed
  rw [if_pos hliteral]
  exact ⟨rfl, rfl, rfl⟩

/-- The text of a word is a beginning of the word, or the automaton is in its invalid state. -/
theorem foldl_word {byte : UInt8} (hliteral : literalOf byte ≠ []) (text : List UInt8) :
    (text.foldl feed (blank byte)).literal = literalOf byte ∧
      (text.foldl feed (blank byte)).offset = text.length ∧
      ((text.foldl feed (blank byte)).state ≠ .invalid → text <+: literalOf byte) := by
  induction text using List.reverseRecOn with
  | nil => exact ⟨rfl, rfl, fun _ ↦ List.nil_prefix⟩
  | append_singleton text next ih =>
    obtain ⟨hword, hoffset, hinitial⟩ := ih
    rw [List.foldl_append, List.foldl_cons, List.foldl_nil]
    obtain ⟨hword', hoffset', hstate'⟩ := feed_word (hword ▸ hliteral) next
    rw [hword] at hword'
    rw [hoffset] at hoffset'
    refine ⟨hword', by rw [hoffset', List.length_append, List.length_singleton], fun hvalid ↦ ?_⟩
    rw [hstate', hword, hoffset] at hvalid
    split_ifs at hvalid with hnext
    · obtain ⟨rest, hrest⟩ := hinitial hvalid
      rw [← hrest, List.getElem?_append_right le_rfl, Nat.sub_self] at hnext
      obtain ⟨rest, rfl⟩ : ∃ tail, rest = next :: tail := by
        cases rest with
        | nil => cases hnext
        | cons first tail => exact ⟨tail, by simpa using hnext⟩
      exact ⟨rest, by rw [← hrest, List.append_assoc, List.singleton_append]⟩
    · exact absurd rfl hvalid

/-! ### Numbers -/

/-- The part of a number that a state of the automaton has read. -/
def Shape : ScalarState → List UInt8 → Prop
  | .start, text => text = []
  | .sign, text => text = [minus]
  | .leadingZero, text => text = [zero] ∨ text = [minus, zero]
  | .integer, text =>
    ∃ first rest, isDigit first ∧ first ≠ zero ∧ (∀ byte ∈ rest, isDigit byte) ∧
      (text = first :: rest ∨ text = minus :: first :: rest)
  | .point, text => ∃ word, Signed word ∧ text = word ++ [dot]
  | .fraction, text => ∃ word digits, Signed word ∧ Digits digits ∧ text = word ++ dot :: digits
  | .exponent, text => ∃ word mark, Mantissa word ∧ isExponentMark mark ∧ text = word ++ [mark]
  | .exponentSign, text =>
    ∃ word mark sign, Mantissa word ∧ isExponentMark mark ∧ (sign = plus ∨ sign = minus) ∧
      text = word ++ [mark, sign]
  | .exponentDigits, text =>
    ∃ word mark digits, Mantissa word ∧ isExponentMark mark ∧ Digits digits ∧
      (text = word ++ mark :: digits ∨
        ∃ sign, (sign = plus ∨ sign = minus) ∧ text = word ++ mark :: sign :: digits)
  | .invalid, _ => True

theorem digits_singleton {byte : UInt8} (hbyte : isDigit byte) : Digits [byte] :=
  ⟨List.cons_ne_nil _ _, by simpa using hbyte⟩

theorem digits_snoc {digits : List UInt8} {byte : UInt8} (hdigits : ∀ byte ∈ digits, isDigit byte)
    (hbyte : isDigit byte) : ∀ other ∈ digits ++ [byte], isDigit other := by
  rw [List.forall_mem_append]
  exact ⟨hdigits, by simpa using hbyte⟩

theorem Shape.signed_leadingZero {text : List UInt8} (htext : Shape .leadingZero text) :
    Signed text := by
  rcases htext with rfl | rfl
  · exact .positive .zero
  · exact .negative .zero

theorem Shape.signed_integer {text : List UInt8} (htext : Shape .integer text) : Signed text := by
  obtain ⟨first, rest, hfirst, hzero, hrest, rfl | rfl⟩ := htext
  · exact .positive (.many hfirst hzero hrest)
  · exact .negative (.many hfirst hzero hrest)

theorem Shape.mantissa_fraction {text : List UInt8} (htext : Shape .fraction text) :
    Mantissa text := by
  obtain ⟨word, digits, hword, hdigits, rfl⟩ := htext
  exact .fraction hword hdigits

/-- One byte of a number. -/
theorem Shape.next {state : ScalarState} {text : List UInt8} (htext : Shape state text)
    (byte : UInt8) : Shape (state.next byte) (text ++ [byte]) := by
  cases state with
  | start =>
    obtain rfl := htext
    simp only [ScalarState.next]
    split_ifs with hminus hzero hdigit
    · rw [hminus]; rfl
    · exact .inl (by rw [hzero]; rfl)
    · exact ⟨byte, [], hdigit, hzero, by simp, .inl rfl⟩
    · trivial
  | sign =>
    obtain rfl := htext
    simp only [ScalarState.next]
    split_ifs with hzero hdigit
    · exact .inr (by rw [hzero]; rfl)
    · exact ⟨byte, [], hdigit, hzero, by simp, .inr rfl⟩
    · trivial
  | leadingZero =>
    simp only [ScalarState.next]
    split_ifs with hdot hmark
    · exact ⟨text, htext.signed_leadingZero, by rw [hdot]⟩
    · exact ⟨text, byte, .integer htext.signed_leadingZero, hmark, rfl⟩
    · trivial
  | integer =>
    simp only [ScalarState.next]
    split_ifs with hdigit hdot hmark
    · obtain ⟨first, rest, hfirst, hzero, hrest, hshape⟩ := htext
      refine ⟨first, rest ++ [byte], hfirst, hzero, digits_snoc hrest hdigit, ?_⟩
      rcases hshape with rfl | rfl
      · exact .inl rfl
      · exact .inr rfl
    · exact ⟨text, htext.signed_integer, by rw [hdot]⟩
    · exact ⟨text, byte, .integer htext.signed_integer, hmark, rfl⟩
    · trivial
  | point =>
    simp only [ScalarState.next]
    split_ifs with hdigit
    · obtain ⟨word, hword, rfl⟩ := htext
      exact ⟨word, [byte], hword, digits_singleton hdigit, by simp⟩
    · trivial
  | fraction =>
    simp only [ScalarState.next]
    split_ifs with hdigit hmark
    · obtain ⟨word, digits, hword, hdigits, rfl⟩ := htext
      exact ⟨word, digits ++ [byte], hword, ⟨by simp, digits_snoc hdigits.2 hdigit⟩, by simp⟩
    · exact ⟨text, byte, htext.mantissa_fraction, hmark, rfl⟩
    · trivial
  | exponent =>
    obtain ⟨word, mark, hword, hmark, rfl⟩ := htext
    simp only [ScalarState.next]
    split_ifs with hsign hdigit
    · exact ⟨word, mark, byte, hword, hmark, hsign, by simp⟩
    · exact ⟨word, mark, [byte], hword, hmark, digits_singleton hdigit, .inl (by simp)⟩
    · trivial
  | exponentSign =>
    obtain ⟨word, mark, sign, hword, hmark, hsign, rfl⟩ := htext
    simp only [ScalarState.next]
    split_ifs with hdigit
    · exact ⟨word, mark, [byte], hword, hmark, digits_singleton hdigit, .inr ⟨sign, hsign, by simp⟩⟩
    · trivial
  | exponentDigits =>
    obtain ⟨word, mark, digits, hword, hmark, hdigits, hshape⟩ := htext
    simp only [ScalarState.next]
    split_ifs with hdigit
    · refine ⟨word, mark, digits ++ [byte], hword, hmark,
        ⟨by simp, digits_snoc hdigits.2 hdigit⟩, ?_⟩
      rcases hshape with rfl | ⟨sign, hsign, rfl⟩
      · exact .inl (by simp)
      · exact .inr ⟨sign, hsign, by simp⟩
    · trivial
  | invalid => trivial

/-- The states in which a number is complete. -/
def complete : ScalarState → Bool
  | .leadingZero | .integer | .fraction | .exponentDigits => true
  | _ => false

theorem Shape.number {state : ScalarState} {text : List UInt8} (htext : Shape state text)
    (hcomplete : complete state) : Number text := by
  cases state with
  | leadingZero => exact .mantissa (.integer htext.signed_leadingZero)
  | integer => exact .mantissa (.integer htext.signed_integer)
  | fraction => exact .mantissa htext.mantissa_fraction
  | exponentDigits =>
    obtain ⟨word, mark, digits, hword, hmark, hdigits, rfl | ⟨sign, hsign, rfl⟩⟩ := htext
    · exact .exponent hword hmark hdigits
    · exact .signedExponent hword hmark hsign hdigits
  | _ => exact absurd hcomplete (by decide)

theorem shape_foldl (text : List UInt8) : Shape (text.foldl ScalarState.next .start) text := by
  induction text using List.reverseRecOn with
  | nil => rfl
  | append_singleton text byte ih =>
    rw [List.foldl_append]
    exact ih.next byte

/-! ### Every number is read -/

theorem foldl_stays {state : ScalarState} {digits : List UInt8}
    (hnext : ∀ byte, isDigit byte → state.next byte = state)
    (hdigits : ∀ byte ∈ digits, isDigit byte) : digits.foldl ScalarState.next state = state := by
  induction digits with
  | nil => rfl
  | cons first rest ih =>
    rw [List.forall_mem_cons] at hdigits
    rw [List.foldl_cons, hnext first hdigits.1]
    exact ih hdigits.2

theorem foldl_digits {state target : ScalarState} {digits : List UInt8}
    (hfirst : ∀ byte, isDigit byte → state.next byte = target)
    (hnext : ∀ byte, isDigit byte → target.next byte = target) (hdigits : Digits digits) :
    digits.foldl ScalarState.next state = target := by
  match digits, hdigits with
  | first :: rest, ⟨_, hdigits⟩ =>
    rw [List.forall_mem_cons] at hdigits
    rw [List.foldl_cons, hfirst first hdigits.1]
    exact foldl_stays hnext hdigits.2

theorem next_of_isDigit {byte : UInt8} (hbyte : isDigit byte) :
    ScalarState.integer.next byte = .integer ∧ ScalarState.point.next byte = .fraction ∧
      ScalarState.fraction.next byte = .fraction ∧
      ScalarState.exponent.next byte = .exponentDigits ∧
      ScalarState.exponentSign.next byte = .exponentDigits ∧
      ScalarState.exponentDigits.next byte = .exponentDigits := by
  have hplus : byte ≠ plus := by
    rintro rfl
    exact absurd hbyte (by decide)
  have hminus : byte ≠ minus := by
    rintro rfl
    exact absurd hbyte (by decide)
  simp [ScalarState.next, hbyte, hplus, hminus]

theorem foldl_natural {word : List UInt8} (hword : Natural word) {state : ScalarState}
    (hstate : state = .start ∨ state = .sign) :
    word.foldl ScalarState.next state = .leadingZero ∨
      word.foldl ScalarState.next state = .integer := by
  cases hword with
  | zero =>
    left
    rcases hstate with rfl | rfl <;> rfl
  | @many first rest hfirst hzero hrest =>
    right
    have hminus : first ≠ minus := by
      rintro rfl
      exact absurd hfirst (by decide)
    have hstep : state.next first = .integer := by
      rcases hstate with rfl | rfl <;> simp [ScalarState.next, hminus, hzero, hfirst]
    rw [List.foldl_cons, hstep]
    exact foldl_stays (fun byte hbyte ↦ (next_of_isDigit hbyte).1) hrest

theorem foldl_signed {word : List UInt8} (hword : Signed word) :
    word.foldl ScalarState.next .start = .leadingZero ∨
      word.foldl ScalarState.next .start = .integer := by
  cases hword with
  | positive hword => exact foldl_natural hword (.inl rfl)
  | negative hword => exact foldl_natural hword (.inr rfl)

/-- After a mantissa the number is complete and may go on with an exponent. -/
theorem foldl_mantissa {word : List UInt8} (hword : Mantissa word) :
    complete (word.foldl ScalarState.next .start) ∧
      ∀ mark, isExponentMark mark →
        (word.foldl ScalarState.next .start).next mark = .exponent := by
  have hbytes {mark : UInt8} (hmark : isExponentMark mark) :
      isDigit mark = false ∧ mark ≠ dot := by
    have hall : ∀ mark : UInt8, isExponentMark mark → isDigit mark = false ∧ mark ≠ dot := by
      grind [isExponentMark, isDigit]
    exact hall mark hmark
  cases hword with
  | integer hword =>
    rcases foldl_signed hword with hstate | hstate
    · rw [hstate]
      exact ⟨rfl, fun mark hmark ↦ by simp [ScalarState.next, hmark, (hbytes hmark).2]⟩
    · rw [hstate]
      exact ⟨rfl, fun mark hmark ↦ by simp [ScalarState.next, hmark, hbytes hmark]⟩
  | @fraction word digits hword hdigits =>
    have hpoint : (word.foldl ScalarState.next .start).next dot = .point := by
      rcases foldl_signed hword with hstate | hstate <;> rw [hstate] <;> rfl
    have hstate : (word ++ dot :: digits).foldl ScalarState.next .start = .fraction := by
      rw [List.foldl_append, List.foldl_cons, hpoint]
      exact foldl_digits (fun byte hbyte ↦ (next_of_isDigit hbyte).2.1)
        (fun byte hbyte ↦ (next_of_isDigit hbyte).2.2.1) hdigits
    rw [hstate]
    exact ⟨rfl, fun mark hmark ↦ by simp [ScalarState.next, hmark, hbytes hmark]⟩

theorem foldl_number {word : List UInt8} (hword : Number word) :
    complete (word.foldl ScalarState.next .start) := by
  cases hword with
  | mantissa hword => exact (foldl_mantissa hword).1
  | @exponent word digits mark hword hmark hdigits =>
    have hstate : (word ++ mark :: digits).foldl ScalarState.next .start = .exponentDigits := by
      rw [List.foldl_append, List.foldl_cons, (foldl_mantissa hword).2 mark hmark]
      exact foldl_digits (fun byte hbyte ↦ (next_of_isDigit hbyte).2.2.2.1)
        (fun byte hbyte ↦ (next_of_isDigit hbyte).2.2.2.2.2) hdigits
    rw [hstate]
    rfl
  | @signedExponent word digits mark sign hword hmark hsign hdigits =>
    have hstep : ScalarState.exponent.next sign = .exponentSign := if_pos hsign
    have hstate : (word ++ mark :: sign :: digits).foldl ScalarState.next .start =
        .exponentDigits := by
      rw [List.foldl_append, List.foldl_cons, (foldl_mantissa hword).2 mark hmark,
        List.foldl_cons, hstep]
      exact foldl_digits (fun byte hbyte ↦ (next_of_isDigit hbyte).2.2.2.2.1)
        (fun byte hbyte ↦ (next_of_isDigit hbyte).2.2.2.2.2) hdigits
    rw [hstate]
    rfl

/-- The number automaton accepts exactly the numbers. -/
theorem complete_iff_number (text : List UInt8) :
    complete (text.foldl ScalarState.next .start) ↔ Number text :=
  ⟨(shape_foldl text).number, foldl_number⟩

end Scalar

/-! ### Parts of a literal -/

section Literal

/-- The literal up to its exponent. -/
def mantissaOf (literal : List UInt8) : List UInt8 :=
  literal.takeWhile fun byte ↦ !isExponentMark byte

/-- The exponent of a literal, with its mark. -/
def exponentOf (literal : List UInt8) : List UInt8 :=
  literal.dropWhile fun byte ↦ !isExponentMark byte

/-- The digits of the mantissa without leading zeros. -/
def significant (literal : List UInt8) : List UInt8 :=
  ((mantissaOf literal).filter isDigit).dropWhile fun byte ↦ byte = zero

/-- The digits after the point. -/
def fractionOf (literal : List UInt8) : List UInt8 :=
  ((mantissaOf literal).dropWhile fun byte ↦ byte ≠ dot).filter isDigit

/-- The value of a run of digits. -/
def decimal (digits : List UInt8) : ℕ :=
  digits.foldl (fun value byte ↦ value * 10 + (byte.toNat - 48)) 0

/-- The magnitude of the exponent, at most `1_000_000_000`. -/
def magnitude (literal : List UInt8) : ℕ :=
  min (decimal ((exponentOf literal).filter isDigit)) 1000000000

/-- A literal with at most 64 significant digits and no point: the digits that are left out and the
digits after the point move into the exponent. -/
def abridge (literal : List UInt8) : List UInt8 :=
  let exponent : ℤ :=
    if minus ∈ exponentOf literal then -magnitude literal else magnitude literal
  let omitted := (significant literal).length - 64
  (if literal.head? = some minus then [minus] else []) ++
    ((if significant literal = [] then [zero] else (significant literal).take 64) ++
      101 :: ascii (toString (exponent - (fractionOf literal).length + omitted)))

variable {literal : List UInt8} {byte : UInt8}

theorem mantissaOf_eq_self (hmark : ∀ byte ∈ literal, isExponentMark byte = false) :
    mantissaOf literal = literal := by
  rw [mantissaOf, List.takeWhile_eq_self_iff]
  exact fun byte hbyte ↦ by simp [hmark byte hbyte]

theorem exponentOf_eq_nil (hmark : ∀ byte ∈ literal, isExponentMark byte = false) :
    exponentOf literal = [] := by
  rw [exponentOf, List.dropWhile_eq_nil_iff]
  exact fun byte hbyte ↦ by simp [hmark byte hbyte]

theorem exponentOf_snoc (hmark : ∃ byte ∈ literal, isExponentMark byte) :
    exponentOf (literal ++ [byte]) = exponentOf literal ++ [byte] := by
  have hnonempty : exponentOf literal ≠ [] := by
    obtain ⟨mark, hmem, hmark⟩ := hmark
    rw [exponentOf, ne_eq, List.dropWhile_eq_nil_iff]
    intro hall
    simpa [hmark] using hall mark hmem
  unfold exponentOf at hnonempty ⊢
  rw [List.dropWhile_append, if_neg (by simpa using hnonempty)]

theorem mantissaOf_snoc (hmark : ∃ byte ∈ literal, isExponentMark byte) :
    mantissaOf (literal ++ [byte]) = mantissaOf literal := by
  have hsplit : mantissaOf (literal ++ [byte]) ++ exponentOf (literal ++ [byte]) =
      mantissaOf literal ++ (exponentOf literal ++ [byte]) := by
    rw [mantissaOf, exponentOf, mantissaOf, exponentOf, List.takeWhile_append_dropWhile,
      ← List.append_assoc, List.takeWhile_append_dropWhile]
  rw [exponentOf_snoc hmark] at hsplit
  exact List.append_cancel_right hsplit

theorem decimal_snoc (digits : List UInt8) (byte : UInt8) :
    decimal (digits ++ [byte]) = decimal digits * 10 + (byte.toNat - 48) := by
  unfold decimal
  rw [List.foldl_append, List.foldl_cons, List.foldl_nil]

end Literal

namespace Scalar

/-! ### The counters of a number -/

/-- The bytes that a number can go on with. -/
theorem next_cases (state : ScalarState) (byte : UInt8) (hnext : state.next byte ≠ .invalid) :
    (isDigit byte ∧ (state.next byte).inExponent = state.inExponent ∧
        (state.next byte).inFraction = state.inFraction) ∨
      (byte = dot ∧ state.inExponent = false ∧ state.inFraction = false ∧
        state.next byte = .point) ∨
      (isExponentMark byte ∧ state.inExponent = false ∧ state.next byte = .exponent) ∨
      ((byte = plus ∨ byte = minus) ∧ state = .exponent ∧ state.next byte = .exponentSign) ∨
      (byte = minus ∧ state = .start ∧ state.next byte = .sign) := by
  cases state with
  | invalid => exact absurd rfl hnext
  | _ =>
    revert hnext
    simp only [ScalarState.next]
    split_ifs <;>
      simp_all [ScalarState.inExponent, ScalarState.inFraction, show isDigit zero = true from rfl]

/-- What a state says about the text that was read: whether it has an exponent mark and, before the
exponent, whether it has a point. -/
def Phase (state : ScalarState) (text : List UInt8) : Prop :=
  if state.inExponent then ∃ byte ∈ text, isExponentMark byte
  else (∀ byte ∈ text, isExponentMark byte = false) ∧ (state.inFraction ↔ dot ∈ text)

theorem bytes_of_isDigit {byte : UInt8} (hbyte : isDigit byte) :
    isExponentMark byte = false ∧ byte ≠ dot ∧ byte ≠ minus := by
  have hall : ∀ byte : UInt8, isDigit byte →
      isExponentMark byte = false ∧ byte ≠ dot ∧ byte ≠ minus := by
    grind [isExponentMark, isDigit]
  exact hall byte hbyte

theorem bytes_of_isExponentMark {byte : UInt8} (hbyte : isExponentMark byte) :
    isDigit byte = false ∧ byte ≠ minus := by
  have hall : ∀ byte : UInt8, isExponentMark byte → isDigit byte = false ∧ byte ≠ minus := by
    grind [isExponentMark, isDigit]
  exact hall byte hbyte

theorem Phase.next {state : ScalarState} {text : List UInt8} {byte : UInt8}
    (hphase : Phase state text) (htext : Shape state text)
    (hnext : state.next byte ≠ .invalid) : Phase (state.next byte) (text ++ [byte]) := by
  have hsnoc {mark : UInt8} (hmark : isExponentMark mark = false)
      (hall : ∀ byte ∈ text, isExponentMark byte = false) :
      ∀ byte ∈ text ++ [mark], isExponentMark byte = false := by
    rw [List.forall_mem_append]
    exact ⟨hall, by simpa using hmark⟩
  unfold Phase at hphase ⊢
  rcases next_cases state byte hnext with ⟨hdigit, hexponent, hfraction⟩ |
    ⟨rfl, hexponent, _, hstep⟩ |
    ⟨hmark, _, hstep⟩ | ⟨_, rfl, hstep⟩ | ⟨rfl, rfl, hstep⟩
  · rw [hexponent, hfraction]
    split_ifs at hphase ⊢
    · obtain ⟨mark, hmem, hmark⟩ := hphase
      exact ⟨mark, List.mem_append_left _ hmem, hmark⟩
    · refine ⟨hsnoc (bytes_of_isDigit hdigit).1 hphase.1, hphase.2.trans ?_⟩
      simp [(bytes_of_isDigit hdigit).2.1.symm]
  · rw [hexponent] at hphase
    rw [hstep]
    exact ⟨hsnoc rfl hphase.1, by simp [ScalarState.inFraction]⟩
  · rw [hstep]
    exact ⟨byte, by simp, hmark⟩
  · rw [hstep]
    obtain ⟨mark, hmem, hmark⟩ := hphase
    exact ⟨mark, List.mem_append_left _ hmem, hmark⟩
  · rw [hstep]
    obtain rfl := htext
    exact ⟨hsnoc rfl (by simp), iff_of_false (by decide) (by decide)⟩

/-- The counters of a scalar are those of a literal. -/
structure Counts (scalar : Scalar) (text : List UInt8) : Prop where
  digits : scalar.digits = (significant text).take 64
  omitted : scalar.omitted = (significant text).length - 64
  fraction : scalar.fraction = (fractionOf text).length
  exponent : scalar.exponent = magnitude text
  exponentNegative : scalar.exponentNegative = decide (minus ∈ exponentOf text)

/-- The scalar has read the text of a number. -/
structure Reads (scalar : Scalar) (text : List UInt8) : Prop extends Counts scalar text where
  raw : scalar.raw = text.take 129
  literal : scalar.literal = []
  shape : Shape scalar.state text
  phase : Phase scalar.state text

theorem reads_blank {byte : UInt8} (hbyte : literalOf byte = []) : Reads (blank byte) [] where
  raw := rfl
  literal := hbyte
  shape := rfl
  phase := ⟨by simp, by simp [blank, ScalarState.inFraction]⟩
  digits := rfl
  omitted := rfl
  fraction := rfl
  exponent := rfl
  exponentNegative := rfl

theorem take_snoc (text : List UInt8) (byte : UInt8) :
    (if (text.take 129).length < 129 then text.take 129 ++ [byte] else text.take 129) =
      (text ++ [byte]).take 129 := by
  rw [List.length_take]
  split_ifs with hlength
  · rw [List.take_of_length_le (by omega), List.take_of_length_le (by simp; omega)]
  · rw [List.take_append_of_le_length (by omega)]

/-- The significant digits with one more digit of the mantissa. -/
theorem significant_snoc {text : List UInt8} {byte : UInt8}
    (hmark : ∀ byte ∈ text, isExponentMark byte = false) (hbyte : isDigit byte) :
    significant (text ++ [byte]) =
      if byte ≠ zero ∨ significant text ≠ [] then significant text ++ [byte] else [] := by
  have hall : ∀ other ∈ text ++ [byte], isExponentMark other = false := by
    rw [List.forall_mem_append]
    exact ⟨hmark, by simpa using (bytes_of_isDigit hbyte).1⟩
  unfold significant
  rw [mantissaOf_eq_self hmark, mantissaOf_eq_self hall, List.filter_append,
    List.filter_singleton, hbyte, List.dropWhile_append]
  generalize (text.filter isDigit).dropWhile (fun byte ↦ decide (byte = zero)) = kept
  by_cases hkept : kept = []
  · subst hkept
    by_cases hzero : byte = zero <;> simp [hzero]
  · simp [hkept]

/-- The digits after the point with one more digit of the mantissa. -/
theorem fractionOf_snoc {text : List UInt8} {byte : UInt8}
    (hmark : ∀ byte ∈ text, isExponentMark byte = false) (hbyte : isDigit byte) :
    (fractionOf (text ++ [byte])).length =
      (fractionOf text).length + if dot ∈ text then 1 else 0 := by
  have hall : ∀ other ∈ text ++ [byte], isExponentMark other = false := by
    rw [List.forall_mem_append]
    exact ⟨hmark, by simpa using (bytes_of_isDigit hbyte).1⟩
  unfold fractionOf
  rw [mantissaOf_eq_self hmark, mantissaOf_eq_self hall, List.dropWhile_append]
  by_cases hdot : dot ∈ text
  · have hnonempty : text.dropWhile (fun byte ↦ decide (byte ≠ dot)) ≠ [] := by
      rw [ne_eq, List.dropWhile_eq_nil_iff]
      exact fun hnone ↦ by simpa using hnone dot hdot
    rw [if_neg (by simpa using hnonempty), if_pos hdot, List.filter_append, List.length_append,
      List.filter_singleton, hbyte]
    rfl
  · have hempty : text.dropWhile (fun byte ↦ decide (byte ≠ dot)) = [] := by
      rw [List.dropWhile_eq_nil_iff]
      exact fun other hother ↦ by simpa using fun heq : other = dot ↦ hdot (heq ▸ hother)
    rw [hempty, if_neg hdot]
    simp [(bytes_of_isDigit hbyte).2.1]

/-- The digits of a literal do not see a byte that is no digit. -/
theorem digits_snoc_of_not_isDigit {text : List UInt8} {byte : UInt8}
    (hbyte : isDigit byte = false) :
    significant (text ++ [byte]) = significant text ∧
      fractionOf (text ++ [byte]) = fractionOf text := by
  have hmantissa : mantissaOf (text ++ [byte]) = mantissaOf text ∨
      mantissaOf (text ++ [byte]) = mantissaOf text ++ [byte] := by
    unfold mantissaOf
    rw [List.takeWhile_append]
    split_ifs with hlength
    · rw [(List.takeWhile_prefix _).eq_of_length hlength]
      cases hmark : isExponentMark byte <;> simp [hmark]
    · exact .inl rfl
  unfold significant fractionOf
  rcases hmantissa with hsame | hmore
  · rw [hsame]
    exact ⟨rfl, rfl⟩
  · rw [hmore]
    generalize mantissaOf text = mantissa
    refine ⟨by simp [hbyte], ?_⟩
    rw [List.dropWhile_append]
    split_ifs with hempty
    · rw [List.isEmpty_iff.mp hempty, List.filter_nil, List.filter_eq_nil_iff]
      intro other hother
      rw [List.mem_singleton.mp ((List.dropWhile_sublist _).mem hother), hbyte]
      exact Bool.false_ne_true
    · simp [hbyte]

theorem magnitude_snoc {text : List UInt8} {byte : UInt8}
    (hmark : ∃ byte ∈ text, isExponentMark byte) (hbyte : isDigit byte) :
    magnitude (text ++ [byte]) = min (magnitude text * 10 + (byte.toNat - 48)) 1000000000 := by
  unfold magnitude
  rw [exponentOf_snoc hmark, List.filter_append, List.filter_singleton, hbyte, Bool.cond_true,
    decimal_snoc]
  omega

theorem count_fixed (scalar : Scalar) (previous : ScalarState) (byte : UInt8) :
    (scalar.count previous byte).raw = scalar.raw ∧
      (scalar.count previous byte).literal = scalar.literal ∧
      (scalar.count previous byte).state = scalar.state ∧
      (scalar.count previous byte).exponentNegative = scalar.exponentNegative ∧
      (scalar.count previous byte).negative = scalar.negative := by
  unfold count
  split_ifs <;> exact ⟨rfl, rfl, rfl, rfl, rfl⟩

/-- The scalar after a byte of a number, before its counters. -/
def read (scalar : Scalar) (byte : UInt8) : Scalar :=
  { scalar with
    raw := if scalar.raw.length < 129 then scalar.raw ++ [byte] else scalar.raw
    state := scalar.state.next byte }

theorem feed_number {scalar : Scalar} (hliteral : scalar.literal = []) (byte : UInt8) :
    scalar.feed byte =
      if isDigit byte then (scalar.read byte).count scalar.state byte
      else if scalar.state = .exponent ∧ byte = minus then
        { scalar.read byte with exponentNegative := true }
      else scalar.read byte := by
  unfold feed
  rw [if_neg (not_not.mpr hliteral)]
  rfl

theorem feed_number_fixed {scalar : Scalar} (hliteral : scalar.literal = []) (byte : UInt8) :
    (scalar.feed byte).raw = (scalar.read byte).raw ∧
      (scalar.feed byte).literal = [] ∧
      (scalar.feed byte).state = scalar.state.next byte ∧
      (scalar.feed byte).negative = scalar.negative := by
  rw [feed_number hliteral]
  split_ifs
  · obtain ⟨hraw, hword, hstate, -, hnegative⟩ :=
      count_fixed (scalar.read byte) scalar.state byte
    exact ⟨hraw, hword.trans hliteral, hstate, hnegative⟩
  · exact ⟨rfl, hliteral, rfl, rfl⟩
  · exact ⟨rfl, hliteral, rfl, rfl⟩

/-- A digit of the exponent changes the exponent only. -/
theorem Reads.feed_exponentDigit {scalar : Scalar} {text : List UInt8}
    (hreads : Reads scalar text) {byte : UInt8} (hdigit : isDigit byte)
    (hexponent : scalar.state.inExponent) :
    Counts (scalar.feed byte) (text ++ [byte]) := by
  have hmark : ∃ byte ∈ text, isExponentMark byte := by
    have hphase := hreads.phase
    rwa [Phase, if_pos hexponent] at hphase
  have hsignificant : significant (text ++ [byte]) = significant text := by
    unfold significant
    rw [mantissaOf_snoc hmark]
  have hfraction : fractionOf (text ++ [byte]) = fractionOf text := by
    unfold fractionOf
    rw [mantissaOf_snoc hmark]
  rw [feed_number hreads.literal, if_pos hdigit, count, if_pos hexponent]
  refine ⟨?_, ?_, ?_, ?_, ?_⟩
  · rw [hsignificant]
    exact hreads.digits
  · rw [hsignificant]
    exact hreads.omitted
  · rw [hfraction]
    exact hreads.fraction
  · rw [magnitude_snoc hmark hdigit, ← hreads.exponent]
    rfl
  · refine hreads.exponentNegative.trans ?_
    simp [exponentOf_snoc hmark, (bytes_of_isDigit hdigit).2.2.symm]

/-- A digit of the mantissa is kept, counted or a leading zero. -/
theorem Reads.feed_mantissaDigit {scalar : Scalar} {text : List UInt8}
    (hreads : Reads scalar text) {byte : UInt8} (hdigit : isDigit byte)
    (hexponent : ¬scalar.state.inExponent) :
    Counts (scalar.feed byte) (text ++ [byte]) := by
  obtain ⟨hmark, hpoint⟩ : (∀ byte ∈ text, isExponentMark byte = false) ∧
      (scalar.state.inFraction ↔ dot ∈ text) := by
    have hphase := hreads.phase
    rwa [Phase, if_neg hexponent] at hphase
  have hall : ∀ other ∈ text ++ [byte], isExponentMark other = false := by
    rw [List.forall_mem_append]
    exact ⟨hmark, by simpa using (bytes_of_isDigit hdigit).1⟩
  have hexponent' : scalar.exponent = magnitude (text ++ [byte]) := by
    rw [hreads.exponent, magnitude, magnitude, exponentOf_eq_nil hmark, exponentOf_eq_nil hall]
  have hnegative : scalar.exponentNegative = decide (minus ∈ exponentOf (text ++ [byte])) := by
    rw [hreads.exponentNegative, exponentOf_eq_nil hmark, exponentOf_eq_nil hall]
  have hsignificant := significant_snoc hmark hdigit
  have hfraction : (if scalar.state.inFraction then scalar.fraction + 1 else scalar.fraction) =
      (fractionOf (text ++ [byte])).length := by
    rw [fractionOf_snoc hmark hdigit, hreads.fraction]
    by_cases hdot : dot ∈ text <;> simp [hpoint, hdot]
  have hkept : scalar.digits ≠ [] ↔ significant text ≠ [] := by
    rw [hreads.digits]
    simp
  have hlength : scalar.digits.length < 64 ↔ (significant text).length < 64 := by
    rw [hreads.digits, List.length_take]
    omega
  rw [feed_number hreads.literal, if_pos hdigit, count, if_neg hexponent]
  by_cases hcounted : byte ≠ zero ∨ significant text ≠ []
  · rw [if_pos hcounted] at hsignificant
    rw [if_pos (show byte ≠ zero ∨ (scalar.read byte).digits ≠ [] from
      hcounted.imp_right hkept.mpr)]
    by_cases hroom : (significant text).length < 64
    · rw [if_pos (show (scalar.read byte).digits.length < 64 from hlength.mpr hroom)]
      refine ⟨?_, ?_, hfraction, hexponent', hnegative⟩
      · change scalar.digits ++ [byte] = _
        rw [hsignificant, hreads.digits, List.take_of_length_le hroom.le,
          List.take_of_length_le (by rw [List.length_append, List.length_singleton]; omega)]
      · change scalar.omitted = _
        rw [hsignificant, hreads.omitted, List.length_append, List.length_singleton]
        omega
    · rw [if_neg (show ¬(scalar.read byte).digits.length < 64 from
        fun hless ↦ hroom (hlength.mp hless))]
      refine ⟨?_, ?_, hfraction, hexponent', hnegative⟩
      · change scalar.digits = _
        rw [hsignificant, hreads.digits, List.take_append_of_le_length (by omega)]
      · change scalar.omitted + 1 = _
        rw [hsignificant, hreads.omitted, List.length_append, List.length_singleton]
        omega
  · have hnone : significant text = [] := by
      by_contra hsome
      exact hcounted (.inr hsome)
    rw [if_neg hcounted] at hsignificant
    rw [if_neg (show ¬(byte ≠ zero ∨ (scalar.read byte).digits ≠ []) from
      fun hsome ↦ hcounted (hsome.imp_right hkept.mp))]
    refine ⟨?_, ?_, hfraction, hexponent', hnegative⟩
    · change scalar.digits = _
      rw [hsignificant, hreads.digits, hnone]
    · change scalar.omitted = _
      rw [hsignificant, hreads.omitted, hnone]

/-- A byte that is no digit changes at most the sign of the exponent. -/
theorem Reads.feed_mark {scalar : Scalar} {text : List UInt8} (hreads : Reads scalar text)
    {byte : UInt8} (hdigit : isDigit byte = false) (hvalid : scalar.state.next byte ≠ .invalid) :
    Counts (scalar.feed byte) (text ++ [byte]) := by
  have hphase := hreads.phase
  unfold Phase at hphase
  obtain ⟨hmagnitude, hnegative⟩ : magnitude (text ++ [byte]) = magnitude text ∧
      (minus ∈ exponentOf (text ++ [byte]) ↔
        minus ∈ exponentOf text ∨ (scalar.state = .exponent ∧ byte = minus)) := by
    unfold magnitude
    rcases next_cases scalar.state byte hvalid with ⟨hdigit', -⟩ | ⟨rfl, hexponent, -⟩ |
      ⟨hmark, hexponent, -⟩ | ⟨hsign, hexponent, -⟩ | ⟨rfl, hstart, -⟩
    · rw [hdigit] at hdigit'
      cases hdigit'
    · rw [hexponent] at hphase
      have hall : ∀ other ∈ text ++ [dot], isExponentMark other = false := by
        rw [List.forall_mem_append]
        exact ⟨hphase.1, by simpa using show isExponentMark dot = false from rfl⟩
      rw [exponentOf_eq_nil hphase.1, exponentOf_eq_nil hall]
      simp [show ¬dot = minus by decide]
    · rw [hexponent] at hphase
      have hmore : exponentOf (text ++ [byte]) = [byte] := by
        have hempty := exponentOf_eq_nil hphase.1
        unfold exponentOf at hempty ⊢
        rw [List.dropWhile_append, hempty]
        simp [hmark]
      rw [exponentOf_eq_nil hphase.1, hmore]
      simp [bytes_of_isExponentMark hmark, (bytes_of_isExponentMark hmark).2.symm]
    · rw [hexponent] at hphase
      rw [exponentOf_snoc hphase, List.filter_append]
      simp [hdigit, hexponent, eq_comm]
    · have hempty := hreads.shape
      rw [hstart] at hempty
      obtain rfl : text = [] := hempty
      rw [hstart]
      exact ⟨rfl, by decide⟩
  obtain ⟨hsignificant, hfraction⟩ := @digits_snoc_of_not_isDigit text byte hdigit
  have hdigits' := hreads.digits
  have homitted' := hreads.omitted
  have hfraction' := hreads.fraction
  have hexponent' := hreads.exponent
  rw [← hsignificant] at hdigits' homitted'
  rw [← hfraction] at hfraction'
  rw [← hmagnitude] at hexponent'
  rw [feed_number hreads.literal, if_neg (by rw [hdigit]; decide)]
  split_ifs with hsign
  · refine ⟨hdigits', homitted', hfraction', hexponent', ?_⟩
    exact (decide_eq_true (hnegative.mpr (.inr hsign))).symm
  · refine ⟨hdigits', homitted', hfraction', hexponent', hreads.exponentNegative.trans ?_⟩
    simp [hnegative, hsign]

/-- A byte of a number keeps the counters those of the text. -/
theorem Reads.feed {scalar : Scalar} {text : List UInt8} (hreads : Reads scalar text)
    (byte : UInt8) (hvalid : (scalar.feed byte).state ≠ .invalid) :
    Reads (scalar.feed byte) (text ++ [byte]) := by
  obtain ⟨hraw, hliteral, hstate, -⟩ := feed_number_fixed hreads.literal byte
  rw [hstate] at hvalid
  have hcounts' : Counts (scalar.feed byte) (text ++ [byte]) := by
    cases hdigit : isDigit byte with
    | false => exact hreads.feed_mark hdigit hvalid
    | true =>
      by_cases hexponent : scalar.state.inExponent
      · exact hreads.feed_exponentDigit hdigit hexponent
      · exact hreads.feed_mantissaDigit hdigit hexponent
  refine ⟨hcounts', ?_, hliteral, ?_, ?_⟩
  · rw [hraw, read, hreads.raw]
    exact take_snoc text byte
  · rw [hstate]
    exact hreads.shape.next byte
  · rw [hstate]
    exact hreads.phase.next hreads.shape hvalid

theorem foldl_fixed {byte : UInt8} (hbyte : literalOf byte = []) (text : List UInt8) :
    (text.foldl feed (blank byte)).literal = [] ∧
      (text.foldl feed (blank byte)).state = text.foldl ScalarState.next .start ∧
      (text.foldl feed (blank byte)).negative = decide (byte = minus) := by
  induction text using List.reverseRecOn with
  | nil => exact ⟨hbyte, rfl, rfl⟩
  | append_singleton text next ih =>
    obtain ⟨hliteral, hstate, hnegative⟩ := ih
    obtain ⟨-, hliteral', hstate', hnegative'⟩ := feed_number_fixed hliteral next
    rw [List.foldl_append, List.foldl_append, List.foldl_cons, List.foldl_nil, List.foldl_cons,
      List.foldl_nil]
    exact ⟨hliteral', hstate'.trans (by rw [hstate]), hnegative'.trans hnegative⟩

/-- The counters of a number that is not given up. -/
theorem reads_foldl {byte : UInt8} (hbyte : literalOf byte = []) (text : List UInt8)
    (hvalid : text.foldl ScalarState.next .start ≠ .invalid) :
    Reads (text.foldl feed (blank byte)) text := by
  induction text using List.reverseRecOn with
  | nil => exact reads_blank hbyte
  | append_singleton text next ih =>
    rw [List.foldl_append, List.foldl_cons, List.foldl_nil] at hvalid ⊢
    have hbefore : text.foldl ScalarState.next .start ≠ .invalid := by
      intro hinvalid
      rw [hinvalid] at hvalid
      exact hvalid rfl
    refine (ih hbefore).feed next ?_
    rwa [(feed_number_fixed (ih hbefore).literal next).2.2.1, (foldl_fixed hbyte text).2.1]

/-! ### Accepted scalars and their cost -/

theorem literalOf_eq_nil {byte : UInt8} (hbyte : isNumberStart byte) : literalOf byte = [] := by
  have hall : ∀ byte : UInt8, isNumberStart byte → literalOf byte = [] := by
    grind [isNumberStart, isDigit, literalOf]
  exact hall byte hbyte

theorem valid_number {scalar : Scalar} (hliteral : scalar.literal = []) :
    scalar.valid = complete scalar.state := by
  unfold valid
  rw [if_neg (not_not.mpr hliteral)]
  cases scalar.state <;> rfl

/-- Assumes: the text begins as a number does. The scalar is valid exactly for numbers. -/
theorem valid_after_number {byte : UInt8} {rest : List UInt8} (hbyte : isNumberStart byte) :
    (after (byte :: rest)).valid ↔ Number (byte :: rest) := by
  obtain ⟨hliteral, hstate, -⟩ := foldl_fixed (literalOf_eq_nil hbyte) (byte :: rest)
  change ((byte :: rest).foldl feed (blank byte)).valid ↔ _
  rw [valid_number hliteral, hstate]
  exact complete_iff_number _

theorem cost_word {F64 : Type} (serde : Serde F64) {byte : UInt8} {rest : List UInt8}
    (hbyte : literalOf byte ≠ []) : (after (byte :: rest)).cost serde = none := by
  have hliteral := (foldl_word hbyte (byte :: rest)).1
  change ((byte :: rest).foldl feed (blank byte)).cost serde = none
  rw [cost, if_pos (by rw [hliteral]; exact hbyte)]

end Scalar

/-- Assumes: the laws of the parser. The parser takes a number to its conversion. -/
theorem fromSlice_number {F64 : Type} {serde : Serde F64} (hserde : serde.Lawful)
    {literal : List UInt8} (hliteral : Number literal) :
    (serde.fromSlice literal).bind serde.asF64 = serde.convert literal := by
  cases hparse : serde.fromSlice literal with
  | some value =>
    obtain ⟨hdocument, -, -⟩ := hserde.fromSlice_sound literal value hparse
    obtain rfl := document_number hdocument hliteral
    rfl
  | none =>
    cases hconvert : serde.convert literal with
    | none => rfl
    | some number =>
      have hsome := hserde.fromSlice_complete literal (.number ⟨literal, hliteral⟩)
        hliteral.document
        (Nat.zero_le _) (fun other hother ↦ by
          rw [List.mem_singleton.mp hother, hconvert]
          rfl)
      rw [hparse] at hsome
      cases hsome

/-- The cost of a number literal: its conversion, of a long literal that of the abridged one, when
it is finite and positive. -/
def literalCost {F64 : Type} (serde : Serde F64) (literal : List UInt8) : Option F64 :=
  (if literal.length ≤ 128 then serde.convert literal else serde.parse (abridge literal)).filter
    serde.isCost

namespace Scalar

/-- A scalar that has read a number. -/
theorem reads_after {literal : List UInt8} (hliteral : Number literal) :
    Reads (after literal) literal ∧
      (after literal).negative = decide (literal.head? = some minus) := by
  obtain ⟨first, rest, rfl, hfirst⟩ := hliteral.start
  have hbyte := literalOf_eq_nil hfirst
  have hcomplete := foldl_number hliteral
  have hvalid : (first :: rest).foldl ScalarState.next .start ≠ .invalid := by
    intro hinvalid
    rw [hinvalid] at hcomplete
    cases hcomplete
  refine ⟨reads_foldl hbyte (first :: rest) hvalid, ?_⟩
  rw [List.head?_cons]
  exact (foldl_fixed hbyte (first :: rest)).2.2.trans (by simp)

theorem abridged_after {literal : List UInt8} (hliteral : Number literal) :
    (after literal).abridged = abridge literal := by
  obtain ⟨hreads, hnegative⟩ := reads_after hliteral
  unfold abridged abridge
  rw [hreads.digits, hreads.omitted, hreads.fraction, hreads.exponent, hreads.exponentNegative,
    hnegative]
  simp

/-- A literal of more than 128 bytes is abridged. -/
theorem cost_long {F64 : Type} (serde : Serde F64) {literal : List UInt8}
    (hliteral : Number literal) (hlong : 128 < literal.length) :
    (after literal).cost serde = (serde.parse (abridge literal)).filter serde.isCost := by
  obtain ⟨hreads, -⟩ := reads_after hliteral
  unfold cost
  rw [if_neg (not_not.mpr hreads.literal),
    if_neg (by rw [hreads.raw, List.length_take]; omega), abridged_after hliteral]

/-- Assumes: the laws of the parser. A scalar that has read a number has the cost of the literal. -/
theorem cost_number {F64 : Type} {serde : Serde F64} (hserde : serde.Lawful)
    {literal : List UInt8} (hliteral : Number literal) :
    (after literal).cost serde = literalCost serde literal := by
  unfold literalCost
  by_cases hlength : literal.length ≤ 128
  · obtain ⟨hreads, -⟩ := reads_after hliteral
    unfold cost
    rw [if_neg (not_not.mpr hreads.literal), if_pos hlength,
      if_pos (by rw [hreads.raw, List.length_take]; omega), hreads.raw,
      List.take_of_length_le (by omega), fromSlice_number hserde hliteral]
  · rw [if_neg hlength, cost_long serde hliteral (Nat.not_le.mp hlength)]

end Scalar

/-! ### The specification of a scalar -/

inductive ScalarText : Value → List UInt8 → Prop
  | nullWord : ScalarText .null [110, 117, 108, 108]
  | trueWord : ScalarText (.bool true) [116, 114, 117, 101]
  | falseWord : ScalarText (.bool false) [102, 97, 108, 115, 101]
  | number (literal : Literal) : ScalarText (.number literal) literal.1

theorem ScalarText.derives {value : Value} {text : List UInt8} (htext : ScalarText value text) :
    Derives (.value value) text := by
  cases htext with
  | nullWord => exact .nullWord
  | trueWord => exact .trueWord
  | falseWord => exact .falseWord
  | number literal => exact .number literal

theorem ScalarText.depth_eq {value : Value} {text : List UInt8} (htext : ScalarText value text) :
    value.depth = 0 := by
  cases htext <;> rfl

def scalarCost {F64 : Type} (serde : Serde F64) : Value → Option F64
  | .number literal => literalCost serde literal.1
  | _ => none

/-- A valid scalar has read the text of a scalar. -/
theorem Scalar.valid_after {first : UInt8} {rest : List UInt8}
    (hfirst : Observer.beginsScalar first) (hvalid : (Scalar.after (first :: rest)).valid) :
    ∃ value, ScalarText value (first :: rest) := by
  have hcases : ∀ first : UInt8, Observer.beginsScalar first →
      isNumberStart first ∨ first = 116 ∨ first = 102 ∨ first = 110 := by
    grind [isNumberStart, Observer.beginsScalar]
  have hword (hliteral : literalOf first ≠ []) : first :: rest = literalOf first := by
    obtain ⟨hword, hoffset, hinitial⟩ := foldl_word hliteral (first :: rest)
    change ((first :: rest).foldl feed (blank first)).valid at hvalid
    rw [valid, if_pos (by rw [hword]; exact hliteral), hword, hoffset, Bool.and_eq_true,
      decide_eq_true_eq, decide_eq_true_eq] at hvalid
    exact (hinitial hvalid.1).eq_of_length hvalid.2
  rcases hcases first hfirst with hnumber | rfl | rfl | rfl
  · exact ⟨_, .number ⟨_, (valid_after_number hnumber).mp hvalid⟩⟩
  · rw [hword (by decide)]
    exact ⟨_, .trueWord⟩
  · rw [hword (by decide)]
    exact ⟨_, .falseWord⟩
  · rw [hword (by decide)]
    exact ⟨_, .nullWord⟩

/-- What the text of a scalar begins with, that no byte of it ends a scalar, and that the automaton
accepts it. -/
theorem ScalarText.valid_after {value : Value} {text : List UInt8} (htext : ScalarText value text) :
    ∃ first rest, text = first :: rest ∧ Observer.beginsScalar first ∧
      (∀ byte ∈ rest, Observer.endsScalar byte = false) ∧ (Scalar.after text).valid := by
  have hnumber : ∀ byte : UInt8, isNumberByte byte → Observer.endsScalar byte = false := by
    intro byte hbyte
    have hspace := not_isWhitespace_of_isNumberByte byte hbyte
    grind [isNumberByte, isDigit, isExponentMark, Observer.endsScalar]
  have hbegins : ∀ byte : UInt8, isNumberStart byte → Observer.beginsScalar byte := by
    grind [isNumberStart, Observer.beginsScalar]
  cases htext with
  | nullWord => exact ⟨_, _, rfl, by decide, by decide +kernel, by decide +kernel⟩
  | trueWord => exact ⟨_, _, rfl, by decide, by decide +kernel, by decide +kernel⟩
  | falseWord => exact ⟨_, _, rfl, by decide, by decide +kernel, by decide +kernel⟩
  | number literal =>
    obtain ⟨text, hliteral⟩ := literal
    obtain ⟨first, rest, rfl, hfirst⟩ := hliteral.start
    refine ⟨first, rest, rfl, hbegins first hfirst, fun byte hbyte ↦ ?_,
      (Scalar.valid_after_number hfirst).mpr hliteral⟩
    exact hnumber byte (hliteral.bytes byte (List.mem_cons_of_mem _ hbyte))

/-- Assumes: the laws of the parser. The cost of a scalar is that of its value. -/
theorem ScalarText.cost_after {F64 : Type} {serde : Serde F64} (hserde : serde.Lawful)
    {value : Value} {text : List UInt8} (htext : ScalarText value text) :
    (Scalar.after text).cost serde = scalarCost serde value := by
  cases htext with
  | nullWord => exact Scalar.cost_word serde (by decide)
  | trueWord => exact Scalar.cost_word serde (by decide)
  | falseWord => exact Scalar.cost_word serde (by decide)
  | number literal => exact Scalar.cost_number hserde literal.2

/-- An invalid scalar stays invalid. -/
theorem Scalar.feed_invalid {scalar : Scalar} (hstate : scalar.state = .invalid) (byte : UInt8) :
    (scalar.feed byte).state = .invalid := by
  by_cases hliteral : scalar.literal = []
  · rw [(feed_number_fixed hliteral byte).2.2.1, hstate]
    rfl
  · rw [(feed_word hliteral byte).2.2, hstate, ite_self]

theorem Scalar.valid_ne_invalid {scalar : Scalar} (hvalid : scalar.valid) :
    scalar.state ≠ .invalid := by
  intro hstate
  unfold valid at hvalid
  rw [hstate] at hvalid
  split_ifs at hvalid
  simp at hvalid

end Relayna.ResponseCost

import Relayna.ResponseCost.Observer

/-!
# Strings

The string automaton of the observer reads exactly the string bodies of JSON. `Part` is the part of
a character that a state of the automaton has read. A step that does not fail extends the part or
completes the character (`Within.feed`), so the closing quote is met only after a string body
(`Within.close`), and every string body brings the automaton back to rest (`read_body`).

`captured` is the text of a key that is kept while it is read, and `keyText` the key that is made of
it.
-/

set_option autoImplicit false
set_option relaxedAutoImplicit false

namespace Relayna.ResponseCost

open Relayna.Library.Json

/-! ### Hexadecimal digits -/

theorem hexDigit_lt {byte : UInt8} {digit : ℕ} (hdigit : hexDigit byte = some digit) :
    digit < 16 := by
  simp only [hexDigit, UInt8.le_iff_toNat_le] at hdigit
  split_ifs at hdigit <;> simp only [Option.some.injEq] at hdigit
  all_goals
    simp only [UInt8.reduceToNat] at *
    omega

theorem hexValue_snoc (word : List UInt8) (byte : UInt8) :
    hexValue (word ++ [byte]) = hexValue word * 16 + (hexDigit byte).getD 0 := by
  unfold hexValue
  rw [List.foldl_append, List.foldl_cons, List.foldl_nil]

theorem hexValue_lt (word : List UInt8) : hexValue word < 16 ^ word.length := by
  induction word using List.reverseRecOn with
  | nil => exact Nat.one_pos
  | append_singleton word byte ih =>
    have hdigit : (hexDigit byte).getD 0 < 16 := by
      cases hbyte : hexDigit byte with
      | none => exact Nat.succ_pos _
      | some digit => exact hexDigit_lt hbyte
    rw [hexValue_snoc, List.length_append, List.length_singleton, pow_succ]
    omega

/-- Sixteen bits hold the value of fewer than four digits and one more. -/
theorem hexValue_shift {word : List UInt8} (hlength : word.length < 4) (byte : UInt8) :
    hexValue word * 16 % 65536 + (hexDigit byte).getD 0 = hexValue (word ++ [byte]) := by
  have hpow : 16 ^ word.length ≤ 16 ^ 3 := Nat.pow_le_pow_right (by decide) (by omega)
  have hvalue := hexValue_lt word
  rw [hexValue_snoc, Nat.mod_eq_of_lt (by omega)]

/-! ### Multi-byte characters -/

/-- The bytes that complete a multi-byte character, of which the next one has a range of its own. -/
def Tail : ℕ → UInt8 → UInt8 → List UInt8 → Prop
  | 0, _, _, [] => True
  | count + 1, nextMin, nextMax, byte :: tail =>
    (nextMin ≤ byte ∧ byte ≤ nextMax) ∧ Tail count 0x80 0xbf tail
  | _, _, _, _ => False

theorem tail_one {nextMin nextMax : UInt8} {tail : List UInt8}
    (htail : Tail 1 nextMin nextMax tail) :
    ∃ second, tail = [second] ∧ nextMin ≤ second ∧ second ≤ nextMax := by
  match tail, htail with
  | [second], htail => exact ⟨second, rfl, htail.1⟩

theorem tail_two {nextMin nextMax : UInt8} {tail : List UInt8}
    (htail : Tail 2 nextMin nextMax tail) :
    ∃ second third, tail = [second, third] ∧ (nextMin ≤ second ∧ second ≤ nextMax) ∧
      isContinuation third := by
  match tail, htail with
  | second :: _, htail =>
    obtain ⟨third, rfl, hthird⟩ := tail_one htail.2
    exact ⟨second, third, rfl, htail.1, by simpa [isContinuation] using hthird⟩

theorem tail_three {nextMin nextMax : UInt8} {tail : List UInt8}
    (htail : Tail 3 nextMin nextMax tail) :
    ∃ second third fourth, tail = [second, third, fourth] ∧
      (nextMin ≤ second ∧ second ≤ nextMax) ∧ isContinuation third ∧ isContinuation fourth := by
  match tail, htail with
  | second :: _, htail =>
    obtain ⟨third, fourth, rfl, hthird, hfourth⟩ := tail_two htail.2
    exact ⟨second, third, fourth, rfl, htail.1, by simpa [isContinuation] using hthird, hfourth⟩

/-- The ranges of the source by the length of the character: the second byte is restricted after
`E0` and `F0`, against longer forms than needed, after `ED`, against surrogates, and after `F4`. -/
theorem continuation_eq : ∀ first : UInt8, Scan.continuation first =
    if 0xc2 ≤ first ∧ first ≤ 0xdf then some (1, 0x80, 0xbf)
    else if 0xe0 ≤ first ∧ first ≤ 0xef then
      some (2, if first = 0xe0 then 0xa0 else 0x80, if first = 0xed then 0x9f else 0xbf)
    else if 0xf0 ≤ first ∧ first ≤ 0xf4 then
      some (3, if first = 0xf0 then 0x90 else 0x80, if first = 0xf4 then 0x8f else 0xbf)
    else none := by
  decide +kernel

/-- A first byte and the bytes that it asks for are a multi-byte character. -/
theorem multibyte_of_tail {first : UInt8} {count : ℕ} {nextMin nextMax : UInt8} {tail : List UInt8}
    (hfirst : Scan.continuation first = some (count, nextMin, nextMax))
    (htail : Tail count nextMin nextMax tail) : Multibyte (first :: tail) := by
  rw [continuation_eq] at hfirst
  have hrange {low high second : UInt8} (hlow : 0x80 ≤ low) (hhigh : high ≤ 0xbf)
      (hsecond : low ≤ second ∧ second ≤ high) : isContinuation second := by
    simpa [isContinuation] using ⟨UInt8.le_trans hlow hsecond.1, UInt8.le_trans hsecond.2 hhigh⟩
  by_cases htwo : 0xc2 ≤ first ∧ first ≤ 0xdf
  · rw [if_pos htwo] at hfirst
    obtain ⟨rfl, rfl, rfl⟩ : _ ∧ _ ∧ _ := by simpa using hfirst
    obtain ⟨second, rfl, hsecond⟩ := tail_one htail
    exact .two htwo.1 htwo.2 (hrange (by decide) (by decide) hsecond)
  rw [if_neg htwo] at hfirst
  by_cases hthree : 0xe0 ≤ first ∧ first ≤ 0xef
  · rw [if_pos hthree] at hfirst
    obtain ⟨rfl, rfl, rfl⟩ : _ ∧ _ ∧ _ := by simpa using hfirst
    obtain ⟨second, third, rfl, hsecond, hthird⟩ := tail_two htail
    refine .three hthree.1 hthree.2 (hrange ?_ ?_ hsecond) hthird (fun hfirst ↦ ?_)
      (fun hfirst ↦ ?_)
    · split_ifs <;> decide
    · split_ifs <;> decide
    · simpa [hfirst] using hsecond.1
    · simpa [hfirst] using hsecond.2
  rw [if_neg hthree] at hfirst
  by_cases hfour : 0xf0 ≤ first ∧ first ≤ 0xf4
  · rw [if_pos hfour] at hfirst
    obtain ⟨rfl, rfl, rfl⟩ : _ ∧ _ ∧ _ := by simpa using hfirst
    obtain ⟨second, third, fourth, rfl, hsecond, hthird, hfourth⟩ := tail_three htail
    refine .four hfour.1 hfour.2 (hrange ?_ ?_ hsecond) hthird hfourth (fun hfirst ↦ ?_)
      (fun hfirst ↦ ?_)
    · split_ifs <;> decide
    · split_ifs <;> decide
    · simpa [hfirst] using hsecond.1
    · simpa [hfirst] using hsecond.2
  · rw [if_neg hfour] at hfirst
    exact absurd hfirst (Option.some_ne_none _).symm

/-- The first byte of a multi-byte character asks for the others. -/
theorem tail_of_multibyte {word : List UInt8} (hword : Multibyte word) :
    ∃ first tail count nextMin nextMax, word = first :: tail ∧
      Scan.continuation first = some (count, nextMin, nextMax) ∧
      Tail count nextMin nextMax tail := by
  have hbounds {byte : UInt8} (hbyte : isContinuation byte) : 0x80 ≤ byte ∧ byte ≤ 0xbf := by
    simpa [isContinuation] using hbyte
  cases hword with
  | @two first second hlow hhigh hsecond =>
    refine ⟨first, [second], 1, 0x80, 0xbf, rfl, ?_, hbounds hsecond, trivial⟩
    rw [continuation_eq, if_pos ⟨hlow, hhigh⟩]
  | @three first second third hlow hhigh hsecond hthird hshortest hsurrogate =>
    have htwo : ¬(0xc2 ≤ first ∧ first ≤ 0xdf) :=
      fun hfirst ↦ absurd (UInt8.le_trans hlow hfirst.2) (by decide)
    refine ⟨first, [second, third], 2, if first = 0xe0 then 0xa0 else 0x80,
      if first = 0xed then 0x9f else 0xbf, rfl, ?_, ⟨?_, ?_⟩, hbounds hthird, trivial⟩
    · rw [continuation_eq, if_neg htwo, if_pos ⟨hlow, hhigh⟩]
    · split_ifs with hfirst
      · exact hshortest hfirst
      · exact (hbounds hsecond).1
    · split_ifs with hfirst
      · exact hsurrogate hfirst
      · exact (hbounds hsecond).2
  | @four first second third fourth hlow hhigh hsecond hthird hfourth hshortest hrange =>
    have htwo : ¬(0xc2 ≤ first ∧ first ≤ 0xdf) :=
      fun hfirst ↦ absurd (UInt8.le_trans hlow hfirst.2) (by decide)
    have hthree : ¬(0xe0 ≤ first ∧ first ≤ 0xef) :=
      fun hfirst ↦ absurd (UInt8.le_trans hlow hfirst.2) (by decide)
    refine ⟨first, [second, third, fourth], 3, if first = 0xf0 then 0x90 else 0x80,
      if first = 0xf4 then 0x8f else 0xbf, rfl, ?_, ⟨?_, ?_⟩, hbounds hthird, hbounds hfourth,
      trivial⟩
    · rw [continuation_eq, if_neg htwo, if_neg hthree, if_pos ⟨hlow, hhigh⟩]
    · split_ifs with hfirst
      · exact hshortest hfirst
      · exact (hbounds hsecond).1
    · split_ifs with hfirst
      · exact hrange hfirst
      · exact (hbounds hsecond).2

/-! ### The automaton inside a character -/

namespace Scan

/-- The byte that a place between characters meets: the quote closes the string, and every other
one begins a character or fails. -/
def begin (scan : Scan) (byte : UInt8) : Option (Scan × Bool) :=
  if byte = quote then none
  else if byte = backslash then some ({ scan with escape := true }, false)
  else if byte < 0x20 then some (scan, true)
  else if 0x80 ≤ byte then
    match continuation byte with
    | some (utf8, nextMin, nextMax) => some ({ scan with utf8, nextMin, nextMax }, false)
    | none => some ({ scan with utf8 := 0, nextMin := 0x80, nextMax := 0xbf }, true)
  else some (scan, false)

variable {codepoint : ℕ} {nextMin nextMax byte : UInt8}

theorem feed_rest :
    feed ⟨false, 0, codepoint, 0, 0, nextMin, nextMax⟩ byte =
      begin ⟨false, 0, codepoint, 0, 0, nextMin, nextMax⟩ byte :=
  rfl

theorem feed_utf8 (count : ℕ) :
    feed ⟨false, 0, codepoint, 0, count + 1, nextMin, nextMax⟩ byte =
      some (⟨false, 0, codepoint, 0, count, 0x80, 0xbf⟩,
        byte < nextMin || nextMax < byte) :=
  rfl

theorem feed_escape :
    feed ⟨true, 0, codepoint, 0, 0, nextMin, nextMax⟩ byte =
      if byte = letterU then some (⟨false, 4, 0, 0, 0, nextMin, nextMax⟩, false)
      else some (⟨false, 0, codepoint, 0, 0, nextMin, nextMax⟩, !isSimpleEscape byte) :=
  rfl

/-- A digit of an escape. The last one decides whether the character is complete. -/
theorem feed_unicode (left surrogate : ℕ) :
    feed ⟨false, left + 1, codepoint, surrogate, 0, nextMin, nextMax⟩ byte =
      let unit := codepoint * 16 % 65536 + (hexDigit byte).getD 0
      if left = 0 then
        if surrogate = 3 then
          some (⟨false, left, unit, 0, 0, nextMin, nextMax⟩,
            (hexDigit byte).isNone || !isLowSurrogate unit)
        else if isHighSurrogate unit then
          some (⟨false, left, unit, 1, 0, nextMin, nextMax⟩, (hexDigit byte).isNone)
        else
          some (⟨false, left, unit, surrogate, 0, nextMin, nextMax⟩,
            (hexDigit byte).isNone || isLowSurrogate unit)
      else some (⟨false, left, unit, surrogate, 0, nextMin, nextMax⟩, (hexDigit byte).isNone) :=
  rfl

end Scan

/-- The part of a character that a state of the automaton has read. -/
inductive Part : Scan → List UInt8 → Prop
  | rest {codepoint : ℕ} {nextMin nextMax : UInt8} :
      Part ⟨false, 0, codepoint, 0, 0, nextMin, nextMax⟩ []
  | escape {codepoint : ℕ} {nextMin nextMax : UInt8} :
      Part ⟨true, 0, codepoint, 0, 0, nextMin, nextMax⟩ [backslash]
  | unicode {hex : List UInt8} {left : ℕ} {nextMin nextMax : UInt8}
      (hlength : hex.length + (left + 1) = 4) (hhex : ∀ byte ∈ hex, (hexDigit byte).isSome) :
      Part ⟨false, left + 1, hexValue hex, 0, 0, nextMin, nextMax⟩ (backslash :: letterU :: hex)
  | high {hex : List UInt8} {codepoint : ℕ} {nextMin nextMax : UInt8} (hhex : IsHex hex)
      (hhigh : isHighSurrogate (hexValue hex)) :
      Part ⟨false, 0, codepoint, 1, 0, nextMin, nextMax⟩ (backslash :: letterU :: hex)
  | highEscape {hex : List UInt8} {codepoint : ℕ} {nextMin nextMax : UInt8} (hhex : IsHex hex)
      (hhigh : isHighSurrogate (hexValue hex)) :
      Part ⟨false, 0, codepoint, 2, 0, nextMin, nextMax⟩
        (backslash :: letterU :: (hex ++ [backslash]))
  | low {high hex : List UInt8} {left : ℕ} {nextMin nextMax : UInt8} (hhigh : IsHex high)
      (hvalue : isHighSurrogate (hexValue high)) (hlength : hex.length + (left + 1) = 4)
      (hhex : ∀ byte ∈ hex, (hexDigit byte).isSome) :
      Part ⟨false, left + 1, hexValue hex, 3, 0, nextMin, nextMax⟩
        (backslash :: letterU :: (high ++ backslash :: letterU :: hex))
  | multibyte {word : List UInt8} {codepoint count : ℕ} {nextMin nextMax : UInt8}
      (hword : ∀ tail, Tail (count + 1) nextMin nextMax tail → Multibyte (word ++ tail)) :
      Part ⟨false, 0, codepoint, 0, count + 1, nextMin, nextMax⟩ word

/-- Digits of an escape and one more. -/
theorem isHex_snoc {hex : List UInt8} {byte : UInt8}
    (hhex : ∀ byte ∈ hex, (hexDigit byte).isSome) (hbyte : (hexDigit byte).isNone = false) :
    ∀ other ∈ hex ++ [byte], (hexDigit other).isSome := by
  rw [List.forall_mem_append]
  refine ⟨hhex, fun other hother ↦ ?_⟩
  rw [List.mem_singleton.mp hother, ← Option.not_isNone, hbyte]
  rfl

/-- A first byte that does not fail completes a character or leaves a part of one. -/
theorem part_begin {codepoint : ℕ} {nextMin nextMax byte : UInt8} {scan : Scan}
    (hfeed : Scan.begin ⟨false, 0, codepoint, 0, 0, nextMin, nextMax⟩ byte = some (scan, false)) :
    Part scan [byte] ∨ (Character [byte] ∧ Part scan []) := by
  unfold Scan.begin at hfeed
  split_ifs at hfeed with hquote hbackslash hcontrol hhigh
  · obtain rfl : _ = scan := by simpa using hfeed
    rw [hbackslash]
    exact .inl .escape
  · simp at hfeed
  · split at hfeed
    · next count low high hcontinuation =>
      obtain rfl : _ = scan := by simpa using hfeed
      obtain ⟨count, rfl⟩ : ∃ rest, count = rest + 1 := by
        have hall : ∀ first : UInt8, ∀ asked ∈ Scan.continuation first, 0 < asked.1 := by
          grind [Scan.continuation]
        exact Nat.exists_eq_add_one.mpr (hall byte _ hcontinuation)
      exact .inl (.multibyte fun tail htail ↦ multibyte_of_tail hcontinuation htail)
    · simp at hfeed
  · obtain rfl : _ = scan := by simpa using hfeed
    exact .inr ⟨.plain (UInt8.not_lt.mp hcontrol) (UInt8.not_le.mp hhigh) hquote hbackslash, .rest⟩

/-- A byte that does not fail extends the part of a character or completes the character. -/
theorem Part.feed {scan scan' : Scan} {part : List UInt8} {byte : UInt8} (hpart : Part scan part)
    (hfeed : scan.feed byte = some (scan', false)) :
    Part scan' (part ++ [byte]) ∨ (Character (part ++ [byte]) ∧ Part scan' []) := by
  cases hpart with
  | rest => exact part_begin hfeed
  | escape =>
    rw [Scan.feed_escape] at hfeed
    split_ifs at hfeed with hunicode
    · obtain rfl : _ = scan' := by simpa using hfeed
      rw [hunicode]
      exact .inl (@Part.unicode [] 3 _ _ rfl (fun _ hbyte ↦ absurd hbyte List.not_mem_nil))
    · obtain ⟨rfl, hsimple⟩ : _ = scan' ∧ isSimpleEscape byte := by simpa using hfeed
      exact .inr ⟨.escape hsimple, .rest⟩
  | @unicode hex left _ _ hlength hhex =>
    rw [Scan.feed_unicode] at hfeed
    simp only [hexValue_shift (show hex.length < 4 by omega), show ¬(0 : ℕ) = 3 by decide,
      if_false] at hfeed
    split_ifs at hfeed with hleft hhigh
    · obtain ⟨rfl, hbyte⟩ : _ = scan' ∧ (hexDigit byte).isNone = false := by
        simpa using hfeed
      subst hleft
      exact .inl (.high ⟨by simpa using hlength, isHex_snoc hhex hbyte⟩ hhigh)
    · obtain ⟨rfl, hbyte, hlow⟩ : _ = scan' ∧ (hexDigit byte).isNone = false ∧
          isLowSurrogate (hexValue (hex ++ [byte])) = false := by
        simpa using hfeed
      subst hleft
      refine .inr ⟨?_, .rest⟩
      exact .unicode ⟨by simpa using hlength, isHex_snoc hhex hbyte⟩ (by simpa using hhigh) hlow
    · obtain ⟨rfl, hbyte⟩ : _ = scan' ∧ (hexDigit byte).isNone = false := by
        simpa using hfeed
      obtain ⟨left, rfl⟩ := Nat.exists_eq_succ_of_ne_zero hleft
      refine .inl (.unicode ?_ (isHex_snoc hhex hbyte))
      rw [List.length_append, List.length_singleton]
      omega
  | @high hex _ _ _ hhex hhigh =>
    obtain ⟨rfl, rfl⟩ : _ = scan' ∧ byte = backslash := by simpa [Scan.feed] using hfeed
    exact .inl (.highEscape hhex hhigh)
  | @highEscape hex _ nextMin nextMax hhex hhigh =>
    obtain ⟨rfl, rfl⟩ : _ = scan' ∧ byte = letterU := by simpa [Scan.feed] using hfeed
    refine .inl ?_
    have hpart := @Part.low hex [] 3 nextMin nextMax hhex hhigh rfl
      (fun _ hbyte ↦ absurd hbyte List.not_mem_nil)
    simpa [hexValue] using hpart
  | @low high hex left nextMin nextMax hhigh hvalue hlength hhex =>
    rw [Scan.feed_unicode] at hfeed
    simp only [hexValue_shift (show hex.length < 4 by omega), if_true] at hfeed
    split_ifs at hfeed with hleft
    · obtain ⟨rfl, hbyte, hlow⟩ : _ = scan' ∧ (hexDigit byte).isNone = false ∧
          isLowSurrogate (hexValue (hex ++ [byte])) := by
        simpa using hfeed
      subst hleft
      refine .inr ⟨?_, .rest⟩
      have hpair := Character.pair hhigh hvalue
        ⟨by simpa using hlength, isHex_snoc hhex hbyte⟩ hlow
      simpa using hpair
    · obtain ⟨rfl, hbyte⟩ : _ = scan' ∧ (hexDigit byte).isNone = false := by
        simpa using hfeed
      obtain ⟨left, rfl⟩ := Nat.exists_eq_succ_of_ne_zero hleft
      have hpart := @Part.low high (hex ++ [byte]) left nextMin nextMax hhigh hvalue
        (by rw [List.length_append, List.length_singleton]; omega) (isHex_snoc hhex hbyte)
      exact .inl (by simpa using hpart)
  | @multibyte word _ count nextMin nextMax hword =>
    rw [Scan.feed_utf8] at hfeed
    obtain ⟨rfl, hmin, hmax⟩ : _ = scan' ∧ nextMin ≤ byte ∧ byte ≤ nextMax := by
      simpa using hfeed
    cases count with
    | zero => exact .inr ⟨.multibyte (hword [byte] ⟨⟨hmin, hmax⟩, trivial⟩), .rest⟩
    | succ count =>
      refine .inl (.multibyte fun tail htail ↦ ?_)
      have hmultibyte := hword (byte :: tail) ⟨⟨hmin, hmax⟩, htail⟩
      simpa using hmultibyte

/-- The string closes between characters only. -/
theorem Part.close {scan : Scan} {part : List UInt8} {byte : UInt8} (hpart : Part scan part)
    (hfeed : scan.feed byte = none) : byte = quote ∧ part = [] := by
  cases hpart with
  | rest =>
    rw [Scan.feed_rest, Scan.begin] at hfeed
    split_ifs at hfeed with hquote
    · exact ⟨hquote, rfl⟩
    · split at hfeed <;> cases hfeed
  | escape =>
    rw [Scan.feed_escape] at hfeed
    split_ifs at hfeed
  | unicode _ _ =>
    rw [Scan.feed_unicode] at hfeed
    simp only at hfeed
    split_ifs at hfeed
  | high _ _ => cases hfeed
  | highEscape _ _ => cases hfeed
  | low _ _ _ _ =>
    rw [Scan.feed_unicode] at hfeed
    simp only at hfeed
    split_ifs at hfeed
  | multibyte _ => cases hfeed

/-! ### Whole strings -/

/-- What was read since the opening quote: whole characters and a part of one. -/
def Within (scan : Scan) (raw : List UInt8) : Prop :=
  ∃ body part, raw = body ++ part ∧ Body body ∧ Part scan part

theorem within_base : Within .base [] :=
  ⟨[], [], rfl, .nil, .rest⟩

/-- A byte that does not fail keeps the string a beginning of a string body. -/
theorem Within.feed {scan scan' : Scan} {raw : List UInt8} {byte : UInt8} (hraw : Within scan raw)
    (hfeed : scan.feed byte = some (scan', false)) : Within scan' (raw ++ [byte]) := by
  obtain ⟨body, part, rfl, hbody, hpart⟩ := hraw
  rcases hpart.feed hfeed with hpart' | ⟨hcharacter, hpart'⟩
  · exact ⟨body, part ++ [byte], List.append_assoc .., hbody, hpart'⟩
  · exact ⟨body ++ (part ++ [byte]), [], by simp, hbody.snoc hcharacter, hpart'⟩

/-- The string closes at a quote, after a string body. -/
theorem Within.close {scan : Scan} {raw : List UInt8} {byte : UInt8} (hraw : Within scan raw)
    (hfeed : scan.feed byte = none) : byte = quote ∧ Body raw := by
  obtain ⟨body, part, rfl, hbody, hpart⟩ := hraw
  obtain ⟨hquote, rfl⟩ := hpart.close hfeed
  exact ⟨hquote, by rwa [List.append_nil]⟩

/-- The automaton after several bytes, none when it fails or meets the closing quote. -/
def Scan.read : Scan → List UInt8 → Option Scan
  | scan, [] => some scan
  | scan, byte :: bytes =>
    match scan.feed byte with
    | some (next, false) => next.read bytes
    | _ => none

theorem Scan.read_cons {scan next : Scan} {byte : UInt8}
    (hfeed : scan.feed byte = some (next, false))
    (bytes : List UInt8) : scan.read (byte :: bytes) = next.read bytes := by
  rw [Scan.read, hfeed]

theorem Scan.read_append {scan next : Scan} {first second : List UInt8}
    (hread : scan.read first = some next) : scan.read (first ++ second) = next.read second := by
  induction first generalizing scan with
  | nil =>
    obtain rfl : scan = next := by simpa [Scan.read] using hread
    rfl
  | cons byte first ih =>
    rw [Scan.read] at hread
    split at hread
    · next after hfeed =>
      rw [List.cons_append, Scan.read_cons hfeed]
      exact ih hread
    · cases hread

/-- A place between characters. -/
inductive Scan.AtRest : Scan → Prop
  | mk {codepoint : ℕ} {nextMin nextMax : UInt8} :
      AtRest ⟨false, 0, codepoint, 0, 0, nextMin, nextMax⟩

/-- The bytes that a first byte asks for complete the character. -/
theorem Scan.read_tail {codepoint : ℕ} (count : ℕ) : ∀ {nextMin nextMax : UInt8}
    {tail : List UInt8}, Tail count nextMin nextMax tail →
    ∃ next, Scan.read ⟨false, 0, codepoint, 0, count, nextMin, nextMax⟩ tail = some next ∧
      next.AtRest := by
  induction count with
  | zero =>
    intro nextMin nextMax tail htail
    match tail, htail with
    | [], _ => exact ⟨_, rfl, .mk⟩
  | succ count ih =>
    intro nextMin nextMax tail htail
    match tail, htail with
    | byte :: tail, ⟨⟨hmin, hmax⟩, htail⟩ =>
      have hfeed := @feed_utf8 codepoint nextMin nextMax byte count
      rw [decide_eq_false (UInt8.not_lt.mpr hmin), decide_eq_false (UInt8.not_lt.mpr hmax)] at hfeed
      rw [read_cons hfeed]
      exact ih htail

/-- The place after the digits of an escape. -/
def Scan.afterUnicode (surrogate unit : ℕ) (nextMin nextMax : UInt8) : Option Scan :=
  if surrogate = 3 then
    if isLowSurrogate unit then some ⟨false, 0, unit, 0, 0, nextMin, nextMax⟩ else none
  else if isHighSurrogate unit then some ⟨false, 0, unit, 1, 0, nextMin, nextMax⟩
  else if isLowSurrogate unit then none
  else some ⟨false, 0, unit, surrogate, 0, nextMin, nextMax⟩

/-- The digits of an escape are read to their value. -/
theorem Scan.read_hex (surrogate : ℕ) (nextMin nextMax : UInt8) (left : List UInt8) :
    ∀ {read : List UInt8} {byte : UInt8}, read.length + (left.length + 1) = 4 →
    (∀ digit ∈ byte :: left, (hexDigit digit).isSome) →
    Scan.read ⟨false, left.length + 1, hexValue read, surrogate, 0, nextMin, nextMax⟩
        (byte :: left) =
      afterUnicode surrogate (hexValue (read ++ byte :: left)) nextMin nextMax := by
  induction left with
  | nil =>
    intro read byte hlength hhex
    have hfeed := @feed_unicode (hexValue read) nextMin nextMax byte 0 surrogate
    have hbyte : (hexDigit byte).isNone = false := by
      simpa using hhex byte List.mem_cons_self
    simp only [hexValue_shift (show read.length < 4 by omega), hbyte, if_true, Bool.false_or]
      at hfeed
    unfold afterUnicode
    rw [Scan.read]
    simp only [List.length_nil, Nat.zero_add, hfeed]
    split_ifs with hthree hlow hhigh hlow <;> simp_all [Scan.read]
  | cons next left ih =>
    intro read byte hlength hhex
    have hfeed := @feed_unicode (hexValue read) nextMin nextMax byte (left.length + 1) surrogate
    have hbyte : (hexDigit byte).isNone = false := by
      simpa using hhex byte List.mem_cons_self
    simp only [hexValue_shift (show read.length < 4 by omega), hbyte, Nat.add_one_ne_zero,
      if_false] at hfeed
    rw [List.length_cons] at hlength ⊢
    rw [read_cons hfeed, ih (by rw [List.length_append, List.length_singleton]; omega)
      (fun digit hdigit ↦ hhex digit (List.mem_cons_of_mem _ hdigit))]
    simp

/-- An escape of four digits. -/
theorem Scan.read_unicode {hex : List UInt8} (hhex : IsHex hex) (surrogate : ℕ)
    (nextMin nextMax : UInt8) :
    Scan.read ⟨false, 4, 0, surrogate, 0, nextMin, nextMax⟩ hex =
      afterUnicode surrogate (hexValue hex) nextMin nextMax := by
  match hex, hhex with
  | byte :: left, ⟨hlength, hhex⟩ =>
    rw [List.length_cons] at hlength
    have hread := @Scan.read_hex surrogate nextMin nextMax left [] byte (by simpa using hlength)
      hhex
    rwa [hlength, List.nil_append] at hread

/-- A character brings the automaton back to rest. -/
theorem Scan.AtRest.read_character {scan : Scan} {word : List UInt8} (hscan : scan.AtRest)
    (hword : Character word) : ∃ next, scan.read word = some next ∧ next.AtRest := by
  obtain ⟨⟩ := hscan
  rename_i codepoint nextMin nextMax
  have hbackslash : Scan.feed ⟨false, 0, codepoint, 0, 0, nextMin, nextMax⟩ backslash =
      some (⟨true, 0, codepoint, 0, 0, nextMin, nextMax⟩, false) := rfl
  have hunicode : Scan.feed ⟨true, 0, codepoint, 0, 0, nextMin, nextMax⟩ letterU =
      some (⟨false, 4, 0, 0, 0, nextMin, nextMax⟩, false) := rfl
  cases hword with
  | @plain byte hcontrol hascii hquote hbackslash =>
    refine ⟨⟨false, 0, codepoint, 0, 0, nextMin, nextMax⟩, read_cons ?_ [], .mk⟩
    rw [feed_rest, begin, if_neg hquote, if_neg hbackslash, if_neg (UInt8.not_lt.mpr hcontrol),
      if_neg (UInt8.not_le.mpr hascii)]
  | multibyte hword =>
    obtain ⟨first, tail, count, low, high, rfl, hcontinuation, htail⟩ := tail_of_multibyte hword
    have hfirst := hword.high first List.mem_cons_self
    have hfeed : Scan.feed ⟨false, 0, codepoint, 0, 0, nextMin, nextMax⟩ first =
        some (⟨false, 0, codepoint, 0, count, low, high⟩, false) := by
      rw [feed_rest, begin, if_neg, if_neg, if_neg, if_pos hfirst, hcontinuation]
      · exact UInt8.not_lt.mpr (UInt8.le_trans (by decide) hfirst)
      · rintro rfl
        exact absurd hfirst (by decide)
      · rintro rfl
        exact absurd hfirst (by decide)
    rw [read_cons hfeed]
    exact read_tail count htail
  | @escape byte hsimple =>
    refine ⟨⟨false, 0, codepoint, 0, 0, nextMin, nextMax⟩,
      (read_cons hbackslash _).trans (read_cons ?_ []), .mk⟩
    rw [feed_escape, if_neg (isSimpleEscape_ne_letterU hsimple), hsimple]
    rfl
  | @unicode word hhex hhigh hlow =>
    refine ⟨⟨false, 0, hexValue word, 0, 0, nextMin, nextMax⟩, ?_, .mk⟩
    rw [read_cons hbackslash, read_cons hunicode, read_unicode hhex, afterUnicode,
      if_neg (by decide),
      if_neg (by rw [hhigh]; decide), if_neg (by rw [hlow]; decide)]
  | @pair high low hhex hhigh hhex' hlow =>
    refine ⟨⟨false, 0, hexValue low, 0, 0, nextMin, nextMax⟩, ?_, .mk⟩
    have hfirst : Scan.read ⟨false, 4, 0, 0, 0, nextMin, nextMax⟩ high =
        some ⟨false, 0, hexValue high, 1, 0, nextMin, nextMax⟩ := by
      rw [read_unicode hhex, afterUnicode, if_neg (by decide), if_pos hhigh]
    have hescape : Scan.feed ⟨false, 0, hexValue high, 1, 0, nextMin, nextMax⟩ backslash =
        some (⟨false, 0, hexValue high, 2, 0, nextMin, nextMax⟩, false) := rfl
    have hsecond : Scan.feed ⟨false, 0, hexValue high, 2, 0, nextMin, nextMax⟩ letterU =
        some (⟨false, 4, 0, 3, 0, nextMin, nextMax⟩, false) := rfl
    rw [read_cons hbackslash, read_cons hunicode, read_append hfirst, read_cons hescape,
      read_cons hsecond, read_unicode hhex', afterUnicode, if_pos rfl, if_pos hlow]

/-- Every string body brings the automaton back to rest. -/
theorem Scan.AtRest.read_body {scan : Scan} {raw : List UInt8} (hscan : scan.AtRest)
    (hraw : Body raw) : ∃ next, scan.read raw = some next ∧ next.AtRest := by
  induction hraw generalizing scan with
  | nil => exact ⟨scan, rfl, hscan⟩
  | cons hword _ ih =>
    obtain ⟨next, hread, hnext⟩ := hscan.read_character hword
    rw [read_append hread]
    exact ih hnext

/-- A string at rest closes at a quote. -/
theorem Scan.AtRest.close {scan : Scan} (hscan : scan.AtRest) : scan.feed quote = none := by
  cases hscan
  rfl

/-! ### The captured key -/

/-- The capture of a key of which this much was read. -/
def captured (raw : List UInt8) : Option (List UInt8) :=
  if raw.length + 1 ≤ 256 then some (quote :: raw) else none

theorem capture_captured (raw : List UInt8) (byte : UInt8) :
    StringToken.capture (captured raw) byte = captured (raw ++ [byte]) := by
  unfold StringToken.capture captured
  by_cases hlength : raw.length + 1 ≤ 256
  · rw [if_pos hlength, Option.bind_some, List.length_cons, List.length_append,
      List.length_singleton]
    by_cases hnext : raw.length + 1 < 256
    · rw [if_pos hnext, if_pos (by omega), List.cons_append]
    · rw [if_neg hnext, if_neg (by omega)]
  · rw [if_neg hlength, if_neg (by rw [List.length_append]; omega), Option.bind_none]

/-- The key that the observer makes of a string: a long one counts as empty. -/
def keyText (raw : List UInt8) : List UInt8 :=
  if raw.length + 2 ≤ 256 then decode raw else []

/-- Assumes: the laws of the parser. The capture of a whole key gives its text. -/
theorem captured_key {F64 : Type} {serde : Serde F64} (hserde : serde.Lawful) {raw : List UInt8}
    (hraw : Body raw) :
    (captured (raw ++ [quote])).elim (some []) serde.fromSliceString = some (keyText raw) := by
  unfold captured keyText
  rw [List.length_append, List.length_singleton]
  by_cases hlength : raw.length + 2 ≤ 256
  · rw [if_pos hlength, if_pos hlength]
    exact hserde.fromSliceString_body raw hraw
  · rw [if_neg hlength, if_neg hlength]
    rfl

end Relayna.ResponseCost

import Mathlib.Data.List.Basic
import Mathlib.Data.Nat.Notation

/-!
# The lexical syntax of JSON

Strings and numbers of RFC 8259, over the bytes of a UTF-8 text. A string body is a sequence of
characters: plain ASCII, a multi-byte sequence in the form of RFC 3629, or an escape, where a
surrogate is written as a high and a low escape and never alone. `decode` is the text that a string
body stands for, in UTF-8. `length_le_decode` bounds a body by its text.
-/

set_option autoImplicit false
set_option relaxedAutoImplicit false

namespace Relayna.Library.Json

/-! ### Bytes -/

/-- The bytes of a text of ASCII characters. -/
def ascii (text : String) : List UInt8 :=
  text.toList.map fun character ↦ UInt8.ofNat character.toNat

abbrev quote : UInt8 := 34
abbrev plus : UInt8 := 43
abbrev comma : UInt8 := 44
abbrev minus : UInt8 := 45
abbrev dot : UInt8 := 46
abbrev zero : UInt8 := 48
abbrev colon : UInt8 := 58
abbrev openBracket : UInt8 := 91
abbrev backslash : UInt8 := 92
abbrev closeBracket : UInt8 := 93
abbrev letterU : UInt8 := 117
abbrev openBrace : UInt8 := 123
abbrev closeBrace : UInt8 := 125

/-- Space, tab, carriage return and line feed. -/
def isWhitespace (byte : UInt8) : Bool :=
  byte = 32 || byte = 9 || byte = 13 || byte = 10

def isDigit (byte : UInt8) : Bool :=
  48 ≤ byte && byte ≤ 57

def isExponentMark (byte : UInt8) : Bool :=
  byte = 101 || byte = 69

/-- The value of a hexadecimal digit. -/
def hexDigit (byte : UInt8) : Option ℕ :=
  if 48 ≤ byte ∧ byte ≤ 57 then some (byte.toNat - 48)
  else if 97 ≤ byte ∧ byte ≤ 102 then some (byte.toNat - 87)
  else if 65 ≤ byte ∧ byte ≤ 70 then some (byte.toNat - 55)
  else none

/-- Four hexadecimal digits. -/
def IsHex (word : List UInt8) : Prop :=
  word.length = 4 ∧ ∀ byte ∈ word, (hexDigit byte).isSome

/-- The number that hexadecimal digits denote. -/
def hexValue (word : List UInt8) : ℕ :=
  word.foldl (fun value byte ↦ value * 16 + (hexDigit byte).getD 0) 0

def isHighSurrogate (unit : ℕ) : Bool :=
  0xd800 ≤ unit && unit ≤ 0xdbff

def isLowSurrogate (unit : ℕ) : Bool :=
  0xdc00 ≤ unit && unit ≤ 0xdfff

/-! ### Strings -/

/-- A byte after the first one of a multi-byte character. -/
def isContinuation (byte : UInt8) : Bool :=
  0x80 ≤ byte && byte ≤ 0xbf

/-- A character of more than one byte: the shortest form of a code point that is no surrogate and at
most `10FFFF`. -/
inductive Multibyte : List UInt8 → Prop
  | two {first second : UInt8} (hlow : 0xc2 ≤ first) (hhigh : first ≤ 0xdf)
      (hsecond : isContinuation second) : Multibyte [first, second]
  | three {first second third : UInt8} (hlow : 0xe0 ≤ first) (hhigh : first ≤ 0xef)
      (hsecond : isContinuation second) (hthird : isContinuation third)
      (hshortest : first = 0xe0 → 0xa0 ≤ second) (hsurrogate : first = 0xed → second ≤ 0x9f) :
      Multibyte [first, second, third]
  | four {first second third fourth : UInt8} (hlow : 0xf0 ≤ first) (hhigh : first ≤ 0xf4)
      (hsecond : isContinuation second) (hthird : isContinuation third)
      (hfourth : isContinuation fourth) (hshortest : first = 0xf0 → 0x90 ≤ second)
      (hrange : first = 0xf4 → second ≤ 0x8f) : Multibyte [first, second, third, fourth]

/-- The escapes of one letter: quote, backslash, slash, and `b`, `f`, `n`, `r`, `t`. -/
def isSimpleEscape (byte : UInt8) : Bool :=
  byte = quote || byte = backslash || byte = 47 || byte = 98 || byte = 102 || byte = 110 ||
    byte = 114 || byte = 116

/-- One character of a string, as it is written. -/
inductive Character : List UInt8 → Prop
  | plain {byte : UInt8} (hcontrol : 0x20 ≤ byte) (hascii : byte < 0x80) (hquote : byte ≠ quote)
      (hbackslash : byte ≠ backslash) : Character [byte]
  | multibyte {word : List UInt8} (hword : Multibyte word) : Character word
  | escape {byte : UInt8} (hsimple : isSimpleEscape byte) : Character [backslash, byte]
  | unicode {word : List UInt8} (hhex : IsHex word)
      (hhigh : isHighSurrogate (hexValue word) = false)
      (hlow : isLowSurrogate (hexValue word) = false) : Character (backslash :: letterU :: word)
  | pair {high low : List UInt8} (hhex : IsHex high) (hhigh : isHighSurrogate (hexValue high))
      (hhex' : IsHex low) (hlow : isLowSurrogate (hexValue low)) :
      Character (backslash :: letterU :: (high ++ backslash :: letterU :: low))

/-- What may stand between the quotes of a string. -/
inductive Body : List UInt8 → Prop
  | nil : Body []
  | cons {word rest : List UInt8} (hword : Character word) (hrest : Body rest) : Body (word ++ rest)

theorem Body.append {left right : List UInt8} (hleft : Body left) (hright : Body right) :
    Body (left ++ right) := by
  induction hleft with
  | nil => exact hright
  | cons hword _ ih =>
    rw [List.append_assoc]
    exact .cons hword ih

theorem Body.snoc {left word : List UInt8} (hleft : Body left) (hword : Character word) :
    Body (left ++ word) := by
  have hbody := Body.cons hword .nil
  rw [List.append_nil] at hbody
  exact hleft.append hbody

/-! ### The text of a string -/

/-- The byte that an escape of one letter stands for. -/
def unescape (byte : UInt8) : UInt8 :=
  if byte = 98 then 8
  else if byte = 102 then 12
  else if byte = 110 then 10
  else if byte = 114 then 13
  else if byte = 116 then 9
  else byte

/-- The UTF-8 form of a code point. -/
def utf8Encode (point : ℕ) : List UInt8 :=
  if point < 0x80 then [UInt8.ofNat point]
  else if point < 0x800 then
    [UInt8.ofNat (0xc0 + point / 64), UInt8.ofNat (0x80 + point % 64)]
  else if point < 0x10000 then
    [UInt8.ofNat (0xe0 + point / 4096), UInt8.ofNat (0x80 + point / 64 % 64),
      UInt8.ofNat (0x80 + point % 64)]
  else
    [UInt8.ofNat (0xf0 + point / 262144), UInt8.ofNat (0x80 + point / 4096 % 64),
      UInt8.ofNat (0x80 + point / 64 % 64), UInt8.ofNat (0x80 + point % 64)]

/-- The code point of a pair of surrogates. -/
def pairPoint (high low : ℕ) : ℕ :=
  0x10000 + (high - 0xd800) * 1024 + (low - 0xdc00)

/-- The text that a string body stands for, in UTF-8. -/
def decode : List UInt8 → List UInt8
  | [] => []
  | first :: rest =>
    if first ≠ backslash then first :: decode rest
    else
      match rest with
      | [] => []
      | kind :: escaped =>
        if kind ≠ letterU then unescape kind :: decode escaped
        else
          match escaped with
          | a :: b :: c :: d :: following =>
            if isHighSurrogate (hexValue [a, b, c, d]) then
              match following with
              | _ :: _ :: e :: f :: g :: h :: final =>
                utf8Encode (pairPoint (hexValue [a, b, c, d]) (hexValue [e, f, g, h])) ++
                  decode final
              | _ => []
            else utf8Encode (hexValue [a, b, c, d]) ++ decode following
          | _ => []

@[simp] theorem decode_nil : decode [] = [] := by
  rw [decode.eq_def]

theorem decode_cons_of_ne {first : UInt8} (hfirst : first ≠ backslash) (rest : List UInt8) :
    decode (first :: rest) = first :: decode rest := by
  rw [decode.eq_def]
  exact if_pos hfirst

theorem decode_escape {kind : UInt8} (hkind : kind ≠ letterU) (rest : List UInt8) :
    decode (backslash :: kind :: rest) = unescape kind :: decode rest := by
  rw [decode.eq_def]
  simp only [ne_eq, not_true_eq_false, if_false, hkind, not_false_eq_true, if_true]

theorem decode_unicode {word : List UInt8} (hlength : word.length = 4)
    (hhigh : isHighSurrogate (hexValue word) = false) (rest : List UInt8) :
    decode (backslash :: letterU :: (word ++ rest)) = utf8Encode (hexValue word) ++
      decode rest := by
  obtain ⟨a, b, c, d, rfl⟩ := List.length_eq_four.mp hlength
  rw [decode.eq_def]
  simp [hhigh]

theorem decode_pair {high low : List UInt8} (hlength : high.length = 4) (hlength' : low.length = 4)
    (hhigh : isHighSurrogate (hexValue high)) (rest : List UInt8) :
    decode (backslash :: letterU :: (high ++ backslash :: letterU :: low) ++ rest) =
      utf8Encode (pairPoint (hexValue high) (hexValue low)) ++ decode rest := by
  obtain ⟨a, b, c, d, rfl⟩ := List.length_eq_four.mp hlength
  obtain ⟨e, f, g, h, rfl⟩ := List.length_eq_four.mp hlength'
  rw [decode.eq_def]
  simp [hhigh]

theorem decode_append_of_ne {word : List UInt8} (hword : ∀ byte ∈ word, byte ≠ backslash)
    (rest : List UInt8) : decode (word ++ rest) = word ++ decode rest := by
  induction word with
  | nil => rfl
  | cons first word ih =>
    rw [List.cons_append, decode_cons_of_ne (hword _ List.mem_cons_self),
      ih fun byte hbyte ↦ hword _ (List.mem_cons_of_mem _ hbyte), List.cons_append]

theorem one_le_length_utf8Encode (point : ℕ) : 1 ≤ (utf8Encode point).length := by
  unfold utf8Encode
  split_ifs <;> simp

theorem length_utf8Encode_pairPoint (high low : ℕ) :
    (utf8Encode (pairPoint high low)).length = 4 := by
  have hlarge : 0x10000 ≤ pairPoint high low := by
    unfold pairPoint
    omega
  unfold utf8Encode
  rw [if_neg (by omega), if_neg (by omega), if_neg (by omega)]
  rfl

/-- The bytes of a multi-byte character lie outside ASCII. -/
theorem Multibyte.high {word : List UInt8} (hword : Multibyte word) :
    ∀ byte ∈ word, 0x80 ≤ byte := by
  have hcontinuation {byte : UInt8} (hbyte : isContinuation byte) : 0x80 ≤ byte := by
    simp only [isContinuation, Bool.and_eq_true, decide_eq_true_eq] at hbyte
    exact hbyte.1
  have hlead {low first : UInt8} (hlow : low ≤ first) (hbound : 0x80 ≤ low) : 0x80 ≤ first :=
    UInt8.le_trans hbound hlow
  cases hword with
  | two hlow _ hsecond =>
    simp only [List.mem_cons, List.not_mem_nil, or_false, forall_eq_or_imp, forall_eq]
    exact ⟨hlead hlow (by decide), hcontinuation hsecond⟩
  | three hlow _ hsecond hthird =>
    simp only [List.mem_cons, List.not_mem_nil, or_false, forall_eq_or_imp, forall_eq]
    exact ⟨hlead hlow (by decide), hcontinuation hsecond, hcontinuation hthird⟩
  | four hlow _ hsecond hthird hfourth =>
    simp only [List.mem_cons, List.not_mem_nil, or_false, forall_eq_or_imp, forall_eq]
    exact ⟨hlead hlow (by decide), hcontinuation hsecond, hcontinuation hthird,
      hcontinuation hfourth⟩

theorem isSimpleEscape_ne_letterU {byte : UInt8} (hbyte : isSimpleEscape byte) :
    byte ≠ letterU := by
  rintro rfl
  revert hbyte
  decide

/-- A character takes at most six bytes for each byte of the text it stands for. -/
theorem Character.decode_append {word : List UInt8} (hword : Character word) (rest : List UInt8) :
    ∃ text : List UInt8, decode (word ++ rest) = text ++ decode rest ∧
      word.length ≤ 6 * text.length := by
  cases hword with
  | plain hcontrol hascii hquote hbackslash =>
    exact ⟨_, decode_append_of_ne (by simpa using hbackslash) rest, by simp⟩
  | multibyte hword =>
    refine ⟨_, decode_append_of_ne (fun byte hbyte ↦ ?_) rest, by omega⟩
    rintro rfl
    exact absurd (hword.high _ hbyte) (by decide)
  | escape hsimple =>
    exact ⟨[unescape _], decode_escape (isSimpleEscape_ne_letterU hsimple) rest, by simp⟩
  | @unicode word hhex hhigh hlow =>
    refine ⟨_, decode_unicode hhex.1 hhigh rest, ?_⟩
    have hone := one_le_length_utf8Encode (hexValue word)
    simp only [List.length_cons, hhex.1]
    omega
  | pair hhex hhigh hhex' hlow =>
    refine ⟨_, decode_pair hhex.1 hhex'.1 hhigh rest, ?_⟩
    simp [length_utf8Encode_pairPoint, hhex.1, hhex'.1]

/-- A string body is at most six times as long as its text. -/
theorem length_le_decode {raw : List UInt8} (hraw : Body raw) :
    raw.length ≤ 6 * (decode raw).length := by
  induction hraw with
  | nil => simp
  | @cons word rest hword _ ih =>
    obtain ⟨text, htext, hlength⟩ := hword.decode_append rest
    rw [htext, List.length_append, List.length_append]
    omega

/-! ### Numbers -/

/-- A nonempty run of digits. -/
def Digits (word : List UInt8) : Prop :=
  word ≠ [] ∧ ∀ byte ∈ word, isDigit byte

/-- The digits of an integer: no leading zero. -/
inductive Natural : List UInt8 → Prop
  | zero : Natural [zero]
  | many {first : UInt8} {rest : List UInt8} (hfirst : isDigit first) (hzero : first ≠ zero)
      (hrest : ∀ byte ∈ rest, isDigit byte) : Natural (first :: rest)

/-- An integer with an optional minus sign. -/
inductive Signed : List UInt8 → Prop
  | positive {word : List UInt8} (hword : Natural word) : Signed word
  | negative {word : List UInt8} (hword : Natural word) : Signed (minus :: word)

/-- An integer and an optional fraction. -/
inductive Mantissa : List UInt8 → Prop
  | integer {word : List UInt8} (hword : Signed word) : Mantissa word
  | fraction {word digits : List UInt8} (hword : Signed word) (hdigits : Digits digits) :
      Mantissa (word ++ dot :: digits)

/-- A number: a mantissa and an optional exponent. -/
inductive Number : List UInt8 → Prop
  | mantissa {word : List UInt8} (hword : Mantissa word) : Number word
  | exponent {word digits : List UInt8} {mark : UInt8} (hword : Mantissa word)
      (hmark : isExponentMark mark) (hdigits : Digits digits) : Number (word ++ mark :: digits)
  | signedExponent {word digits : List UInt8} {mark sign : UInt8} (hword : Mantissa word)
      (hmark : isExponentMark mark) (hsign : sign = plus ∨ sign = minus) (hdigits : Digits digits) :
      Number (word ++ mark :: sign :: digits)

end Relayna.Library.Json

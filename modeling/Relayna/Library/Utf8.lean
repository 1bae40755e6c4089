import Mathlib.Algebra.Order.Group.Nat
import Mathlib.Data.List.Basic

/-!
# Texts and their bytes

The bytes of a text in UTF-8 (`encode`) and the text of bytes (`decode`, and `decodeLossy` for bytes
that may be none), as lists. `decode_encode`
and `eq_encode_of_decode` make them inverse. The bytes outside ASCII are those of the characters
outside ASCII (`highBytes_encode`), and bytes without any are a text.
-/

set_option autoImplicit false
set_option relaxedAutoImplicit false

namespace Relayna.Library.Utf8

/-- A character outside ASCII. -/
def isNonAscii (character : Char) : Bool :=
  decide (127 < character.toNat)

/-- The characters with the Unicode property `White_Space`. -/
def isWhitespace (character : Char) : Bool :=
  let point := character.toNat
  decide ((9 ≤ point ∧ point ≤ 13) ∨ point = 0x20 ∨ point = 0x85 ∨ point = 0xa0 ∨ point = 0x1680 ∨
    (0x2000 ≤ point ∧ point ≤ 0x200a) ∨ point = 0x2028 ∨ point = 0x2029 ∨ point = 0x202f ∨
    point = 0x205f ∨ point = 0x3000)

/-- The bytes of a text. -/
def encode (text : List Char) : List UInt8 :=
  text.flatMap String.utf8EncodeChar

/-- The text of bytes, if they are one. -/
def decode (bytes : List UInt8) : Option (List Char) :=
  bytes.toByteArray.utf8Decode?.map Array.toList

/-- How many bytes begin with this one in UTF-8, none if it begins none. -/
def charWidth (byte : UInt8) : ℕ :=
  if byte.toNat < 0x80 then 1
  else if 0xc2 ≤ byte.toNat ∧ byte.toNat ≤ 0xdf then 2
  else if 0xe0 ≤ byte.toNat ∧ byte.toNat ≤ 0xef then 3
  else if 0xf0 ≤ byte.toNat ∧ byte.toNat ≤ 0xf4 then 4
  else 0

/-- Whether a byte may come second behind a first one: no overlong form, no surrogate and nothing
above the last code point. -/
def mayFollow (first second : UInt8) : Bool :=
  let least := if first = 0xe0 then 0xa0 else if first = 0xf0 then 0x90 else 0x80
  let most := if first = 0xed then 0x9f else if first = 0xf4 then 0x8f else 0xbf
  decide (least ≤ second.toNat ∧ second.toNat ≤ most)

/-- The bytes behind the first one of a character, as far as they belong to it. -/
def continuation (first : UInt8) (rest : List UInt8) : List UInt8 :=
  match rest.take (charWidth first - 1) with
  | [] => []
  | second :: others =>
    if mayFollow first second then
      second :: others.takeWhile fun byte ↦ decide (0x80 ≤ byte.toNat ∧ byte.toNat ≤ 0xbf)
    else []

/-- The code point of the first byte and the bytes behind it. -/
def codePoint (first : UInt8) (rest : List UInt8) : ℕ :=
  let bits := if rest.length = 0 then 128 else 2 ^ (6 - rest.length)
  rest.foldl (fun point byte ↦ point * 64 + byte.toNat % 64) (first.toNat % bits)

/-- The text of bytes, with a replacement character for each longest part of a character. -/
def decodeLossy : List UInt8 → List Char
  | [] => []
  | first :: rest =>
    let following := continuation first rest
    (if following.length + 1 = charWidth first then Char.ofNat (codePoint first following)
      else '\uFFFD') :: decodeLossy (rest.drop following.length)
termination_by bytes => bytes.length
decreasing_by
  rw [List.length_drop, List.length_cons]
  omega

@[simp] theorem encode_nil : encode [] = [] :=
  rfl

theorem encode_append (first second : List Char) :
    encode (first ++ second) = encode first ++ encode second :=
  List.flatMap_append

theorem encode_eq_nil_iff {text : List Char} : encode text = [] ↔ text = [] := by
  constructor
  · intro hnil
    cases text with
    | nil => rfl
    | cons character rest =>
      have hcharacter := List.flatMap_eq_nil_iff.mp hnil character List.mem_cons_self
      exact absurd hcharacter String.utf8EncodeChar_ne_nil
  · rintro rfl
    rfl

@[simp] theorem decode_encode (text : List Char) : decode (encode text) = some text := by
  change (List.utf8Encode text).utf8Decode?.map Array.toList = some text
  rw [List.utf8Decode?_utf8Encode]
  rfl

/-- Bytes that are a text are the bytes of that text. -/
theorem eq_encode_of_decode {bytes : List UInt8} {text : List Char}
    (htext : decode bytes = some text) : bytes = encode text := by
  have hvalid : bytes.toByteArray.utf8Decode?.isSome := by
    rw [← Option.isSome_map (f := Array.toList)]
    exact Option.isSome_of_eq_some htext
  obtain ⟨other, hother⟩ := ByteArray.isSome_utf8Decode?_iff.mp hvalid
  have hbytes : bytes = encode other := List.toByteArray_inj.mp hother
  rw [hbytes, decode_encode] at htext
  rw [hbytes, Option.some.inj htext]

/-- The bytes outside ASCII. -/
def highBytes (bytes : List UInt8) : ℕ :=
  bytes.countP fun byte ↦ decide (127 < byte.toNat)

theorem highBytes_append (first second : List UInt8) :
    highBytes (first ++ second) = highBytes first + highBytes second :=
  List.countP_append

/-- A character of ASCII is one byte. -/
theorem utf8EncodeChar_of_ascii {character : Char} (hascii : isNonAscii character = false) :
    String.utf8EncodeChar character = [UInt8.ofNat character.toNat] := by
  have hle : character.val.toNat ≤ 0x7f := by
    rw [isNonAscii, decide_eq_false_iff_not] at hascii
    rw [Char.toNat_val]
    omega
  unfold String.utf8EncodeChar
  dsimp only
  rw [if_pos hle, Char.toNat_val]

/-- Bytes of ASCII are a text. -/
theorem decode_of_highBytes_eq_zero {bytes : List UInt8} (hascii : highBytes bytes = 0) :
    (decode bytes).isSome := by
  have hpoints : ∀ point < 128, (Char.ofNat point).toNat = point := by decide
  have hencode : bytes = encode (bytes.map fun byte ↦ Char.ofNat byte.toNat) := by
    induction bytes with
    | nil => rfl
    | cons byte rest ih =>
      obtain ⟨hrest, hbyte⟩ : highBytes rest = 0 ∧ ¬ 127 < byte.toNat := by
        simpa [highBytes, List.countP_cons] using hascii
      have hnat : (Char.ofNat byte.toNat).toNat = byte.toNat := hpoints byte.toNat (by omega)
      have hchar : isNonAscii (Char.ofNat byte.toNat) = false := by
        rw [isNonAscii, hnat, decide_eq_false_iff_not]
        exact hbyte
      rw [encode, List.map_cons, List.flatMap_cons, utf8EncodeChar_of_ascii hchar, hnat,
        UInt8.ofNat_toNat]
      exact congrArg (byte :: ·) (ih hrest)
  rw [hencode, decode_encode]
  rfl

/-- The bytes of ASCII characters are ASCII. -/
theorem highBytes_encode (text : List Char) :
    highBytes (encode text) = highBytes (encode (text.filter isNonAscii)) := by
  induction text with
  | nil => rfl
  | cons character rest ih =>
    have hcons : encode (character :: rest) = String.utf8EncodeChar character ++ encode rest := rfl
    rw [hcons, highBytes_append, ih, List.filter_cons]
    split_ifs with hcharacter
    · exact (highBytes_append _ _).symm
    · rw [Bool.not_eq_true] at hcharacter
      have hbyte : highBytes [UInt8.ofNat character.toNat] = 0 := by
        rw [isNonAscii, decide_eq_false_iff_not] at hcharacter
        have hlt : character.toNat % 2 ^ 8 = character.toNat := Nat.mod_eq_of_lt (by omega)
        simp [highBytes, List.countP_cons]
        omega
      rw [utf8EncodeChar_of_ascii hcharacter, hbyte, Nat.zero_add]

end Relayna.Library.Utf8

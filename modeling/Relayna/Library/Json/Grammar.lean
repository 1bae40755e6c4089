import Mathlib.Data.FinEnum
import Relayna.Library.Json.Text

/-!
# Documents of JSON

The values of RFC 8259 as syntax trees, and the texts of each value. A tree keeps the literal of a
number and the body of a string as they are written, with the proof that they are well formed, so
that nothing about their meaning is decided here. `Derives` is the grammar: lists of elements and
members grow on the right, as a reader of the text meets them. `Document` is a value between white
space.

`Value.get` looks a key up by its text, and the last of several members with that key counts.
-/

set_option autoImplicit false
set_option relaxedAutoImplicit false

namespace Relayna.Library.Json

/-! ### Values -/

/-- What stands between the quotes of a string. -/
abbrev StringBody := { raw : List UInt8 // Body raw }

abbrev Literal := { literal : List UInt8 // Number literal }

/-- A value of JSON: a number by its literal, a string or a key by its body. -/
inductive Value
  | null
  | bool (value : Bool)
  | number (literal : Literal)
  | string (raw : StringBody)
  | array (elements : List Value)
  | object (members : List (StringBody × Value))

namespace Value

mutual

/-- How deep containers are nested in a value. -/
def depth : Value → ℕ
  | .array elements => 1 + depthElements elements
  | .object members => 1 + depthMembers members
  | _ => 0

def depthElements : List Value → ℕ
  | [] => 0
  | value :: elements => max (depth value) (depthElements elements)

def depthMembers : List (StringBody × Value) → ℕ
  | [] => 0
  | (_, value) :: members => max (depth value) (depthMembers members)

end

mutual

/-- The number literals in a value, in the order of the text. -/
def literals : Value → List Literal
  | .number literal => [literal]
  | .array elements => literalsElements elements
  | .object members => literalsMembers members
  | _ => []

/-- The number literals in the elements of an array. -/
def literalsElements : List Value → List Literal
  | [] => []
  | value :: elements => literals value ++ literalsElements elements

/-- The number literals in the members of an object. -/
def literalsMembers : List (StringBody × Value) → List Literal
  | [] => []
  | (_, value) :: members => literals value ++ literalsMembers members

end

/-- An object, and nothing else. -/
def isObject : Value → Bool
  | .object _ => true
  | _ => false

/-- The last member of the list whose key has the given text. -/
def lastMember (key : List UInt8) (members : List (StringBody × Value)) : Option Value :=
  (members.reverse.find? fun member ↦ decode member.1.1 = key).map Prod.snd

/-- The value of a key in an object. -/
def get (key : List UInt8) : Value → Option Value
  | .object members => lastMember key members
  | _ => none

/-- The value at the end of a path of keys. -/
def pointer : List (List UInt8) → Value → Option Value
  | [], value => some value
  | key :: path, value => (value.get key).bind (pointer path)

theorem depthElements_snoc (elements : List Value) (value : Value) :
    depthElements (elements ++ [value]) = max (depthElements elements) value.depth := by
  induction elements with
  | nil => simp [depthElements]
  | cons first elements ih => simp [depthElements, ih, Nat.max_assoc]

theorem depthMembers_snoc (members : List (StringBody × Value)) (key : StringBody)
    (value : Value) :
    depthMembers (members ++ [(key, value)]) = max (depthMembers members) value.depth := by
  induction members with
  | nil => simp [depthMembers]
  | cons first members ih => simp [depthMembers, ih, Nat.max_assoc]

theorem lastMember_cons (key : List UInt8) (raw : StringBody) (value : Value)
    (members : List (StringBody × Value)) :
    lastMember key ((raw, value) :: members) =
      (lastMember key members).or (if decode raw.1 = key then some value else none) := by
  unfold lastMember
  rw [List.reverse_cons, List.find?_append]
  cases members.reverse.find? fun member ↦ decide (decode member.1.1 = key) with
  | some member => rfl
  | none => by_cases hkey : decode raw.1 = key <;> simp [hkey]

end Value

/-! ### The grammar -/

/-- A run of white space. -/
def Skip (gap : List UInt8) : Prop :=
  ∀ byte ∈ gap, isWhitespace byte

theorem Skip.nil : Skip [] :=
  fun _ hbyte ↦ absurd hbyte List.not_mem_nil

theorem Skip.snoc {gap : List UInt8} {byte : UInt8} (hgap : Skip gap) (hbyte : isWhitespace byte) :
    Skip (gap ++ [byte]) := by
  intro other hother
  rcases List.mem_append.mp hother with hold | hnew
  · exact hgap other hold
  · rw [List.mem_singleton.mp hnew]
    exact hbyte

/-- What a text can be a text of. -/
inductive Symbol
  | value (value : Value)
  | element (value : Value)
  | member (raw : StringBody) (value : Value)
  | elements (elements : List Value)
  | members (members : List (StringBody × Value))

/-- The texts of a symbol. An element and a member take the white space around them. -/
inductive Derives : Symbol → List UInt8 → Prop
  | nullWord : Derives (.value .null) [110, 117, 108, 108]
  | trueWord : Derives (.value (.bool true)) [116, 114, 117, 101]
  | falseWord : Derives (.value (.bool false)) [102, 97, 108, 115, 101]
  | number (literal : Literal) : Derives (.value (.number literal)) literal.1
  | string (raw : StringBody) : Derives (.value (.string raw)) (quote :: (raw.1 ++ [quote]))
  | emptyArray {gap : List UInt8} (hgap : Skip gap) :
      Derives (.value (.array [])) (openBracket :: (gap ++ [closeBracket]))
  | array {elements : List Value} {text : List UInt8} (htext : Derives (.elements elements) text) :
      Derives (.value (.array elements)) (openBracket :: (text ++ [closeBracket]))
  | emptyObject {gap : List UInt8} (hgap : Skip gap) :
      Derives (.value (.object [])) (openBrace :: (gap ++ [closeBrace]))
  | object {members : List (StringBody × Value)} {text : List UInt8}
      (htext : Derives (.members members) text) :
      Derives (.value (.object members)) (openBrace :: (text ++ [closeBrace]))
  | element {value : Value} {before text after : List UInt8} (hbefore : Skip before)
      (htext : Derives (.value value) text) (hafter : Skip after) :
      Derives (.element value) (before ++ text ++ after)
  | member {raw : StringBody} {value : Value} {before between text : List UInt8}
      (hbefore : Skip before) (hbetween : Skip between) (htext : Derives (.element value) text) :
      Derives (.member raw value)
        (before ++ quote :: (raw.1 ++ quote :: (between ++ colon :: text)))
  | firstElement {value : Value} {text : List UInt8} (htext : Derives (.element value) text) :
      Derives (.elements [value]) text
  | nextElement {elements : List Value} {value : Value} {text next : List UInt8}
      (htext : Derives (.elements elements) text) (hnext : Derives (.element value) next) :
      Derives (.elements (elements ++ [value])) (text ++ comma :: next)
  | firstMember {raw : StringBody} {value : Value} {text : List UInt8}
      (htext : Derives (.member raw value) text) : Derives (.members [(raw, value)]) text
  | nextMember {members : List (StringBody × Value)} {raw : StringBody} {value : Value}
      {text next : List UInt8} (htext : Derives (.members members) text)
      (hnext : Derives (.member raw value) next) :
      Derives (.members (members ++ [(raw, value)])) (text ++ comma :: next)

/-- The text of a whole document. -/
def Document (value : Value) (text : List UInt8) : Prop :=
  Derives (.element value) text

/-! ### White space at the end -/

section Gap

variable {text : List UInt8} {byte : UInt8}

theorem Derives.element_snoc {value : Value} (htext : Derives (.element value) text)
    (hbyte : isWhitespace byte) : Derives (.element value) (text ++ [byte]) := by
  cases htext with
  | element hbefore htext hafter =>
    rw [List.append_assoc]
    exact .element hbefore htext (hafter.snoc hbyte)

theorem Derives.member_snoc {raw : StringBody} {value : Value}
    (htext : Derives (.member raw value) text) (hbyte : isWhitespace byte) :
    Derives (.member raw value) (text ++ [byte]) := by
  cases htext with
  | @member raw value before between text hbefore hbetween htext =>
    have hmember := @Derives.member raw value _ _ _ hbefore hbetween (htext.element_snoc hbyte)
    simpa using hmember

theorem Derives.elements_snoc {elements : List Value} (htext : Derives (.elements elements) text)
    (hbyte : isWhitespace byte) : Derives (.elements elements) (text ++ [byte]) := by
  cases htext with
  | firstElement htext => exact .firstElement (htext.element_snoc hbyte)
  | nextElement htext hnext =>
    have helements := Derives.nextElement htext (hnext.element_snoc hbyte)
    simpa using helements

theorem Derives.members_snoc {members : List (StringBody × Value)}
    (htext : Derives (.members members) text) (hbyte : isWhitespace byte) :
    Derives (.members members) (text ++ [byte]) := by
  cases htext with
  | firstMember htext => exact .firstMember (htext.member_snoc hbyte)
  | nextMember htext hnext =>
    have hmembers := Derives.nextMember htext (hnext.member_snoc hbyte)
    simpa using hmembers

end Gap

/-! ### A document that is one number -/

/-- The bytes that a number is written with. -/
def isNumberByte (byte : UInt8) : Bool :=
  isDigit byte || byte = plus || byte = minus || byte = dot || isExponentMark byte

/-- The first byte of a number. -/
def isNumberStart (byte : UInt8) : Bool :=
  isDigit byte || byte = minus

theorem isNumberByte_of_isDigit {byte : UInt8} (hbyte : isDigit byte) : isNumberByte byte := by
  simp [isNumberByte, hbyte]

theorem isNumberByte_of_isExponentMark {byte : UInt8} (hbyte : isExponentMark byte) :
    isNumberByte byte := by
  simp [isNumberByte, hbyte]

theorem not_isWhitespace_of_isNumberByte :
    ∀ byte : UInt8, isNumberByte byte → isWhitespace byte = false := by
  grind [isNumberByte, isDigit, isExponentMark, isWhitespace]

theorem Natural.bytes {word : List UInt8} (hword : Natural word) :
    ∀ byte ∈ word, isDigit byte := by
  cases hword with
  | zero =>
    intro byte hbyte
    rw [List.mem_singleton.mp hbyte]
    rfl
  | many hfirst _ hrest => simpa using ⟨hfirst, hrest⟩

theorem Signed.bytes {word : List UInt8} (hword : Signed word) :
    ∀ byte ∈ word, isNumberByte byte := by
  cases hword with
  | positive hword => exact fun byte hbyte ↦ isNumberByte_of_isDigit (hword.bytes byte hbyte)
  | negative hword =>
    rw [List.forall_mem_cons]
    exact ⟨rfl, fun byte hbyte ↦ isNumberByte_of_isDigit (hword.bytes byte hbyte)⟩

theorem Mantissa.bytes {word : List UInt8} (hword : Mantissa word) :
    ∀ byte ∈ word, isNumberByte byte := by
  cases hword with
  | integer hword => exact hword.bytes
  | fraction hword hdigits =>
    rw [List.forall_mem_append, List.forall_mem_cons]
    exact ⟨hword.bytes, rfl, fun byte hbyte ↦ isNumberByte_of_isDigit (hdigits.2 byte hbyte)⟩

theorem Number.bytes {word : List UInt8} (hword : Number word) :
    ∀ byte ∈ word, isNumberByte byte := by
  cases hword with
  | mantissa hword => exact hword.bytes
  | exponent hword hmark hdigits =>
    rw [List.forall_mem_append, List.forall_mem_cons]
    exact ⟨hword.bytes, isNumberByte_of_isExponentMark hmark,
      fun byte hbyte ↦ isNumberByte_of_isDigit (hdigits.2 byte hbyte)⟩
  | signedExponent hword hmark hsign hdigits =>
    rw [List.forall_mem_append, List.forall_mem_cons, List.forall_mem_cons]
    refine ⟨hword.bytes, isNumberByte_of_isExponentMark hmark, ?_,
      fun byte hbyte ↦ isNumberByte_of_isDigit (hdigits.2 byte hbyte)⟩
    rcases hsign with rfl | rfl <;> rfl

theorem Signed.start {word : List UInt8} (hword : Signed word) :
    ∃ first rest, word = first :: rest ∧ isNumberStart first := by
  cases hword with
  | positive hword =>
    cases hword with
    | zero => exact ⟨_, _, rfl, rfl⟩
    | many hfirst _ _ => exact ⟨_, _, rfl, by simp [isNumberStart, hfirst]⟩
  | negative hword => exact ⟨_, _, rfl, rfl⟩

theorem Mantissa.start {word : List UInt8} (hword : Mantissa word) :
    ∃ first rest, word = first :: rest ∧ isNumberStart first := by
  cases hword with
  | integer hword => exact hword.start
  | fraction hword _ =>
    obtain ⟨first, rest, rfl, hfirst⟩ := hword.start
    exact ⟨first, _, rfl, hfirst⟩

theorem Number.start {word : List UInt8} (hword : Number word) :
    ∃ first rest, word = first :: rest ∧ isNumberStart first := by
  cases hword with
  | mantissa hword => exact hword.start
  | exponent hword _ _ =>
    obtain ⟨first, rest, rfl, hfirst⟩ := hword.start
    exact ⟨first, _, rfl, hfirst⟩
  | signedExponent hword _ _ _ =>
    obtain ⟨first, rest, rfl, hfirst⟩ := hword.start
    exact ⟨first, _, rfl, hfirst⟩

/-- White space in a text without it is empty. -/
theorem Skip.eq_nil {gap word : List UInt8} (hgap : Skip gap) (hsub : ∀ byte ∈ gap, byte ∈ word)
    (hword : ∀ byte ∈ word, isWhitespace byte = false) : gap = [] := by
  rw [List.eq_nil_iff_forall_not_mem]
  intro byte hbyte
  have hspace := hgap byte hbyte
  rw [hword byte (hsub byte hbyte)] at hspace
  exact Bool.false_ne_true hspace

/-- A text that is a number is a document of that number only. -/
theorem document_number {value : Value} {word : List UInt8} (hdocument : Document value word)
    (hword : Number word) : value = .number ⟨word, hword⟩ := by
  have hspace : ∀ byte ∈ word, isWhitespace byte = false :=
    fun byte hbyte ↦ not_isWhitespace_of_isNumberByte byte (hword.bytes byte hbyte)
  cases hdocument with
  | @element _ before text after hbefore htext hafter =>
    have hempty : before = [] := hbefore.eq_nil (fun byte hbyte ↦ by simp [hbyte]) hspace
    have hempty' : after = [] := hafter.eq_nil (fun byte hbyte ↦ by simp [hbyte]) hspace
    subst hempty hempty'
    simp only [List.nil_append, List.append_nil] at hword ⊢
    obtain ⟨first, rest, hstart, hfirst⟩ := hword.start
    cases htext with
    | number literal => rfl
    | _ =>
      obtain ⟨rfl, _⟩ := List.cons.inj hstart
      exact absurd hfirst (by decide)

/-- A number is a document of itself. -/
theorem Number.document {word : List UInt8} (hword : Number word) :
    Document (.number ⟨word, hword⟩) word := by
  have helement := Derives.element Skip.nil (.number ⟨word, hword⟩) Skip.nil
  rwa [List.nil_append, List.append_nil] at helement

/-! ### The first byte of a document -/

/-- The first byte of a value. -/
theorem Derives.head {value : Value} {text : List UInt8} (htext : Derives (.value value) text) :
    ∃ first rest, text = first :: rest ∧ isWhitespace first = false ∧
      (value.isObject ↔ first = openBrace) := by
  cases htext with
  | number literal =>
    obtain ⟨text, hliteral⟩ := literal
    obtain ⟨first, rest, rfl, hfirst⟩ := hliteral.start
    have hall : ∀ first : UInt8, isNumberStart first →
        isWhitespace first = false ∧ first ≠ openBrace := by
      grind [isNumberStart, isDigit, isWhitespace]
    obtain ⟨hspace, hbrace⟩ := hall first hfirst
    exact ⟨first, rest, rfl, hspace, iff_of_false Bool.false_ne_true hbrace⟩
  | emptyObject => exact ⟨_, _, rfl, by decide, iff_of_true rfl rfl⟩
  | object => exact ⟨_, _, rfl, by decide, iff_of_true rfl rfl⟩
  | _ => exact ⟨_, _, rfl, by decide, iff_of_false Bool.false_ne_true (by decide)⟩

theorem dropWhile_skip {gap text : List UInt8} (hgap : Skip gap) :
    (gap ++ text).dropWhile isWhitespace = text.dropWhile isWhitespace :=
  List.dropWhile_append_of_pos hgap

/-- Whether a document is an object is decided by its first byte. -/
theorem Document.isObject_iff {value : Value} {text : List UInt8}
    (hdocument : Document value text) :
    value.isObject ↔ (text.dropWhile isWhitespace).head? = some openBrace := by
  cases hdocument with
  | element hbefore htext _ =>
    obtain ⟨first, rest, rfl, hspace, hobject⟩ := Derives.head htext
    rw [List.append_assoc, dropWhile_skip hbefore, List.cons_append,
      List.dropWhile_cons_of_neg (by rw [hspace]; exact Bool.false_ne_true), List.head?_cons,
      Option.some.injEq, hobject]

/-! ### The literals that the paths lead to -/

theorem mem_literalsMembers {members : List (StringBody × Value)} {raw : StringBody} {value : Value}
    (hmember : (raw, value) ∈ members) {literal : Literal} (hliteral : literal ∈ value.literals) :
    literal ∈ Value.literalsMembers members := by
  induction members with
  | nil => cases hmember
  | cons first members ih =>
    rw [Value.literalsMembers, List.mem_append]
    rcases List.mem_cons.mp hmember with rfl | hmember
    · exact .inl hliteral
    · exact .inr (ih hmember)

theorem literals_get {value child : Value} {key : List UInt8} (hget : value.get key = some child)
    {literal : Literal} (hliteral : literal ∈ child.literals) : literal ∈ value.literals := by
  cases value with
  | object members =>
    obtain ⟨member, hfind, rfl⟩ := Option.map_eq_some_iff.mp hget
    rw [Value.literals]
    exact mem_literalsMembers (List.mem_reverse.mp (List.mem_of_find?_eq_some hfind)) hliteral
  | _ => cases hget

theorem literals_pointer {path : List (List UInt8)} : ∀ {value child : Value},
    value.pointer path = some child → ∀ {literal : Literal}, literal ∈ child.literals →
      literal ∈ value.literals := by
  induction path with
  | nil =>
    intro value child hpointer literal hliteral
    obtain rfl : value = child := by simpa [Value.pointer] using hpointer
    exact hliteral
  | cons key path ih =>
    intro value child hpointer literal hliteral
    obtain ⟨next, hget, hpointer⟩ := Option.bind_eq_some_iff.mp hpointer
    exact literals_get hget (ih hpointer hliteral)

theorem Value.literalsElements_snoc (elements : List Value) (value : Value) :
    literalsElements (elements ++ [value]) = literalsElements elements ++ value.literals := by
  induction elements with
  | nil => simp [literalsElements]
  | cons first elements ih => simp [literalsElements, ih]

theorem Value.literalsMembers_snoc (members : List (StringBody × Value)) (raw : StringBody)
    (value : Value) :
    literalsMembers (members ++ [(raw, value)]) = literalsMembers members ++ value.literals := by
  induction members with
  | nil => simp [literalsMembers]
  | cons first members ih => simp [literalsMembers, ih]

def Symbol.literals : Symbol → List Literal
  | .value item | .element item | .member _ item => item.literals
  | .elements items => Value.literalsElements items
  | .members items => Value.literalsMembers items

/-- A literal is part of the text. -/
theorem Derives.length_literal_le {symbol : Symbol} {text : List UInt8}
    (htext : Derives symbol text) :
    ∀ literal ∈ symbol.literals, literal.1.length ≤ text.length := by
  induction htext with
  | nullWord | trueWord | falseWord | string | emptyArray | emptyObject =>
    intro literal hliteral
    simp [Symbol.literals, Value.literals, Value.literalsElements,
      Value.literalsMembers] at hliteral
  | number other =>
    intro literal hliteral
    rw [List.mem_singleton.mp hliteral]
  | array _ ih | object _ ih =>
    intro literal hliteral
    have hbound := ih literal hliteral
    simp only [List.length_cons, List.length_append, List.length_nil]
    omega
  | element _ _ _ ih =>
    intro literal hliteral
    have hbound := ih literal hliteral
    simp only [List.length_append]
    omega
  | member _ _ _ ih =>
    intro literal hliteral
    have hbound := ih literal hliteral
    simp only [List.length_append, List.length_cons]
    omega
  | firstElement _ ih =>
    intro literal hliteral
    refine ih literal ?_
    simpa [Symbol.literals, Value.literalsElements] using hliteral
  | firstMember _ ih =>
    intro literal hliteral
    refine ih literal ?_
    simpa [Symbol.literals, Value.literalsMembers] using hliteral
  | nextElement _ _ ih ihnext =>
    intro literal hliteral
    simp only [Symbol.literals, Value.literalsElements_snoc, List.mem_append] at hliteral
    rw [List.length_append, List.length_cons]
    rcases hliteral with hliteral | hliteral
    · exact (ih literal hliteral).trans (Nat.le_add_right _ _)
    · have hbound := ihnext literal hliteral
      omega
  | nextMember _ _ ih ihnext =>
    intro literal hliteral
    simp only [Symbol.literals, Value.literalsMembers_snoc, List.mem_append] at hliteral
    rw [List.length_append, List.length_cons]
    rcases hliteral with hliteral | hliteral
    · exact (ih literal hliteral).trans (Nat.le_add_right _ _)
    · have hbound := ihnext literal hliteral
      omega

/-! ### Documents without white space -/

theorem Derives.tight_member (raw : StringBody) {value : Value} {text : List UInt8}
    (htext : Derives (.value value) text) :
    Derives (.member raw value) (quote :: (raw.1 ++ quote :: colon :: text)) := by
  have helement := Derives.element Skip.nil htext Skip.nil
  have hmember := @Derives.member raw value _ _ _ Skip.nil Skip.nil helement
  simpa using hmember

theorem Derives.tight_document {members : List (StringBody × Value)} {text : List UInt8}
    (htext : Derives (.members members) text) :
    Document (.object members) (openBrace :: (text ++ [closeBrace])) := by
  have hdocument := Derives.element Skip.nil (.object htext) Skip.nil
  simpa [Document] using hdocument

theorem body_of_plain {raw : List UInt8}
    (hraw : ∀ byte ∈ raw, 0x20 ≤ byte ∧ byte < 0x80 ∧ byte ≠ quote ∧ byte ≠ backslash) :
    Body raw := by
  induction raw with
  | nil => exact .nil
  | cons byte raw ih =>
    rw [List.forall_mem_cons] at hraw
    obtain ⟨⟨hcontrol, hascii, hquote, hbackslash⟩, hrest⟩ := hraw
    exact .cons (.plain hcontrol hascii hquote hbackslash) (ih hrest)

end Relayna.Library.Json

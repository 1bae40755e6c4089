import Mathlib.Algebra.Order.Ring.Int
import Relayna.Library.Json.Text

/-!
# Readers of JSON

A program reads one text in several ways: as a whole value, or into a record of which it names some
fields, where what it does not name is skipped. The ways refuse different texts. A whole value must
be within the parser's bound on nesting, its numbers within range and its strings decodable; what is
skipped has to be in shape only. A record refuses a field that is given twice; a whole value keeps
the last one.

`Tree` is the shape of a text, and `Reader` what the parser decides beyond it. A record is read from
an object, or from an array that has the fields in their order.
-/

set_option autoImplicit false
set_option relaxedAutoImplicit false

namespace Relayna.Library.Json

/-- The shape of a text: numbers by their literals, strings and keys by what stands between the
quotes. -/
inductive Tree
  | null
  | bool (value : Bool)
  | number (literal : List UInt8)
  | string (raw : List UInt8)
  | array (elements : List Tree)
  | object (members : List (List UInt8 × Tree))

/-- What a parser decides: the shape of a text, none when it is not JSON; the text of a string, none
when it cannot be decoded; and whether a number is in range. Nothing is no JSON. -/
structure Reader where
  shape : List UInt8 → Option Tree
  shape_nil : shape [] = none
  text : List UInt8 → Option (List UInt8)
  inRange : List UInt8 → Bool

namespace Tree

mutual

/-- How deep containers are nested in a tree. -/
def depth : Tree → ℕ
  | .array elements => 1 + depthElements elements
  | .object members => 1 + depthMembers members
  | _ => 0

def depthElements : List Tree → ℕ
  | [] => 0
  | tree :: elements => max (depth tree) (depthElements elements)

def depthMembers : List (List UInt8 × Tree) → ℕ
  | [] => 0
  | (_, tree) :: members => max (depth tree) (depthMembers members)

end

mutual

/-- The strings and keys of a tree can be decoded, and its numbers are in range. -/
def readable (reader : Reader) : Tree → Bool
  | .number literal => reader.inRange literal
  | .string raw => (reader.text raw).isSome
  | .array elements => readableElements reader elements
  | .object members => readableMembers reader members
  | _ => true

def readableElements (reader : Reader) : List Tree → Bool
  | [] => true
  | tree :: elements => readable reader tree && readableElements reader elements

def readableMembers (reader : Reader) : List (List UInt8 × Tree) → Bool
  | [] => true
  | (key, tree) :: members =>
    (reader.text key).isSome && readable reader tree && readableMembers reader members

end

mutual

/-- What a whole value keeps of a tree: of the members of an object with one key, the last. -/
def collapse (reader : Reader) : Tree → Tree
  | .array elements => .array (collapseElements reader elements)
  | .object members => .object (collapseMembers reader members)
  | tree => tree

/-- What is kept of the elements of an array. -/
def collapseElements (reader : Reader) : List Tree → List Tree
  | [] => []
  | tree :: elements => collapse reader tree :: collapseElements reader elements

/-- What is kept of the members of an object. -/
def collapseMembers (reader : Reader) : List (List UInt8 × Tree) → List (List UInt8 × Tree)
  | [] => []
  | (key, tree) :: members =>
    if members.any fun member ↦ reader.text member.1 = reader.text key then
      collapseMembers reader members
    else (key, collapse reader tree) :: collapseMembers reader members

end

/-- An object, and nothing else. -/
def isObject : Tree → Bool
  | .object _ => true
  | _ => false

end Tree

namespace Reader

variable (reader : Reader)

/-- Whether a tree is a whole value for a reader that may open so many containers. -/
def value (budget : ℕ) (tree : Tree) : Bool :=
  tree.depth ≤ budget && tree.readable reader

/-- Reading a whole value from a text, at the parser's own bound on nesting. -/
def parse (text : List UInt8) : Option Tree :=
  ((reader.shape text).filter (reader.value 127)).map (Tree.collapse reader)

/-- The values of the members with a key, in their order. -/
def occurrences (key : List UInt8) (members : List (List UInt8 × Tree)) : List Tree :=
  (members.filter fun member ↦ reader.text member.1 = some key).map Prod.snd

/-- The value that a whole value keeps for a key. -/
def get (key : List UInt8) : Tree → Option Tree
  | .object members => (reader.occurrences key members).getLast?
  | _ => none

/-- What a record with the named fields finds for each of them: the members of an object with its
name, or the element of an array in its place. The first fields, as many as required, have to be in
an array. -/
def fields (names : List (List UInt8)) (required : ℕ) : Tree → Option (List (List Tree))
  | .object members =>
    if members.all fun member ↦ (reader.text member.1).isSome then
      some (names.map fun name ↦ reader.occurrences name members)
    else none
  | .array elements =>
    if required ≤ elements.length ∧ elements.length ≤ names.length then
      some ((List.range names.length).map fun index ↦ elements[index]?.toList)
    else none
  | _ => none

/-- The reader of some texts that have no escape and no number out of range, by their shapes. -/
def ofShapes (shapes : List (List UInt8 × Tree)) : Reader where
  shape text := if text = [] then none else shapes.lookup text
  shape_nil := rfl
  text raw := some raw
  inRange _ := true

end Reader

/-- A field of a record: none of the values, or one that its type can be read from. -/
def field {Field : Type} (read : Tree → Option Field) : List Tree → Option (Option Field)
  | [] => some none
  | [tree] => (read tree).map some
  | _ => none

/-- A type that takes `null` for nothing. -/
def optional {Field : Type} (read : Tree → Option Field) : Tree → Option (Option Field)
  | .null => some none
  | tree => (read tree).map some

/-- The number that decimal digits denote. -/
def decimalValue (digits : List UInt8) : ℕ :=
  digits.foldl (fun value byte ↦ value * 10 + (byte.toNat - 48)) 0

/-- The natural number of a literal without sign, fraction and exponent. -/
def naturalValue (literal : List UInt8) : Option ℕ :=
  if literal ≠ [] ∧ literal.all isDigit then some (decimalValue literal) else none

/-- The integer of a literal without fraction and exponent. -/
def integerValue : List UInt8 → Option ℤ
  | 45 :: digits => (naturalValue digits).map fun value ↦ -(value : ℤ)
  | digits => (naturalValue digits).map fun value ↦ (value : ℤ)

/-- A signed number of 64 bits. Minus zero is not one. -/
def asI64 : Tree → Option ℤ
  | .number literal => (integerValue literal).filter fun value ↦
      -2 ^ 63 ≤ value ∧ value < 2 ^ 63 ∧ literal ≠ [minus, zero]
  | _ => none

/-- An unsigned number of 64 bits. -/
def readU64 : Tree → Option ℕ
  | .number literal => (naturalValue literal).filter (· < 2 ^ 64)
  | _ => none

/-- A truth value. -/
def readBool : Tree → Option Bool
  | .bool value => some value
  | _ => none

def readText (reader : Reader) : Tree → Option (List UInt8)
  | .string raw => reader.text raw
  | _ => none

/-- The elements of an array, which are skipped. -/
def readIgnored : Tree → Option (List Tree)
  | .array elements => some elements
  | _ => none

/-- A whole value inside a record. -/
def readValue (reader : Reader) (tree : Tree) : Option Tree :=
  if reader.value 126 tree then some (tree.collapse reader) else none

/-! ### What a field says about the members -/

theorem field_eq_some_none {Field : Type} {read : Tree → Option Field} {trees : List Tree}
    (hfield : field read trees = some none) : trees = [] := by
  unfold field at hfield
  split at hfield
  · rfl
  · simp at hfield
  · simp at hfield

theorem field_eq_some_some {Field : Type} {read : Tree → Option Field} {trees : List Tree}
    {result : Field} (hfield : field read trees = some (some result)) :
    ∃ tree, trees = [tree] ∧ read tree = some result := by
  unfold field at hfield
  split at hfield
  · simp at hfield
  · rename_i tree
    exact ⟨tree, rfl, by simpa using hfield⟩
  · simp at hfield

/-- A field that could be read is given at most once. -/
theorem length_le_of_field {Field : Type} {read : Tree → Option Field} {trees : List Tree}
    {result : Option Field} (hfield : field read trees = some result) : trees.length ≤ 1 := by
  rcases result with _ | result
  · rw [field_eq_some_none hfield]
    exact Nat.zero_le 1
  · obtain ⟨tree, rfl, -⟩ := field_eq_some_some hfield
    exact Nat.le_refl 1

theorem optional_eq_some_none {Field : Type} {read : Tree → Option Field} {tree : Tree}
    (hoptional : optional read tree = some none) : tree = .null := by
  unfold optional at hoptional
  split at hoptional
  · rfl
  · simp at hoptional

theorem optional_eq_some_some {Field : Type} {read : Tree → Option Field} {tree : Tree}
    {result : Field} (hoptional : optional read tree = some (some result)) :
    read tree = some result := by
  unfold optional at hoptional
  split at hoptional
  · simp at hoptional
  · simpa using hoptional

theorem Reader.mem_occurrences (reader : Reader) (key : List UInt8)
    (members : List (List UInt8 × Tree)) (tree : Tree) :
    tree ∈ reader.occurrences key members ↔
      ∃ member ∈ members, reader.text member.1 = some key ∧ member.2 = tree := by
  unfold Reader.occurrences
  simp only [List.mem_map, List.mem_filter, decide_eq_true_eq]
  constructor
  · rintro ⟨member, ⟨hmember, hkey⟩, htree⟩
    exact ⟨member, hmember, hkey, htree⟩
  · rintro ⟨member, hmember, hkey, htree⟩
    exact ⟨member, ⟨hmember, hkey⟩, htree⟩

theorem Reader.occurrences_cons (reader : Reader) (key raw : List UInt8) (tree : Tree)
    (members : List (List UInt8 × Tree)) :
    reader.occurrences key ((raw, tree) :: members) =
      if reader.text raw = some key then tree :: reader.occurrences key members
      else reader.occurrences key members := by
  unfold Reader.occurrences
  rw [List.filter_cons]
  split_ifs with htext <;> simp_all

/-- Of the members with a key, the last one is kept. -/
theorem Reader.occurrences_collapse (reader : Reader) (key : List UInt8)
    (members : List (List UInt8 × Tree)) :
    reader.occurrences key (Tree.collapseMembers reader members) =
      ((reader.occurrences key members).getLast?.map (Tree.collapse reader)).toList := by
  induction members with
  | nil => rfl
  | cons member members ih =>
    obtain ⟨raw, tree⟩ := member
    rw [Tree.collapseMembers, Reader.occurrences_cons]
    by_cases hkey : reader.text raw = some key
    · rw [if_pos hkey, hkey]
      have hany : (members.any fun member ↦ reader.text member.1 = some key) = true ↔
          reader.occurrences key members ≠ [] := by
        unfold Reader.occurrences
        simp
      split_ifs with hlater
      · rw [ih, List.getLast?_cons_of_ne_nil (hany.mp hlater)]
      · rw [Reader.occurrences_cons, if_pos hkey, ih, not_not.mp (mt hany.mpr hlater)]
        rfl
    · rw [if_neg hkey]
      split_ifs with hlater
      · exact ih
      · rw [Reader.occurrences_cons, if_neg hkey]
        exact ih

/-- A whole value has for a key what is kept of it. -/
theorem Reader.get_collapse (reader : Reader) (key : List UInt8) (tree : Tree) :
    reader.get key (tree.collapse reader) = (reader.get key tree).map (Tree.collapse reader) := by
  cases tree with
  | object members =>
    simp only [Tree.collapse, Reader.get]
    rw [Reader.occurrences_collapse]
    rcases (reader.occurrences key members).getLast? with _ | kept
    · rfl
    · rfl
  | _ => rfl

theorem Tree.mem_collapseElements {reader : Reader} {elements : List Tree} {tree : Tree}
    (hmem : tree ∈ elements) : tree.collapse reader ∈ Tree.collapseElements reader elements := by
  induction elements with
  | nil => exact absurd hmem List.not_mem_nil
  | cons first elements ih =>
    rw [Tree.collapseElements]
    rcases List.mem_cons.mp hmem with rfl | hmem
    · exact List.mem_cons_self
    · exact List.mem_cons_of_mem _ (ih hmem)

/-- An object gives a record its members, unless a key cannot be decoded. -/
theorem Reader.fields_object (reader : Reader) (names : List (List UInt8)) (required : ℕ)
    (members : List (List UInt8 × Tree)) :
    reader.fields names required (.object members) =
        some (names.map fun name ↦ reader.occurrences name members) ∨
      reader.fields names required (.object members) = none := by
  by_cases hkeys : (members.all fun member ↦ (reader.text member.1).isSome) = true
  · exact .inl (if_pos hkeys)
  · exact .inr (if_neg hkeys)

end Relayna.Library.Json

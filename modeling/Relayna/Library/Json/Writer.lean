import Relayna.Library.Json.Reader

/-!
# Writing JSON

A tree is written without blanks, its members in the order in which it has them. A string is escaped
where it has to be: at quotes, backslashes and control characters.
-/

set_option autoImplicit false
set_option relaxedAutoImplicit false

namespace Relayna.Library.Json

/-- A hexadecimal digit, in lower case. -/
def hexLetter (value : ℕ) : UInt8 :=
  UInt8.ofNat (if value < 10 then 48 + value else 87 + value)

/-- A byte of a string, as it is written. -/
def escapeByte (byte : UInt8) : List UInt8 :=
  if byte = quote ∨ byte = backslash then [backslash, byte]
  else if byte = 8 then [backslash, 98]
  else if byte = 9 then [backslash, 116]
  else if byte = 10 then [backslash, 110]
  else if byte = 12 then [backslash, 102]
  else if byte = 13 then [backslash, 114]
  else if byte < 32 then
    [backslash, letterU, zero, zero, hexLetter (byte.toNat / 16), hexLetter (byte.toNat % 16)]
  else [byte]

/-- What is written between the quotes for a string. -/
def escape (text : List UInt8) : List UInt8 :=
  text.flatMap escapeByte

/-- A string is written with at least its bytes. -/
theorem length_le_length_escape (text : List UInt8) : text.length ≤ (escape text).length := by
  rw [escape, List.length_flatMap]
  induction text with
  | nil => exact le_rfl
  | cons byte rest ih =>
    have hbyte : 1 ≤ (escapeByte byte).length := by
      unfold escapeByte
      split_ifs <;> simp
    rw [List.map_cons, List.sum_cons, List.length_cons]
    omega

namespace Tree

mutual

/-- A tree as it is written. -/
def text : Tree → List UInt8
  | .null => ascii "null"
  | .bool true => ascii "true"
  | .bool false => ascii "false"
  | .number literal => literal
  | .string raw => quote :: raw ++ [quote]
  | .array elements => openBracket :: textElements elements ++ [closeBracket]
  | .object members => openBrace :: textMembers members ++ [closeBrace]

/-- The elements of an array as they are written. -/
def textElements : List Tree → List UInt8
  | [] => []
  | [tree] => text tree
  | tree :: elements => text tree ++ comma :: textElements elements

/-- The members of an object as they are written. -/
def textMembers : List (List UInt8 × Tree) → List UInt8
  | [] => []
  | [(key, tree)] => quote :: key ++ quote :: colon :: text tree
  | (key, tree) :: members =>
    quote :: key ++ quote :: colon :: text tree ++ comma :: textMembers members

end

end Tree

/-- Assumes: a member of an object. What is written for the object is no shorter. -/
theorem Tree.length_text_le {members : List (List UInt8 × Tree)} {member : List UInt8 × Tree}
    (hmember : member ∈ members) :
    member.2.text.length ≤ (Tree.object members).text.length := by
  have hmembers : member.2.text.length ≤ (textMembers members).length := by
    induction members with
    | nil => cases hmember
    | cons first members ih =>
      cases members with
      | nil =>
        rw [List.mem_singleton.mp hmember, textMembers]
        simp only [List.length_append, List.length_cons]
        omega
      | cons second members =>
        rw [textMembers]
        · simp only [List.length_append, List.length_cons]
          rcases List.mem_cons.mp hmember with rfl | hrest
          · omega
          · have hle := ih hrest
            omega
        · exact fun h ↦ List.cons_ne_nil _ _ h
  rw [Tree.text, List.length_append, List.length_cons]
  omega

/-- What the members of an object take, each with its key, the colon, the quotes and a comma or the
closing brace. -/
theorem Tree.length_textMembers {members : List (List UInt8 × Tree)} (hmembers : members ≠ []) :
    (textMembers members).length + 1 =
      (members.map fun member ↦ member.1.length + member.2.text.length + 4).sum := by
  induction members with
  | nil => exact absurd rfl hmembers
  | cons member members ih =>
    obtain ⟨key, tree⟩ := member
    cases members with
    | nil =>
      rw [textMembers]
      simp only [List.length_append, List.length_cons, List.map_cons, List.map_nil, List.sum_cons,
        List.sum_nil]
      omega
    | cons next members =>
      have hrest := ih (List.cons_ne_nil _ _)
      rw [textMembers, List.map_cons, List.sum_cons, ← hrest]
      · simp only [List.length_append, List.length_cons]
        omega
      · exact fun hnil ↦ List.cons_ne_nil _ _ hnil

/-- Assumes: an object that is not empty. What is written for it are its members, and one byte. -/
theorem Tree.length_text_object {members : List (List UInt8 × Tree)} (hmembers : members ≠ []) :
    (Tree.object members).text.length =
      (members.map fun member ↦ member.1.length + member.2.text.length + 4).sum + 1 := by
  rw [← length_textMembers hmembers, Tree.text, List.length_append, List.length_cons]
  rfl

/-- Assumes: a text among the shapes of a reader, whose tree is a whole value without double keys.
It is parsed to its tree. -/
theorem Reader.parse_ofShapes {shapes : List (List UInt8 × Tree)} {text : List UInt8} {tree : Tree}
    (htext : text ≠ []) (hlookup : shapes.lookup text = some tree)
    (hvalue : (ofShapes shapes).value 127 tree = true)
    (hcollapse : tree.collapse (ofShapes shapes) = tree) :
    (ofShapes shapes).parse text = some tree := by
  have hshape : (ofShapes shapes).shape text = some tree := by
    rw [ofShapes]
    dsimp only
    rw [if_neg htext, hlookup]
  rw [parse, hshape, Option.filter_some_pos hvalue, Option.map_some, hcollapse]

/-- Assumes: an object with different keys that are written as they are. Each key finds its member.
-/
theorem Reader.get_object (reader : Reader) {members : List (List UInt8 × Tree)}
    (hnames : ∀ member ∈ members, reader.text member.1 = some member.1)
    (hkeys : (members.map Prod.fst).Nodup) (key : List UInt8) :
    reader.get key (.object members) = members.lookup key := by
  rw [get, occurrences]
  have hfilter : members.filter (fun member ↦ reader.text member.1 = some key) =
      members.filter fun member ↦ member.1 = key := by
    apply List.filter_congr
    intro member hmember
    rw [hnames member hmember]
    simp
  rw [hfilter]
  clear hfilter hnames
  induction members with
  | nil => rfl
  | cons member members ih =>
    obtain ⟨name, tree⟩ := member
    rw [List.map_cons, List.nodup_cons] at hkeys
    by_cases hsame : name = key
    · have hrest : members.filter (fun member ↦ member.1 = key) = [] := by
        rw [List.filter_eq_nil_iff]
        intro other hother hname
        exact hkeys.1 (List.mem_map.mpr ⟨other, hother, (of_decide_eq_true hname).trans hsame.symm⟩)
      rw [List.filter_cons_of_pos (by simpa using hsame), hrest, hsame, List.lookup_cons_self]
      rfl
    · rw [List.filter_cons_of_neg (by simpa using hsame), ih hkeys.2, List.lookup_cons,
        beq_false_of_ne (Ne.symm hsame)]

end Relayna.Library.Json

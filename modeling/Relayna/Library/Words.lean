import Mathlib.Data.List.Basic
import Mathlib.Data.List.TakeWhile
import Mathlib.Data.Nat.Notation

/-!
# Words and what separates them

The words of a text are its maximal runs of word characters. Written one after the other with one
separator between each two, they are what is left of the text when every run of other characters is
collapsed into one separator and those at the ends are cut off (`trimEnds_collapse`). A cut through
joined words leaves joined words, unless it is made right after a separator, and
`getLast?_take_joined` says where that is.
-/

set_option autoImplicit false
set_option relaxedAutoImplicit false

namespace Relayna.Library

section Words

variable {α : Type} (isWord : α → Bool) (separator : α)

/-- The maximal runs of word characters. -/
def words (text : List α) : List (List α) :=
  (text.splitOnP fun character ↦ !isWord character).filter fun run ↦ !run.isEmpty

/-- Words with one separator between each two. -/
def joined (parts : List (List α)) : List α :=
  [separator].intercalate parts

/-- A text with one separator for every run of other characters; `afterGap` says that the text
before ends with such a run. -/
def collapse (afterGap : Bool) : List α → List α
  | [] => []
  | character :: rest =>
    if isWord character then character :: collapse false rest
    else if afterGap then collapse true rest
    else separator :: collapse true rest

/-- A text without what is dropped at its ends. -/
def trimEnds (drops : α → Bool) (text : List α) : List α :=
  ((text.dropWhile drops).reverse.dropWhile drops).reverse

/-- Nonempty runs of word characters. -/
def AreWords (parts : List (List α)) : Prop :=
  ∀ part ∈ parts, part ≠ [] ∧ ∀ character ∈ part, isWord character = true

variable {isWord separator}

/-! ### The words of a text -/

@[simp] theorem words_nil : words isWord ([] : List α) = [] := by
  simp [words]

/-- A text is split into words at every other character. -/
theorem words_append_gap {character : α} (hgap : isWord character = false) (front back : List α) :
    words isWord (front ++ character :: back) = words isWord front ++ words isWord back := by
  unfold words
  rw [List.splitOnP_append_cons front back (by simpa using hgap), List.filter_append]

theorem words_cons_gap {character : α} (hgap : isWord character = false) (text : List α) :
    words isWord (character :: text) = words isWord text := by
  simpa using words_append_gap hgap [] text

/-- A text without word characters has no words. -/
theorem words_eq_nil {text : List α} (hgaps : ∀ character ∈ text, isWord character = false) :
    words isWord text = [] := by
  induction text with
  | nil => exact words_nil
  | cons character text ih =>
    rw [words_cons_gap (hgaps character List.mem_cons_self)]
    exact ih fun other hmem ↦ hgaps other (List.mem_cons_of_mem _ hmem)

/-- A nonempty run of word characters is one word. -/
theorem words_run {run : List α} (hne : run ≠ [])
    (hrun : ∀ character ∈ run, isWord character = true) : words isWord run = [run] := by
  have hsplit : run.splitOnP (fun character ↦ !isWord character) = [run] :=
    List.splitOnP_eq_singleton fun character hmem ↦ by rw [hrun character hmem]; rfl
  rw [words, hsplit]
  simp [hne]

/-- A word character before a text that begins with none is a word of its own. -/
theorem words_cons_of_gap {character : α} (hword : isWord character = true) {text : List α}
    (htext : ∀ next ∈ text.head?, isWord next = false) :
    words isWord (character :: text) = [character] :: words isWord text := by
  have hrun : words isWord [character] = [[character]] :=
    words_run (List.cons_ne_nil _ _) (by simpa using hword)
  rcases text with _ | ⟨next, rest⟩
  · simpa using hrun
  · have hgap : isWord next = false := htext next rfl
    have hsplit := words_append_gap hgap [character] rest
    rw [hrun] at hsplit
    rw [words_cons_gap hgap]
    exact hsplit

/-- A word character before a text that begins with one belongs to its first word. -/
theorem words_cons_of_word {character next : α} (hword : isWord character = true)
    (hnext : isWord next = true) (rest : List α) :
    ∃ first later, words isWord (next :: rest) = (next :: first) :: later ∧
      words isWord (character :: next :: rest) = (character :: next :: first) :: later := by
  obtain ⟨first, later, hsplit⟩ := List.exists_cons_of_ne_nil
    (List.splitOnP_ne_nil (fun character ↦ !isWord character) rest)
  have hnextSplit : (next :: rest).splitOnP (fun character ↦ !isWord character) =
      (next :: first) :: later := by
    rw [List.splitOnP_cons_eq_if_modifyHead, hnext, hsplit]
    rfl
  refine ⟨first, later.filter fun run ↦ !run.isEmpty, ?_, ?_⟩
  · rw [words, hnextSplit]
    rfl
  · rw [words, List.splitOnP_cons_eq_if_modifyHead, hword, hnextSplit]
    rfl

/-- A text begins with a word character or does not. -/
theorem head_cases (isWord : α → Bool) (text : List α) :
    (∀ next ∈ text.head?, isWord next = false) ∨
      ∃ next rest, text = next :: rest ∧ isWord next = true := by
  rcases text with _ | ⟨next, rest⟩
  · exact Or.inl (by simp)
  · by_cases hnext : isWord next = true
    · exact Or.inr ⟨next, rest, rfl, hnext⟩
    · refine Or.inl fun other hother ↦ ?_
      rw [← Option.some.inj hother]
      exact Bool.eq_false_iff.mpr hnext

/-- A text with a word character has a word. -/
theorem words_ne_nil {text : List α} {character : α} (hmem : character ∈ text)
    (hword : isWord character = true) : words isWord text ≠ [] := by
  obtain ⟨front, back, rfl⟩ := List.append_of_mem hmem
  induction front with
  | nil =>
    rcases head_cases isWord back with hgap | ⟨next, rest, rfl, hnext⟩
    · rw [List.nil_append, words_cons_of_gap hword hgap]
      exact List.cons_ne_nil _ _
    · obtain ⟨first, later, -, hwhole⟩ := words_cons_of_word hword hnext rest
      rw [List.nil_append, hwhole]
      exact List.cons_ne_nil _ _
  | cons other front ih =>
    by_cases hother : isWord other = true
    · rcases head_cases isWord (front ++ character :: back) with hgap | ⟨next, rest, hsplit, hnext⟩
      · rw [List.cons_append, words_cons_of_gap hother hgap]
        exact List.cons_ne_nil _ _
      · obtain ⟨first, later, -, hwhole⟩ := words_cons_of_word hother hnext rest
        rw [List.cons_append, hsplit, hwhole]
        exact List.cons_ne_nil _ _
    · rw [List.cons_append, words_cons_gap (Bool.eq_false_iff.mpr hother)]
      exact ih (by simp)

/-- The words of a text are words. -/
theorem areWords_words (text : List α) : AreWords isWord (words isWord text) := by
  induction text with
  | nil => simp [AreWords]
  | cons character text ih =>
    by_cases hword : isWord character = true
    · rcases head_cases isWord text with hgap | ⟨next, rest, rfl, hnext⟩
      · rw [words_cons_of_gap hword hgap]
        intro part hpart
        rcases List.mem_cons.mp hpart with rfl | hmem
        · exact ⟨List.cons_ne_nil _ _, by simpa using hword⟩
        · exact ih part hmem
      · obtain ⟨first, later, hrest, hwhole⟩ := words_cons_of_word hword hnext rest
        rw [hrest] at ih
        rw [hwhole]
        intro part hpart
        rcases List.mem_cons.mp hpart with rfl | hmem
        · refine ⟨List.cons_ne_nil _ _, fun other hother ↦ ?_⟩
          rcases List.mem_cons.mp hother with rfl | hmem
          · exact hword
          · exact (ih _ List.mem_cons_self).2 other hmem
        · exact ih part (List.mem_cons_of_mem _ hmem)
    · rw [words_cons_gap (Bool.eq_false_iff.mpr hword)]
      exact ih

/-! ### Joined words -/

theorem joined_cons_cons (first second : List α) (parts : List (List α)) :
    joined separator (first :: second :: parts) =
      first ++ separator :: joined separator (second :: parts) := by
  rw [joined, List.intercalate_cons_cons, List.append_assoc, List.singleton_append]
  rfl

@[simp] theorem joined_nil : joined separator ([] : List (List α)) = [] :=
  rfl

@[simp] theorem joined_singleton (part : List α) : joined separator [part] = part := by
  simp [joined]

/-- A character at the front of the first word is at the front of all. -/
theorem joined_cons_append (character : α) (first : List α) (parts : List (List α)) :
    joined separator ((character :: first) :: parts) =
      character :: joined separator (first :: parts) := by
  rcases parts with _ | ⟨second, parts⟩
  · simp
  · rw [joined_cons_cons, joined_cons_cons, List.cons_append]

theorem AreWords.tail {part : List α} {parts : List (List α)}
    (hparts : AreWords isWord (part :: parts)) : AreWords isWord parts :=
  fun other hother ↦ hparts other (List.mem_cons_of_mem _ hother)

/-- Joined words are the words of what they are joined into. -/
theorem words_joined (hseparator : isWord separator = false) {parts : List (List α)}
    (hparts : AreWords isWord parts) : words isWord (joined separator parts) = parts := by
  induction parts with
  | nil => simp
  | cons first parts ih =>
    have hfirst := hparts first List.mem_cons_self
    have hrun := words_run hfirst.1 hfirst.2
    rcases parts with _ | ⟨second, parts⟩
    · rw [joined_singleton, hrun]
    · rw [joined_cons_cons, words_append_gap hseparator, hrun, ih hparts.tail]
      rfl

/-- Joined words begin with a word character, if there are any. -/
theorem head?_joined {parts : List (List α)} (hparts : AreWords isWord parts)
    {character : α} (hhead : (joined separator parts).head? = some character) :
    isWord character = true := by
  rcases parts with _ | ⟨first, parts⟩
  · simp at hhead
  · obtain ⟨hne, hrun⟩ := hparts first List.mem_cons_self
    obtain ⟨letter, letters, rfl⟩ := List.exists_cons_of_ne_nil hne
    rw [joined_cons_append, List.head?_cons, Option.some.injEq] at hhead
    exact hrun character (by simp [hhead])

/-- Joined words end with a word character, if there are any. -/
theorem getLast?_joined {parts : List (List α)} (hparts : AreWords isWord parts)
    {character : α} (hlast : (joined separator parts).getLast? = some character) :
    isWord character = true := by
  induction parts with
  | nil => simp at hlast
  | cons first parts ih =>
    obtain ⟨hne, hrun⟩ := hparts first List.mem_cons_self
    rcases parts with _ | ⟨second, parts⟩
    · rw [joined_singleton] at hlast
      exact hrun character (List.mem_of_getLast? hlast)
    · obtain ⟨letter, letters, rfl⟩ := List.exists_cons_of_ne_nil (hparts second (by simp)).1
      rw [joined_cons_cons, joined_cons_append, List.getLast?_append_cons,
        List.getLast?_cons_cons, ← joined_cons_append] at hlast
      exact ih hparts.tail hlast

/-- Joined words consist of their characters and of separators. -/
theorem mem_joined {parts : List (List α)} {character : α}
    (hmem : character ∈ joined separator parts) :
    character = separator ∨ ∃ part ∈ parts, character ∈ part := by
  induction parts with
  | nil => simp at hmem
  | cons first parts ih =>
    rcases parts with _ | ⟨second, parts⟩
    · rw [joined_singleton] at hmem
      exact Or.inr ⟨first, List.mem_cons_self, hmem⟩
    · rw [joined_cons_cons] at hmem
      rcases List.mem_append.mp hmem with hfirst | hrest
      · exact Or.inr ⟨first, List.mem_cons_self, hfirst⟩
      · rcases List.mem_cons.mp hrest with rfl | hlater
        · exact Or.inl rfl
        · exact (ih hlater).imp_right fun ⟨part, hpart, hcharacter⟩ ↦
            ⟨part, List.mem_cons_of_mem _ hpart, hcharacter⟩

/-! ### Collapsed gaps -/

/-- Before a gap a text collapses to a separator and what it would have collapsed to after it. -/
theorem collapse_false (text : List α) :
    collapse isWord separator false text = collapse isWord separator true text ∨
      (∀ next ∈ text.head?, isWord next = false) ∧
        collapse isWord separator false text =
          separator :: collapse isWord separator true text := by
  rcases text with _ | ⟨character, rest⟩
  · exact Or.inl rfl
  · by_cases hword : isWord character = true
    · exact Or.inl (by rw [collapse, collapse, if_pos hword, if_pos hword])
    · refine Or.inr ⟨fun next hnext ↦ ?_, ?_⟩
      · rw [← Option.some.inj hnext]
        exact Bool.eq_false_iff.mpr hword
      · rw [collapse, collapse, if_neg hword, if_neg hword]
        rfl

/-- After a gap a text collapses to its joined words and perhaps a separator at the end. -/
theorem collapse_true (text : List α) :
    ∃ rest, collapse isWord separator true text =
        joined separator (words isWord text) ++ rest ∧
      (rest = [] ∨ words isWord text ≠ [] ∧ rest = [separator]) := by
  induction text with
  | nil => exact ⟨[], by simp [collapse], Or.inl rfl⟩
  | cons character text ih =>
    obtain ⟨rest, hcollapse, hrest⟩ := ih
    by_cases hword : isWord character = true
    · rw [collapse, if_pos hword]
      rcases head_cases isWord text with hgap | ⟨next, tail, rfl, hnext⟩
      · rw [words_cons_of_gap hword hgap]
        rcases hwords : words isWord text with _ | ⟨second, parts⟩
        · have hempty : rest = [] := hrest.resolve_right fun h ↦ h.1 hwords
          rw [hwords, hempty] at hcollapse
          rcases collapse_false text with hsame | ⟨-, hlead⟩
          · exact ⟨[], by rw [hsame, hcollapse]; simp, Or.inl rfl⟩
          · exact ⟨[separator], by rw [hlead, hcollapse]; simp, Or.inr ⟨by simp, rfl⟩⟩
        · refine ⟨rest, ?_, hrest.imp_right fun h ↦ ⟨by simp, h.2⟩⟩
          rw [hwords] at hcollapse
          rcases text with _ | ⟨next, tail⟩
          · simp at hwords
          · have hlead : collapse isWord separator false (next :: tail) =
                separator :: collapse isWord separator true (next :: tail) := by
              have hnext : ¬ isWord next = true := by simp [hgap next rfl]
              rw [collapse, collapse, if_neg hnext, if_neg hnext]
              rfl
            rw [hlead, hcollapse, joined_cons_cons]
            rfl
      · obtain ⟨first, later, hwords, hwhole⟩ := words_cons_of_word hword hnext tail
        rw [hwords] at hcollapse hrest
        refine ⟨rest, ?_, hrest.imp_right fun h ↦ ⟨by simp [hwhole], h.2⟩⟩
        have hsame : collapse isWord separator false (next :: tail) =
            collapse isWord separator true (next :: tail) := by
          rw [collapse, collapse, if_pos hnext, if_pos hnext]
        rw [hsame, hcollapse, hwhole, joined_cons_append character]
        rfl
    · rw [collapse, if_neg hword, words_cons_gap (Bool.eq_false_iff.mpr hword)]
      exact ⟨rest, hcollapse, hrest⟩

/-- Assumes: what is dropped stands at the front and at the back, and what stands between does not
begin or end with such a character. It is left. -/
theorem trimEnds_append {drops : α → Bool} {front middle back : List α}
    (hfront : ∀ character ∈ front, drops character = true)
    (hback : ∀ character ∈ back, drops character = true)
    (hhead : ∀ character ∈ middle.head?, drops character = false)
    (hlast : ∀ character ∈ middle.getLast?, drops character = false) :
    trimEnds drops (front ++ (middle ++ back)) = middle := by
  have hdrop : ∀ {tail text : List α}, (∀ character ∈ tail, drops character = true) →
      (∀ character ∈ text.head?, drops character = false) →
      (text ++ tail).dropWhile drops = text ++ (if text = [] then [] else tail) := by
    intro tail text htail htext
    rcases text with _ | ⟨first, text⟩
    · simpa [List.dropWhile_eq_nil_iff] using htail
    · rw [if_neg (List.cons_ne_nil _ _)]
      exact List.dropWhile_cons_of_neg (by simp [htext first rfl])
  unfold trimEnds
  rw [List.dropWhile_append_of_pos hfront, hdrop hback hhead]
  rcases hmiddle : middle with _ | ⟨first, rest⟩
  · simp
  · rw [if_neg (List.cons_ne_nil _ _), List.reverse_append, ← hmiddle]
    have hreversed : ∀ character ∈ back.reverse, drops character = true :=
      fun character hmem ↦ hback character (List.mem_reverse.mp hmem)
    have hend : ∀ character ∈ middle.reverse.head?, drops character = false := by
      simpa using hlast
    have hkept := @hdrop [] middle.reverse (by simp) hend
    rw [List.dropWhile_append_of_pos hreversed]
    rw [List.append_nil, ite_self, List.append_nil] at hkept
    rw [hkept, List.reverse_reverse]

/-- The words of a text, joined, are what is left of it when its gaps are collapsed and cut off its
ends. -/
theorem trimEnds_collapse [DecidableEq α] (hseparator : isWord separator = false) (text : List α) :
    trimEnds (fun character ↦ decide (character = separator))
        (collapse isWord separator false text) =
      joined separator (words isWord text) := by
  have hwords := @areWords_words α isWord text
  have hne : ∀ {character : α}, isWord character = true →
      decide (character = separator) = false := by
    intro character hword
    refine decide_eq_false ?_
    rintro rfl
    rw [hseparator] at hword
    cases hword
  obtain ⟨rest, hcollapse, hrest⟩ := @collapse_true α isWord separator text
  have hback : ∀ character ∈ rest, decide (character = separator) = true := by
    intro character hmem
    rcases hrest with rfl | ⟨-, rfl⟩
    · cases hmem
    · exact decide_eq_true (List.mem_singleton.mp hmem)
  have htrimmed : ∀ front : List α, (∀ character ∈ front, decide (character = separator) = true) →
      trimEnds (fun character ↦ decide (character = separator))
          (front ++ (joined separator (words isWord text) ++ rest)) =
        joined separator (words isWord text) := by
    intro front hfront
    exact trimEnds_append hfront hback (fun character hhead ↦ hne (head?_joined hwords hhead))
      fun character hlast ↦ hne (getLast?_joined hwords hlast)
  rcases @collapse_false α isWord separator text with hsame | ⟨-, hlead⟩
  · rw [hsame, hcollapse]
    exact htrimmed [] (by simp)
  · rw [hlead, hcollapse]
    exact htrimmed [separator] (by simp)

/-! ### Cuts -/

/-- A cut before or after a separator. -/
theorem take_append_cons (separator : α) (front back : List α) (size : ℕ) :
    (size ≤ front.length ∧ (front ++ separator :: back).take size = front.take size) ∨
      ∃ more, size = front.length + 1 + more ∧
        (front ++ separator :: back).take size = front ++ separator :: back.take more := by
  by_cases hsize : size ≤ front.length
  · exact Or.inl ⟨hsize, List.take_append_of_le_length hsize⟩
  · obtain ⟨more, rfl⟩ := Nat.exists_eq_add_of_lt (Nat.lt_of_not_le hsize)
    refine Or.inr ⟨more, by omega, ?_⟩
    rw [Nat.add_assoc, List.take_length_add_append, List.take_succ_cons]

/-- No separator stands in a word. -/
theorem AreWords.notMem (hseparator : isWord separator = false) {parts : List (List α)}
    (hparts : AreWords isWord parts) {part : List α} (hpart : part ∈ parts) : separator ∉ part := by
  intro hmem
  have hword := (hparts part hpart).2 separator hmem
  rw [hseparator] at hword
  cases hword

theorem getLast?_take_word {part : List α} (hnot : separator ∉ part) (size : ℕ) :
    (part.take size).getLast? ≠ some separator := fun hlast ↦
  hnot (List.mem_of_mem_take (List.mem_of_getLast? hlast))

theorem joined_ne_nil {part : List α} {parts : List (List α)}
    (hparts : AreWords isWord (part :: parts)) : joined separator (part :: parts) ≠ [] := by
  obtain ⟨letter, letters, rfl⟩ := List.exists_cons_of_ne_nil (hparts part List.mem_cons_self).1
  rw [joined_cons_append]
  exact List.cons_ne_nil _ _

theorem take_joined_ne_nil (separator : α) {part : List α} {parts : List (List α)}
    (hparts : AreWords isWord (part :: parts)) (size : ℕ) :
    (joined separator (part :: parts)).take (size + 1) ≠ [] := by
  rw [Ne, List.take_eq_nil_iff]
  exact not_or.mpr ⟨Nat.succ_ne_zero size, joined_ne_nil hparts⟩

/-- Where a cut through joined words leaves a separator at the end. -/
theorem getLast?_take_joined (hseparator : isWord separator = false) {parts : List (List α)}
    (hparts : AreWords isWord parts) (size : ℕ) :
    ((joined separator parts).take size).getLast? = some separator ↔
      ∃ count, 0 < count ∧ count < parts.length ∧
        (joined separator (parts.take count)).length + 1 = size := by
  induction parts generalizing size with
  | nil => simp
  | cons first parts ih =>
    have hfirst := hparts.notMem hseparator List.mem_cons_self
    rcases parts with _ | ⟨second, parts⟩
    · rw [joined_singleton]
      refine iff_of_false (getLast?_take_word hfirst size) ?_
      rintro ⟨count, hpos, hlt, -⟩
      rw [List.length_singleton] at hlt
      omega
    · have hlong : ∀ count, (joined separator
        ((first :: second :: parts).take (count + 2))).length =
          first.length + 1 + (joined separator ((second :: parts).take (count + 1))).length := by
        intro count
        rw [List.take_succ_cons, List.take_succ_cons, joined_cons_cons, List.length_append,
          List.length_cons]
        omega
      rw [joined_cons_cons]
      rcases take_append_cons separator first (joined separator (second :: parts)) size with
        ⟨hsize, htake⟩ | ⟨more, rfl, htake⟩
      · rw [htake]
        refine iff_of_false (getLast?_take_word hfirst size) ?_
        rintro ⟨count, hpos, -, hcount⟩
        rcases count with _ | _ | count
        · omega
        · simp at hcount
          omega
        · rw [hlong] at hcount
          omega
      · rw [htake]
        rcases more with _ | more
        · refine iff_of_true (by simp) ⟨1, Nat.one_pos, by simp, by simp⟩
        · have hrest := take_joined_ne_nil separator hparts.tail more
          rw [List.getLast?_append_cons, List.getLast?_cons_of_ne_nil hrest, ih hparts.tail]
          constructor
          · rintro ⟨count, hpos, hlt, hcount⟩
            obtain ⟨count, rfl⟩ := Nat.exists_eq_add_of_lt hpos
            rw [Nat.zero_add] at hlt hcount
            refine ⟨count + 2, by omega, by simpa using hlt, ?_⟩
            rw [hlong]
            omega
          · rintro ⟨count, hpos, hlt, hcount⟩
            rcases count with _ | _ | count
            · omega
            · simp at hcount
            · refine ⟨count + 1, by omega, by simpa using hlt, ?_⟩
              rw [hlong] at hcount
              omega

/-- A cut through one word leaves a word or nothing. -/
theorem take_word {part : List α} (hpart : ∀ character ∈ part, isWord character = true)
    (size : ℕ) : ∃ kept, AreWords isWord kept ∧ part.take size = joined separator kept := by
  by_cases hempty : part.take size = []
  · exact ⟨[], by simp [AreWords], by rw [hempty, joined_nil]⟩
  · refine ⟨[part.take size], fun other hother ↦ ?_, (joined_singleton _).symm⟩
    rw [List.mem_singleton.mp hother]
    exact ⟨hempty, fun character hmem ↦ hpart character (List.mem_of_mem_take hmem)⟩

/-- A cut that does not leave a separator at the end leaves joined words. -/
theorem take_joined {parts : List (List α)}
    (hparts : AreWords isWord parts) (size : ℕ)
    (hlast : ((joined separator parts).take size).getLast? ≠ some separator) :
    ∃ kept, AreWords isWord kept ∧ (joined separator parts).take size = joined separator kept := by
  induction parts generalizing size with
  | nil => exact ⟨[], hparts, by simp⟩
  | cons first parts ih =>
    rcases parts with _ | ⟨second, parts⟩
    · rw [joined_singleton]
      exact take_word (hparts first List.mem_cons_self).2 size
    · rw [joined_cons_cons] at hlast ⊢
      rcases take_append_cons separator first (joined separator (second :: parts)) size with
        ⟨-, htake⟩ | ⟨more, rfl, htake⟩
      · rw [htake]
        exact take_word (hparts first List.mem_cons_self).2 size
      · rw [htake] at hlast ⊢
        rcases more with _ | more
        · exact absurd (by simp) hlast
        · have hrest := take_joined_ne_nil separator hparts.tail more
          rw [List.getLast?_append_cons, List.getLast?_cons_of_ne_nil hrest] at hlast
          obtain ⟨kept, hkept, hjoined⟩ := ih hparts.tail (more + 1) hlast
          rcases kept with _ | ⟨next, kept⟩
          · exact absurd hjoined hrest
          · refine ⟨first :: next :: kept, ?_, by rw [hjoined, joined_cons_cons]⟩
            intro part hpart
            rcases List.mem_cons.mp hpart with rfl | hmem
            · exact hparts part List.mem_cons_self
            · exact hkept part hmem

end Words

end Relayna.Library

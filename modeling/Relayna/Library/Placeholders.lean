import Mathlib.Data.List.Infix
import Relayna.Library.Holes

/-!
# Placeholders that are replaced again

`replaceAll` replaces every occurrence of a pattern from left to right. Placeholders that stand
between an opening and a closing symbol neither overlap nor contain one another, so an occurrence of
one in a text with marks is one of the marks, or it is in what has no marks. If the text that was
read has no occurrence of any, replacing the placeholders one after the other by what they stand for
gives that text, in whatever order (`foldl_replaceAll`).
-/

set_option autoImplicit false
set_option relaxedAutoImplicit false

namespace Relayna.Library.Placeholders

open Holes

/-! ### Replacing all occurrences -/

section Replacing

variable {Symbol : Type*} [DecidableEq Symbol]

/-- Replace the occurrences of a pattern once some symbols have been skipped. An empty pattern
occurs before every symbol and at the end. -/
def replaceFrom (pattern replacement : List Symbol) : ℕ → List Symbol → List Symbol
  | _, [] => if pattern = [] then replacement else []
  | skip + 1, _ :: rest => replaceFrom pattern replacement skip rest
  | 0, symbol :: rest =>
    if pattern = [] then replacement ++ symbol :: replaceFrom pattern replacement 0 rest
    else if pattern.isPrefixOf (symbol :: rest) then
      replacement ++ replaceFrom pattern replacement (pattern.length - 1) rest
    else symbol :: replaceFrom pattern replacement 0 rest

/-- Replace the occurrences of a pattern from left to right. -/
def replaceAll (pattern replacement text : List Symbol) : List Symbol :=
  replaceFrom pattern replacement 0 text

variable {pattern : List Symbol} (replacement : List Symbol)

theorem replaceAll_nil (hpattern : pattern ≠ []) : replaceAll pattern replacement [] = [] := by
  rw [replaceAll, replaceFrom, if_neg hpattern]

theorem replaceAll_cons (hpattern : pattern ≠ []) {symbol : Symbol} {rest : List Symbol}
    (hfront : ¬ pattern <+: symbol :: rest) :
    replaceAll pattern replacement (symbol :: rest) =
      symbol :: replaceAll pattern replacement rest := by
  rw [replaceAll, replaceFrom, if_neg hpattern, if_neg]
  · rfl
  · rwa [List.isPrefixOf_iff_prefix]

theorem replaceFrom_skip (skipped rest : List Symbol) :
    replaceFrom pattern replacement skipped.length (skipped ++ rest) =
      replaceAll pattern replacement rest := by
  induction skipped with
  | nil => rfl
  | cons symbol others ih =>
    rw [List.length_cons, List.cons_append, replaceFrom]
    exact ih

theorem replaceAll_append (hpattern : pattern ≠ []) (rest : List Symbol) :
    replaceAll pattern replacement (pattern ++ rest) =
      replacement ++ replaceAll pattern replacement rest := by
  obtain ⟨first, others, rfl⟩ := List.exists_cons_of_ne_nil hpattern
  rw [List.cons_append, replaceAll, replaceFrom, if_neg hpattern, if_pos, List.length_cons,
    Nat.add_sub_cancel, replaceFrom_skip]
  rw [List.isPrefixOf_iff_prefix, ← List.cons_append]
  exact List.prefix_append _ rest

/-- Without an occurrence nothing is replaced. -/
theorem replaceAll_of_not_infix (hpattern : pattern ≠ []) {text : List Symbol}
    (habsent : ¬ pattern <:+: text) : replaceAll pattern replacement text = text := by
  induction text with
  | nil => exact replaceAll_nil replacement hpattern
  | cons symbol rest ih =>
    rw [replaceAll_cons replacement hpattern fun hfront ↦ habsent hfront.isInfix,
      ih fun hinside ↦ habsent (List.infix_cons hinside)]

end Replacing

/-! ### Enclosed patterns -/

section Enclosing

variable {Symbol : Type*} {opening closing : Symbol}

/-- A piece begins with an opening symbol, ends with a closing one, and has no others. -/
structure Enclosed (opening closing : Symbol) (piece : List Symbol) : Prop where
  head : piece.head? = some opening
  tail : opening ∉ piece.tail
  last : piece.getLast? = some closing
  init : closing ∉ piece.dropLast

theorem Enclosed.exists_cons {piece : List Symbol} (hpiece : Enclosed opening closing piece) :
    ∃ rest, piece = opening :: rest ∧ opening ∉ rest := by
  obtain ⟨rest, rfl⟩ := List.head?_eq_some_iff.mp hpiece.head
  exact ⟨rest, rfl, hpiece.tail⟩

theorem Enclosed.ne_nil {piece : List Symbol} (hpiece : Enclosed opening closing piece) :
    piece ≠ [] := by
  obtain ⟨rest, rfl, -⟩ := hpiece.exists_cons
  exact List.cons_ne_nil opening rest

/-- A piece that begins in front of an opening symbol ends in front of it. -/
theorem Enclosed.prefix_left {piece before rest : List Symbol}
    (hpiece : Enclosed opening closing piece) (hbefore : before ≠ [])
    (hfront : piece <+: before ++ opening :: rest) : piece <+: before := by
  rcases le_total piece.length before.length with hle | hle
  · exact List.prefix_of_prefix_length_le hfront (List.prefix_append _ _) hle
  · obtain ⟨after, rfl⟩ := List.prefix_of_prefix_length_le (List.prefix_append _ _) hfront hle
    rw [List.prefix_append_right_inj] at hfront
    cases after with
    | nil => rw [List.append_nil]
    | cons symbol others =>
      obtain ⟨first, middle, rfl⟩ := List.exists_cons_of_ne_nil hbefore
      obtain ⟨rfl, -⟩ := List.cons_prefix_cons.mp hfront
      exact absurd (by simp) hpiece.tail

theorem Enclosed.eq_of_prefix {first second : List Symbol}
    (hfirst : Enclosed opening closing first) (hsecond : Enclosed opening closing second)
    (hfront : first <+: second) : first = second := by
  obtain ⟨after, rfl⟩ := hfront
  by_cases hafter : after = []
  · rw [hafter, List.append_nil]
  · have hclosing := hsecond.init
    rw [List.dropLast_append_of_ne_nil hafter] at hclosing
    exact absurd (List.mem_append_left _ (List.mem_of_getLast? hfirst.last)) hclosing

/-- Of two pieces at one place, both are the same. -/
theorem Enclosed.eq_of_prefix_append {first second rest : List Symbol}
    (hfirst : Enclosed opening closing first) (hsecond : Enclosed opening closing second)
    (hfront : first <+: second ++ rest) : first = second := by
  rcases List.prefix_or_prefix_of_prefix hfront (List.prefix_append second rest) with hle | hle
  · exact hfirst.eq_of_prefix hsecond hle
  · exact (hsecond.eq_of_prefix hfirst hle).symm

variable [DecidableEq Symbol] {pattern : List Symbol} (replacement : List Symbol)

/-- Where no symbol is an opening one, nothing begins. -/
theorem replaceAll_append_of_not_mem (hpattern : Enclosed opening closing pattern)
    {others : List Symbol} (hothers : opening ∉ others) (rest : List Symbol) :
    replaceAll pattern replacement (others ++ rest) =
      others ++ replaceAll pattern replacement rest := by
  induction others with
  | nil => rfl
  | cons symbol remaining ih =>
    have hfront : ¬ pattern <+: symbol :: (remaining ++ rest) := by
      intro hfront
      obtain ⟨body, rfl, -⟩ := hpattern.exists_cons
      obtain ⟨rfl, -⟩ := List.cons_prefix_cons.mp hfront
      exact hothers List.mem_cons_self
    rw [List.cons_append, replaceAll_cons replacement hpattern.ne_nil hfront,
      ih fun hmem ↦ hothers (List.mem_cons_of_mem symbol hmem), List.cons_append]

/-- Assumes: no occurrence in front of an enclosed piece. The piece is replaced as a whole if it is
the pattern, and not at all if it is not. -/
theorem replaceAll_append_enclosed (hpattern : Enclosed opening closing pattern)
    {piece : List Symbol} (hpiece : Enclosed opening closing piece) {before : List Symbol}
    (habsent : ¬ pattern <:+: before) (rest : List Symbol) :
    replaceAll pattern replacement (before ++ (piece ++ rest)) =
      before ++ ((if piece = pattern then replacement else piece) ++
        replaceAll pattern replacement rest) := by
  induction before with
  | nil =>
    rw [List.nil_append, List.nil_append]
    split_ifs with hsame
    · rw [hsame, replaceAll_append replacement hpattern.ne_nil]
    · have hfront : ¬ pattern <+: piece ++ rest := fun hfront ↦
        hsame (hpattern.eq_of_prefix_append hpiece hfront).symm
      obtain ⟨body, rfl, hbody⟩ := hpiece.exists_cons
      rw [List.cons_append] at hfront ⊢
      rw [replaceAll_cons replacement hpattern.ne_nil hfront,
        replaceAll_append_of_not_mem replacement hpattern hbody, List.cons_append]
  | cons symbol others ih =>
    have hfront : ¬ pattern <+: symbol :: (others ++ (piece ++ rest)) := by
      intro hfront
      obtain ⟨body, rfl, -⟩ := hpiece.exists_cons
      exact habsent (hpattern.prefix_left (List.cons_ne_nil symbol others) hfront).isInfix
    rw [List.cons_append, replaceAll_cons replacement hpattern.ne_nil hfront,
      ih fun hinside ↦ habsent (List.infix_cons hinside), List.cons_append]

end Enclosing

/-! ### Filling the holes again -/

section Restoring

variable {Symbol Item : Type*} [DecidableEq Symbol] [DecidableEq Item] {opening closing : Symbol}

/-- What is in a hole once some items have been put back: the text of one of them, or a mark. -/
def content (mark text : Item → List Symbol) (restored : List Item) (item : Item) : List Symbol :=
  if item ∈ restored then text item else mark item

variable {mark text : Item → List Symbol}

/-- Assumes: marks that are enclosed, an item whose mark no other hole has, and a text in which the
mark does not occur. Replacing this mark puts the item back. The induction is on the text with
holes, for what has been put back in front of it. -/
theorem replaceAll_fill (hmark : ∀ item, Enclosed opening closing (mark item))
    (restored : List Item) (item : Item) {before : List Symbol} {holed : List (Symbol ⊕ Item)}
    (hunique : ∀ other ∈ holes holed, mark other = mark item → other = item)
    (habsent : ¬ mark item <:+: before ++ fill text holed) :
    replaceAll (mark item) (text item) (before ++ fill (content mark text restored) holed) =
      before ++ fill (content mark text (item :: restored)) holed := by
  induction holed generalizing before with
  | nil =>
    exact replaceAll_of_not_infix (text item) (hmark item).ne_nil habsent
  | cons entry rest ih =>
    rcases entry with symbol | other
    · have hrest := @ih (before ++ [symbol])
      rw [List.append_assoc, List.append_assoc, List.append_assoc] at hrest
      exact hrest hunique habsent
    · have hothers : ∀ hole ∈ holes rest, mark hole = mark item → hole = item := fun hole hhole ↦
        hunique hole (List.mem_cons_of_mem other hhole)
      rw [fill_inr] at habsent
      rw [fill_inr, fill_inr]
      by_cases hrestored : other ∈ restored
      · have hrest := @ih (before ++ text other)
        rw [List.append_assoc, List.append_assoc, List.append_assoc] at hrest
        rw [content, if_pos hrestored, content, if_pos (List.mem_cons_of_mem item hrestored)]
        exact hrest hothers habsent
      · have hbefore : ¬ mark item <:+: before := fun hinside ↦
          habsent (hinside.trans (List.infix_append [] before _))
        have hafter : ¬ mark item <:+: [] ++ fill text rest := fun hinside ↦
          habsent (hinside.trans ((List.suffix_append _ _).trans (List.suffix_append _ _)).isInfix)
        have hrest := @ih [] hothers hafter
        rw [List.nil_append, List.nil_append] at hrest
        rw [content, if_neg hrestored,
          replaceAll_append_enclosed (text item) (hmark item) (hmark other) hbefore, hrest]
        congr 2
        rw [content]
        by_cases hsame : other = item
        · rw [hsame, if_pos rfl, if_pos List.mem_cons_self]
        · rw [if_neg fun hmarks ↦ hsame (hunique other List.mem_cons_self hmarks), if_neg]
          rintro (- | ⟨-, hmem⟩)
          · exact hsame rfl
          · exact hrestored hmem

/-- The rule for putting all items back. Assumes: marks that are enclosed, items of which no two
share a mark and that include those of the holes, and a text in which none of the marks occurs.
Replacing the marks of the items one after the other gives the text. -/
theorem foldl_replaceAll (hmark : ∀ item, Enclosed opening closing (mark item))
    {holed : List (Symbol ⊕ Item)} {items : List Item}
    (hunique : ∀ item ∈ items, ∀ other ∈ items, mark other = mark item → other = item)
    (habsent : ∀ item ∈ items, ¬ mark item <:+: fill text holed)
    (hholes : ∀ item ∈ holes holed, item ∈ items) :
    items.foldl (fun value item ↦ replaceAll (mark item) (text item) value) (fill mark holed) =
      fill text holed := by
  have hrun : ∀ removed : List Item, (∀ item ∈ removed, item ∈ items) → ∀ restored : List Item,
      removed.foldl (fun value item ↦ replaceAll (mark item) (text item) value)
          (fill (content mark text restored) holed) =
        fill (content mark text (removed.reverse ++ restored)) holed := by
    intro removed
    induction removed with
    | nil => exact fun _ restored ↦ rfl
    | cons item others ih =>
      intro hremoved restored
      have hitem := hremoved item List.mem_cons_self
      have hstep := @replaceAll_fill _ _ _ _ _ _ mark text hmark restored item [] holed
        (fun other hother ↦ hunique item hitem other (hholes other hother)) (habsent item hitem)
      rw [List.nil_append, List.nil_append] at hstep
      rw [List.foldl_cons, hstep,
        ih fun other hother ↦ hremoved other (List.mem_cons_of_mem item hother), List.reverse_cons,
        List.append_assoc, List.singleton_append]
  have hstart : fill mark holed = fill (content mark text []) holed :=
    fill_congr fun item _ ↦ (if_neg List.not_mem_nil).symm
  rw [hstart, hrun items fun item hitem ↦ hitem]
  refine fill_congr fun item hitem ↦ if_pos ?_
  rw [List.append_nil, List.mem_reverse]
  exact hholes item hitem

end Restoring

end Relayna.Library.Placeholders

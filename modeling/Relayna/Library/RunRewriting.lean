import Mathlib.Data.List.Basic
import Mathlib.Data.List.Induction
import Mathlib.Data.List.ReduceOption

/-!
# Rewriting the maximal runs of a list in pieces

A rewriter goes through a list, collects maximal runs of token elements, and replaces those runs
that are items by a text that carries the number of the item. Elements that are no tokens are
copied, and an item keeps the punctuation at its ends.

The list may instead be cut into pieces that are rewritten one by one, each with its own numbering.
A run that is cut comes out the same if it is no item and no fragment of it is one, or if all its
fragments but one are punctuation (`KeepsRun`); and the numbering comes out the same if at most one
piece has an item. `flatten_map_rewrite` is the rule for a whole list of pieces.
-/

set_option autoImplicit false
set_option relaxedAutoImplicit false

namespace Relayna.Library.RunRewriting

variable {Symbol : Type*}

/-- What a rewriter replaces: runs of tokens that are items, whatever punctuation they carry. -/
structure Rewriter (Symbol : Type*) where
  isToken : Symbol → Bool
  isItem : List Symbol → Bool
  isTrim : Symbol → Bool
  replace : ℕ → List Symbol → List Symbol
  isItem_nil : isItem [] = false
  isItem_cons : ∀ symbol token, isTrim symbol = true → isItem (symbol :: token) = isItem token
  isItem_concat : ∀ token symbol, isTrim symbol = true → isItem (token ++ [symbol]) = isItem token
  replace_cons : ∀ number symbol token, isTrim symbol = true → isItem token = true →
    replace number (symbol :: token) = symbol :: replace number token
  replace_concat : ∀ number token symbol, isTrim symbol = true → isItem token = true →
    replace number (token ++ [symbol]) = replace number token ++ [symbol]

/-- What becomes of one run, with the number of items so far. -/
def Rewriter.push (rewriter : Rewriter Symbol) (count : ℕ)
  (token : List Symbol) : List Symbol × ℕ :=
  if rewriter.isItem token then (rewriter.replace (count + 1) token, count + 1) else (token, count)

/-- Rewrite a list, with the number of items so far and the run that is being collected. -/
def Rewriter.rewrite (rewriter : Rewriter Symbol) (count : ℕ) (token : List Symbol) :
    List Symbol → List Symbol × ℕ
  | [] => rewriter.push count token
  | symbol :: rest =>
    if rewriter.isToken symbol then rewriter.rewrite count (token ++ [symbol]) rest
    else
      let pushed := rewriter.push count token
      let following := rewriter.rewrite pushed.2 [] rest
      (pushed.1 ++ symbol :: following.1, following.2)

/-! ### Runs in a list that is cut -/

/-- Pieces with marks between them. -/
def mark : List (List Symbol) → List (Option Symbol)
  | [] => []
  | [piece] => piece.map some
  | piece :: next :: rest => piece.map some ++ none :: mark (next :: rest)

/-- The maximal runs of tokens in a list with marks, each as the fragments into which the marks cut
it. -/
def Rewriter.runs (rewriter : Rewriter Symbol) (fragments : List (List Symbol))
  (token : List Symbol) :
    List (Option Symbol) → List (List (List Symbol))
  | [] => [fragments ++ [token]]
  | none :: rest => rewriter.runs (fragments ++ [token]) [] rest
  | some symbol :: rest =>
    if rewriter.isToken symbol then rewriter.runs fragments (token ++ [symbol]) rest
    else (fragments ++ [token]) :: rewriter.runs [] [] rest

/-- A run may be cut into these fragments: it is no item and none of them is one, or all of them but
one are punctuation. -/
def Rewriter.KeepsRun (rewriter : Rewriter Symbol) (fragments : List (List Symbol)) : Prop :=
  (rewriter.isItem fragments.flatten = false ∧
      ∀ fragment ∈ fragments, rewriter.isItem fragment = false) ∨
    ∃ before fragment after, fragments = before ++ fragment :: after ∧
      (∀ symbol ∈ before.flatten, rewriter.isTrim symbol = true) ∧
      ∀ symbol ∈ after.flatten, rewriter.isTrim symbol = true

/-- All fragments but one are punctuation, as a check. -/
def Rewriter.trimmedButOne (rewriter : Rewriter Symbol) : List (List Symbol) → Bool
  | [] => false
  | fragment :: rest =>
    rest.flatten.all rewriter.isTrim ||
      (fragment.all rewriter.isTrim && rewriter.trimmedButOne rest)

theorem trimmedButOne_iff (rewriter : Rewriter Symbol) (fragments : List (List Symbol)) :
    rewriter.trimmedButOne fragments = true ↔
      ∃ before fragment after, fragments = before ++ fragment :: after ∧
        (∀ symbol ∈ before.flatten, rewriter.isTrim symbol = true) ∧
        ∀ symbol ∈ after.flatten, rewriter.isTrim symbol = true := by
  induction fragments with
  | nil =>
    constructor
    · nofun
    · rintro ⟨before, fragment, after, hsplit, -⟩
      cases before <;> cases hsplit
  | cons fragment rest ih =>
    rw [Rewriter.trimmedButOne, Bool.or_eq_true, Bool.and_eq_true, ih, List.all_eq_true,
      List.all_eq_true]
    constructor
    · rintro (hrest | ⟨hfragment, before, middle, after, rfl, hbefore, hafter⟩)
      · exact ⟨[], fragment, rest, rfl, nofun, hrest⟩
      · refine ⟨fragment :: before, middle, after, rfl, fun symbol hsymbol ↦ ?_, hafter⟩
        rcases List.mem_append.mp hsymbol with hmem | hmem
        · exact hfragment symbol hmem
        · exact hbefore symbol hmem
    · rintro ⟨before, middle, after, hsplit, hbefore, hafter⟩
      cases before with
      | nil =>
        obtain ⟨-, rfl⟩ := List.cons.inj hsplit
        exact Or.inl hafter
      | cons first others =>
        obtain ⟨rfl, rfl⟩ := List.cons.inj hsplit
        refine Or.inr ⟨fun symbol hmem ↦ hbefore symbol (List.mem_append_left _ hmem), others,
          middle, after, rfl, fun symbol hmem ↦ hbefore symbol (List.mem_append_right _ hmem),
          hafter⟩

instance (rewriter : Rewriter Symbol) (fragments : List (List Symbol)) :
    Decidable (rewriter.KeepsRun fragments) :=
  haveI := decidable_of_iff _ (trimmedButOne_iff rewriter fragments)
  inferInstanceAs (Decidable (_ ∨ _))

def Rewriter.HasItem (rewriter : Rewriter Symbol) (piece : List Symbol) : Prop :=
  ∃ run ∈ rewriter.runs [] [] (piece.map some), rewriter.isItem run.flatten = true

instance (rewriter : Rewriter Symbol) (piece : List Symbol) : Decidable (rewriter.HasItem piece) :=
  inferInstanceAs (Decidable (∃ run ∈ _, _))

/-- A list may be cut into these pieces: every run is kept, and at most one piece has an item. -/
structure Rewriter.KeepsCuts (rewriter : Rewriter Symbol) (pieces : List (List Symbol)) : Prop where
  runs : ∀ run ∈ rewriter.runs [] [] (mark pieces), rewriter.KeepsRun run
  numbers : pieces.Pairwise fun first second ↦
    ¬ (rewriter.HasItem first ∧ rewriter.HasItem second)

instance (rewriter : Rewriter Symbol) (pieces : List (List Symbol)) :
    Decidable (rewriter.KeepsCuts pieces) :=
  decidable_of_iff
    ((∀ run ∈ rewriter.runs [] [] (mark pieces), rewriter.KeepsRun run) ∧
      pieces.Pairwise fun first second ↦ ¬ (rewriter.HasItem first ∧ rewriter.HasItem second))
    ⟨fun hkeeps ↦ ⟨hkeeps.1, hkeeps.2⟩, fun hkeeps ↦ ⟨hkeeps.runs, hkeeps.numbers⟩⟩

/-! ### Single runs -/

section Runs

variable {rewriter : Rewriter Symbol}

theorem isItem_append_left {before : List Symbol}
    (hbefore : ∀ symbol ∈ before, rewriter.isTrim symbol = true) (token : List Symbol) :
    rewriter.isItem (before ++ token) = rewriter.isItem token := by
  induction before with
  | nil => rfl
  | cons symbol rest ih =>
    rw [List.cons_append, rewriter.isItem_cons _ _ (hbefore symbol List.mem_cons_self),
      ih fun other hother ↦ hbefore other (List.mem_cons_of_mem symbol hother)]

theorem isItem_append_right {after : List Symbol}
    (hafter : ∀ symbol ∈ after, rewriter.isTrim symbol = true) (token : List Symbol) :
    rewriter.isItem (token ++ after) = rewriter.isItem token := by
  induction after using List.reverseRecOn with
  | nil => rw [List.append_nil]
  | append_singleton rest symbol ih =>
    rw [← List.append_assoc, rewriter.isItem_concat _ _ (hafter symbol (by simp)),
      ih fun other hother ↦ hafter other (List.mem_append_left _ hother)]

theorem replace_append_left {before : List Symbol}
    (hbefore : ∀ symbol ∈ before, rewriter.isTrim symbol = true) {token : List Symbol}
    (hitem : rewriter.isItem token = true) (number : ℕ) :
    rewriter.replace number (before ++ token) = before ++ rewriter.replace number token := by
  induction before with
  | nil => rfl
  | cons symbol rest ih =>
    have hrest : ∀ other ∈ rest, rewriter.isTrim other = true := fun other hother ↦
      hbefore other (List.mem_cons_of_mem symbol hother)
    have hitem' : rewriter.isItem (rest ++ token) = true :=
      (isItem_append_left hrest token).trans hitem
    rw [List.cons_append, rewriter.replace_cons _ _ _ (hbefore symbol List.mem_cons_self) hitem',
      ih hrest, List.cons_append]

theorem replace_append_right {after : List Symbol}
    (hafter : ∀ symbol ∈ after, rewriter.isTrim symbol = true) {token : List Symbol}
    (hitem : rewriter.isItem token = true) (number : ℕ) :
    rewriter.replace number (token ++ after) = rewriter.replace number token ++ after := by
  induction after using List.reverseRecOn with
  | nil => rw [List.append_nil, List.append_nil]
  | append_singleton rest symbol ih =>
    have hrest : ∀ other ∈ rest, rewriter.isTrim other = true := fun other hother ↦
      hafter other (List.mem_append_left _ hother)
    have hitem' : rewriter.isItem (token ++ rest) = true :=
      (isItem_append_right hrest token).trans hitem
    rw [← List.append_assoc, rewriter.replace_concat _ _ _ (hafter symbol (by simp)) hitem',
      ih hrest, List.append_assoc]

theorem isItem_of_trim {token : List Symbol}
    (htrim : ∀ symbol ∈ token, rewriter.isTrim symbol = true) : rewriter.isItem token = false := by
  rw [← List.append_nil token, isItem_append_left htrim, rewriter.isItem_nil]

theorem push_of_not_item {token : List Symbol} (hitem : rewriter.isItem token = false) (count : ℕ) :
    rewriter.push count token = (token, count) := by
  rw [Rewriter.push, hitem]
  rfl

@[simp] theorem push_nil (count : ℕ) : rewriter.push count [] = ([], count) :=
  push_of_not_item rewriter.isItem_nil count

/-- Punctuation around a run is copied. -/
theorem push_append {before after : List Symbol}
    (hbefore : ∀ symbol ∈ before, rewriter.isTrim symbol = true)
    (hafter : ∀ symbol ∈ after, rewriter.isTrim symbol = true) (count : ℕ) (token : List Symbol) :
    rewriter.push count (before ++ token ++ after) =
      (before ++ (rewriter.push count token).1 ++ after, (rewriter.push count token).2) := by
  have hsame : rewriter.isItem (before ++ token ++ after) = rewriter.isItem token := by
    rw [isItem_append_right hafter, isItem_append_left hbefore]
  rw [Rewriter.push, Rewriter.push, hsame]
  split_ifs with hitem
  · rw [replace_append_right hafter ((isItem_append_left hbefore token).trans hitem),
      replace_append_left hbefore hitem]
  · rfl

/-- Assumes: items that keep the symbols of a kind when they are replaced. So does the list. -/
theorem filter_rewrite {keep : Symbol → Bool}
    (hreplace : ∀ number token, rewriter.isItem token = true →
      (rewriter.replace number token).filter keep = token.filter keep)
    (count : ℕ) (token input : List Symbol) :
    (rewriter.rewrite count token input).1.filter keep = (token ++ input).filter keep := by
  have hpush : ∀ count token, (rewriter.push count token).1.filter keep = token.filter keep := by
    intro count token
    rw [Rewriter.push]
    split_ifs with hitem
    · exact hreplace _ token hitem
    · rfl
  induction input generalizing count token with
  | nil => rw [Rewriter.rewrite, hpush, List.append_nil]
  | cons symbol rest ih =>
    rw [Rewriter.rewrite]
    split_ifs
    · rw [ih, List.append_assoc, List.singleton_append]
    · dsimp only
      rw [List.filter_append, hpush, List.filter_append, List.filter_cons, ih, List.filter_cons,
        List.nil_append]

/-- Assumes: items that are never replaced by nothing. Only the empty list is rewritten to nothing.
-/
theorem eq_nil_of_rewrite
    (hreplace : ∀ number token, rewriter.isItem token = true → rewriter.replace number token ≠ [])
    {count : ℕ} {token input : List Symbol} (hnil : (rewriter.rewrite count token input).1 = []) :
    token ++ input = [] := by
  induction input generalizing count token with
  | nil =>
    rw [Rewriter.rewrite, Rewriter.push] at hnil
    split_ifs at hnil with hitem
    · exact absurd hnil (hreplace _ token hitem)
    · rw [List.append_nil]
      exact hnil
  | cons symbol rest ih =>
    rw [Rewriter.rewrite] at hnil
    split_ifs at hnil
    · have htoken := ih hnil
      rw [List.append_assoc, List.singleton_append] at htoken
      exact htoken
    · exact absurd hnil (by simp)

/-- Fragments one by one, with one numbering. -/
def Rewriter.pushAll (rewriter : Rewriter Symbol) (count : ℕ) :
    List (List Symbol) → List Symbol × ℕ
  | [] => ([], count)
  | fragment :: rest =>
    let pushed := rewriter.push count fragment
    let following := rewriter.pushAll pushed.2 rest
    (pushed.1 ++ following.1, following.2)

theorem pushAll_append (count : ℕ) (first second : List (List Symbol)) :
    rewriter.pushAll count (first ++ second) =
      ((rewriter.pushAll count first).1 ++
          (rewriter.pushAll (rewriter.pushAll count first).2 second).1,
        (rewriter.pushAll (rewriter.pushAll count first).2 second).2) := by
  induction first generalizing count with
  | nil => rfl
  | cons fragment rest ih =>
    rw [List.cons_append, Rewriter.pushAll, Rewriter.pushAll]
    dsimp only
    rw [ih, List.append_assoc]

theorem pushAll_of_not_item {fragments : List (List Symbol)}
    (hfragments : ∀ fragment ∈ fragments, rewriter.isItem fragment = false) (count : ℕ) :
    rewriter.pushAll count fragments = (fragments.flatten, count) := by
  induction fragments with
  | nil => rfl
  | cons fragment rest ih =>
    rw [Rewriter.pushAll, push_of_not_item (hfragments fragment List.mem_cons_self)]
    dsimp only
    rw [ih fun other hother ↦ hfragments other (List.mem_cons_of_mem fragment hother),
      List.flatten_cons]

theorem isItem_of_trim_flatten {fragments : List (List Symbol)}
    (htrim : ∀ symbol ∈ fragments.flatten, rewriter.isTrim symbol = true) :
    ∀ fragment ∈ fragments, rewriter.isItem fragment = false := by
  intro fragment hfragment
  apply isItem_of_trim
  intro symbol hsymbol
  exact htrim symbol (List.mem_flatten.mpr ⟨fragment, hfragment, hsymbol⟩)

/-- A run that is kept comes out as its fragments do. -/
theorem Rewriter.KeepsRun.pushAll_eq {fragments : List (List Symbol)}
    (hkeeps : rewriter.KeepsRun fragments) (count : ℕ) :
    rewriter.pushAll count fragments = rewriter.push count fragments.flatten := by
  rcases hkeeps with ⟨hwhole, hfragments⟩ | ⟨before, fragment, after, rfl, hbefore, hafter⟩
  · rw [pushAll_of_not_item hfragments, push_of_not_item hwhole]
  · have hflatten : (before ++ fragment :: after).flatten =
        before.flatten ++ fragment ++ after.flatten := by
      rw [List.flatten_append, List.flatten_cons, List.append_assoc]
    rw [hflatten, push_append hbefore hafter, pushAll_append,
      pushAll_of_not_item (isItem_of_trim_flatten hbefore), Rewriter.pushAll]
    dsimp only
    rw [pushAll_of_not_item (isItem_of_trim_flatten hafter), List.append_assoc]

end Runs

/-! ### Lists of pieces -/

section Pieces

variable {rewriter : Rewriter Symbol}

/-- Rewrite pieces one by one, with one numbering. -/
def Rewriter.thread (rewriter : Rewriter Symbol) (count : ℕ) (token : List Symbol) :
    List (Option Symbol) → List Symbol × ℕ
  | [] => rewriter.push count token
  | none :: rest =>
    let pushed := rewriter.push count token
    let following := rewriter.thread pushed.2 [] rest
    (pushed.1 ++ following.1, following.2)
  | some symbol :: rest =>
    if rewriter.isToken symbol then rewriter.thread count (token ++ [symbol]) rest
    else
      let pushed := rewriter.push count token
      let following := rewriter.thread pushed.2 [] rest
      (pushed.1 ++ symbol :: following.1, following.2)

theorem pushAll_concat (count : ℕ) (fragments : List (List Symbol)) (token : List Symbol) :
    rewriter.pushAll count (fragments ++ [token]) =
      ((rewriter.pushAll count fragments).1 ++
        (rewriter.push (rewriter.pushAll count fragments).2 token).1,
      (rewriter.push (rewriter.pushAll count fragments).2 token).2) := by
  rw [pushAll_append, Rewriter.pushAll, Rewriter.pushAll]
  dsimp only
  rw [List.append_nil]

/-- Assumes: runs that are kept. With one numbering the marks make no difference. The induction is
on the list with marks, for the fragments of the run that is being collected. -/
theorem thread_eq_rewrite {marked : List (Option Symbol)} {fragments : List (List Symbol)}
    {token : List Symbol}
    (hkeeps : ∀ run ∈ rewriter.runs fragments token marked, rewriter.KeepsRun run) (count : ℕ) :
    ((rewriter.pushAll count fragments).1 ++
        (rewriter.thread (rewriter.pushAll count fragments).2 token marked).1,
      (rewriter.thread (rewriter.pushAll count fragments).2 token marked).2) =
      rewriter.rewrite count (fragments.flatten ++ token) marked.reduceOption := by
  have hflatten : ∀ token : List Symbol,
      (fragments ++ [token]).flatten = fragments.flatten ++ token := by
    intro token
    rw [List.flatten_append, List.flatten_singleton]
  induction marked generalizing fragments token count with
  | nil =>
    have hrun := hkeeps _ (List.mem_singleton.mpr rfl)
    rw [Rewriter.thread, ← pushAll_concat, hrun.pushAll_eq, hflatten]
    rfl
  | cons mark rest ih =>
    cases mark with
    | none =>
      have hrest := @ih (fragments ++ [token]) [] hkeeps count fun token ↦ by simp
      rw [List.reduceOption_cons_of_none,
        ← List.append_nil (fragments.flatten ++ token), ← hflatten,
        ← hrest, pushAll_concat, Rewriter.thread]
      dsimp only
      rw [List.append_assoc]
    | some symbol =>
      rw [List.reduceOption_cons_of_some, Rewriter.thread, Rewriter.rewrite]
      rw [Rewriter.runs] at hkeeps
      split_ifs at hkeeps ⊢ with htoken
      · rw [List.append_assoc]
        exact ih hkeeps count hflatten
      · have hrun := hkeeps _ List.mem_cons_self
        have hrest := @ih [] [] (fun run hmem ↦ hkeeps run (List.mem_cons_of_mem _ hmem))
        dsimp only
        rw [← hflatten, ← hrun.pushAll_eq, pushAll_concat]
        dsimp only
        rw [← List.append_assoc]
        have hfollowing := hrest (rewriter.push (rewriter.pushAll count fragments).2 token).2
          fun token ↦ by simp
        rw [List.flatten_nil, List.nil_append] at hfollowing
        rw [← hfollowing]
        rfl

/-- A piece followed by a mark. -/
theorem thread_piece (piece : List Symbol) (marked : List (Option Symbol)) (count : ℕ)
    (token : List Symbol) :
    rewriter.thread count token (piece.map some ++ none :: marked) =
      ((rewriter.rewrite count token piece).1 ++
          (rewriter.thread (rewriter.rewrite count token piece).2 [] marked).1,
        (rewriter.thread (rewriter.rewrite count token piece).2 [] marked).2) := by
  induction piece generalizing count token with
  | nil => rfl
  | cons symbol rest ih =>
    rw [List.map_cons, List.cons_append, Rewriter.thread, Rewriter.rewrite]
    split_ifs
    · exact ih count (token ++ [symbol])
    · dsimp only
      rw [ih, List.append_assoc, List.cons_append]

theorem thread_last (piece : List Symbol) (count : ℕ) (token : List Symbol) :
    rewriter.thread count token (piece.map some) = rewriter.rewrite count token piece := by
  induction piece generalizing count token with
  | nil => rfl
  | cons symbol rest ih =>
    rw [List.map_cons, Rewriter.thread, Rewriter.rewrite]
    split_ifs
    · exact ih count (token ++ [symbol])
    · dsimp only
      rw [ih]

/-- Assumes: a piece whose runs are no items. It is copied. -/
theorem rewrite_of_no_item {piece token : List Symbol}
    (hruns : ∀ run ∈ rewriter.runs [] token (piece.map some), rewriter.isItem run.flatten = false)
    (count : ℕ) : rewriter.rewrite count token piece = (token ++ piece, count) := by
  induction piece generalizing count token with
  | nil =>
    have htoken := hruns [token] (List.mem_singleton.mpr rfl)
    rw [List.flatten_singleton] at htoken
    rw [Rewriter.rewrite, push_of_not_item htoken, List.append_nil]
  | cons symbol rest ih =>
    rw [List.map_cons, Rewriter.runs] at hruns
    rw [Rewriter.rewrite]
    split_ifs at hruns ⊢ with hsymbol
    · rw [ih hruns, List.append_assoc, List.singleton_append]
    · have htoken := hruns [token] List.mem_cons_self
      rw [List.flatten_singleton] at htoken
      rw [push_of_not_item htoken]
      dsimp only
      rw [ih fun run hrun ↦ hruns run (List.mem_cons_of_mem _ hrun), List.nil_append]

theorem rewrite_of_not_hasItem {piece : List Symbol}
    (hitem : ¬ rewriter.HasItem piece) (count : ℕ) :
    rewriter.rewrite count [] piece = (piece, count) := by
  refine rewrite_of_no_item (fun run hrun ↦ ?_) count
  by_contra hfound
  exact hitem ⟨run, hrun, by simpa using hfound⟩

theorem thread_mark_of_no_item {pieces : List (List Symbol)}
    (hpieces : ∀ piece ∈ pieces, ¬ rewriter.HasItem piece) (count : ℕ) :
    rewriter.thread count [] (mark pieces) = (pieces.flatten, count) := by
  induction pieces with
  | nil => exact push_nil count
  | cons piece rest ih =>
    have hpiece := rewrite_of_not_hasItem (hpieces piece List.mem_cons_self) count
    cases rest with
    | nil => rw [mark, thread_last, hpiece, List.flatten_singleton]
    | cons next others =>
      rw [mark, thread_piece, hpiece]
      dsimp only
      rw [ih fun other hother ↦ hpieces other (List.mem_cons_of_mem piece hother)]
      rfl

/-- Assumes: at most one piece with an item. A numbering for each piece is one numbering. -/
theorem thread_mark {pieces : List (List Symbol)}
    (hnumbers : pieces.Pairwise fun first second ↦
      ¬ (rewriter.HasItem first ∧ rewriter.HasItem second)) :
    (rewriter.thread 0 [] (mark pieces)).1 =
      (pieces.map fun piece ↦ (rewriter.rewrite 0 [] piece).1).flatten := by
  induction pieces with
  | nil => exact congrArg Prod.fst (push_nil 0)
  | cons piece rest ih =>
    obtain ⟨hfirst, hrest⟩ := List.pairwise_cons.mp hnumbers
    cases rest with
    | nil => rw [mark, thread_last, List.map_singleton, List.flatten_singleton]
    | cons next others =>
      rw [mark, thread_piece, List.map_cons, List.flatten_cons]
      dsimp only
      congr 1
      by_cases hitem : rewriter.HasItem piece
      · have hothers : ∀ other ∈ next :: others, ¬ rewriter.HasItem other := fun other hother hhas ↦
          hfirst other hother ⟨hitem, hhas⟩
        have hcopied : ((next :: others).map fun piece ↦ (rewriter.rewrite 0 [] piece).1) =
            next :: others := by
          conv_rhs => rw [← List.map_id (next :: others)]
          apply List.map_congr_left
          intro other hother
          rw [rewrite_of_not_hasItem (hothers other hother), id]
        rw [thread_mark_of_no_item hothers, hcopied]
      · rw [rewrite_of_not_hasItem hitem]
        exact ih hrest

theorem reduceOption_mark (pieces : List (List Symbol)) :
    (mark pieces).reduceOption = pieces.flatten := by
  induction pieces with
  | nil => rfl
  | cons piece rest ih =>
    have hpiece : (piece.map some).reduceOption = piece := by simp [List.reduceOption]
    cases rest with
    | nil => rw [mark, hpiece, List.flatten_singleton]
    | cons next others =>
      rw [mark, List.reduceOption_append, hpiece, List.reduceOption_cons_of_none, ih]
      rfl

/-- The rule for pieces. Assumes: cuts that keep the runs and the numbers. Rewriting the pieces one
by one rewrites the list. -/
theorem flatten_map_rewrite {pieces : List (List Symbol)} (hkeeps : rewriter.KeepsCuts pieces) :
    (pieces.map fun piece ↦ (rewriter.rewrite 0 [] piece).1).flatten =
      (rewriter.rewrite 0 [] pieces.flatten).1 := by
  have hthread := @thread_eq_rewrite _ rewriter (mark pieces) [] [] hkeeps.runs 0
  rw [reduceOption_mark] at hthread
  rw [← thread_mark hkeeps.numbers]
  exact congrArg Prod.fst hthread

end Pieces

end Relayna.Library.RunRewriting

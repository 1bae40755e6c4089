import Mathlib.Data.List.DropRight
import Mathlib.Data.List.Perm.Basic
import Relayna.Library.RunRewriting

/-!
# Texts with holes

What a rewriter of runs does to a text, without the texts that it puts in: an item is cut out and
leaves a hole that knows it. Filling the holes with the marks of their items gives the rewritten
text (`rewrite_eq_fill`), and filling them with what was cut out gives the text that was read
(`fill_text_carve`). A second rewriter goes on with the text with holes, as long as the marks are
neutral to it (`carve_fill`).

`Clean` says that a rewriter finds nothing. A carved text is clean (`clean_carve`), and it is still
clean after another rewriter whose punctuation is none of its tokens (`clean_carve_of_clean`).
-/

set_option autoImplicit false
set_option relaxedAutoImplicit false

namespace Relayna.Library.Holes

open RunRewriting

variable {Symbol Item : Type*}

/-! ### Filling -/

/-- A text without holes. -/
def literal (text : List Symbol) : List (Symbol ⊕ Item) := text.map Sum.inl

@[simp] theorem literal_nil : (literal [] : List (Symbol ⊕ Item)) = [] := rfl

@[simp] theorem literal_cons (symbol : Symbol) (rest : List Symbol) :
    (literal (symbol :: rest) : List (Symbol ⊕ Item)) = .inl symbol :: literal rest := rfl

@[simp] theorem literal_append (first second : List Symbol) :
    (literal (first ++ second) : List (Symbol ⊕ Item)) = literal first ++ literal second :=
  List.map_append

/-- The text with a content in each hole. -/
def fill (content : Item → List Symbol) : List (Symbol ⊕ Item) → List Symbol
  | [] => []
  | .inl symbol :: rest => symbol :: fill content rest
  | .inr item :: rest => content item ++ fill content rest

def holes : List (Symbol ⊕ Item) → List Item
  | [] => []
  | .inl _ :: rest => holes rest
  | .inr item :: rest => item :: holes rest

section Filling

variable (content : Item → List Symbol)

@[simp] theorem fill_nil : fill content ([] : List (Symbol ⊕ Item)) = [] := rfl

@[simp] theorem fill_inl (symbol : Symbol) (rest : List (Symbol ⊕ Item)) :
    fill content (.inl symbol :: rest) = symbol :: fill content rest := rfl

@[simp] theorem fill_inr (item : Item) (rest : List (Symbol ⊕ Item)) :
    fill content (.inr item :: rest) = content item ++ fill content rest := rfl

@[simp] theorem fill_append (first second : List (Symbol ⊕ Item)) :
    fill content (first ++ second) = fill content first ++ fill content second := by
  induction first with
  | nil => rfl
  | cons entry rest ih => cases entry <;> simp [ih]

@[simp] theorem fill_literal (text : List Symbol) : fill content (literal text) = text := by
  induction text with
  | nil => rfl
  | cons symbol rest ih => rw [literal_cons, fill_inl, ih]

@[simp] theorem holes_append (first second : List (Symbol ⊕ Item)) :
    holes (first ++ second) = holes first ++ holes second := by
  induction first with
  | nil => rfl
  | cons entry rest ih => cases entry <;> simp [holes, ih]

@[simp] theorem holes_literal (text : List Symbol) :
    holes (literal text : List (Symbol ⊕ Item)) = [] := by
  induction text with
  | nil => rfl
  | cons symbol rest ih => exact ih

theorem fill_congr {first second : Item → List Symbol} {text : List (Symbol ⊕ Item)}
    (hsame : ∀ item ∈ holes text, first item = second item) :
    fill first text = fill second text := by
  induction text with
  | nil => rfl
  | cons entry rest ih =>
    cases entry with
    | inl symbol => rw [fill_inl, fill_inl, ih hsame]
    | inr item =>
      rw [fill_inr, fill_inr, hsame item List.mem_cons_self,
        ih fun other hother ↦ hsame other (List.mem_cons_of_mem item hother)]

end Filling

/-! ### Carving -/

/-- A rewriter that puts the mark of an item where the item was. -/
structure Carver (Symbol Item : Type*) where
  rewriter : Rewriter Symbol
  item : ℕ → List Symbol → Item
  mark : Item → List Symbol
  text : Item → List Symbol
  text_item : ∀ number core, text (item number core) = core
  replace_core : ∀ number core, rewriter.isItem core = true →
    core.head?.all (!rewriter.isTrim ·) = true → core.getLast?.all (!rewriter.isTrim ·) = true →
    rewriter.replace number core = mark (item number core)

namespace Carver

variable (carver : Carver Symbol Item)

/-- The punctuation in front of an item. -/
def front (token : List Symbol) : List Symbol := token.takeWhile carver.rewriter.isTrim

/-- An item without the punctuation at its ends. -/
def core (token : List Symbol) : List Symbol :=
  (token.dropWhile carver.rewriter.isTrim).rdropWhile carver.rewriter.isTrim

/-- The punctuation behind an item. -/
def back (token : List Symbol) : List Symbol :=
  (token.dropWhile carver.rewriter.isTrim).rtakeWhile carver.rewriter.isTrim

/-- What becomes of one run after so many items, and what is cut out of it. -/
def push (count : ℕ) (token : List Symbol) : List (Symbol ⊕ Item) × List Item :=
  if carver.rewriter.isItem token then
    (literal (carver.front token) ++ .inr (carver.item (count + 1) (carver.core token)) ::
        literal (carver.back token),
      [carver.item (count + 1) (carver.core token)])
  else (literal token, [])

/-- Cut the items out of a text, after so many items and with the run that is being collected. -/
def carve (carver : Carver Symbol Item) (count : ℕ) (token : List Symbol) :
    List (Symbol ⊕ Item) → List (Symbol ⊕ Item) × List Item
  | [] => carver.push count token
  | .inl symbol :: rest =>
    if carver.rewriter.isToken symbol then carver.carve count (token ++ [symbol]) rest
    else
      let pushed := carver.push count token
      let following := carver.carve (count + pushed.2.length) [] rest
      (pushed.1 ++ .inl symbol :: following.1, pushed.2 ++ following.2)
  | .inr item :: rest =>
    let pushed := carver.push count token
    let following := carver.carve (count + pushed.2.length) [] rest
    (pushed.1 ++ .inr item :: following.1, pushed.2 ++ following.2)

/-- No run of a text is an item, with the run that is being collected. -/
def Clean (carver : Carver Symbol Item) (token : List Symbol) : List (Symbol ⊕ Item) → Prop
  | [] => carver.rewriter.isItem token = false
  | .inl symbol :: rest =>
    if carver.rewriter.isToken symbol then carver.Clean (token ++ [symbol]) rest
    else carver.rewriter.isItem token = false ∧ carver.Clean [] rest
  | .inr _ :: rest => carver.rewriter.isItem token = false ∧ carver.Clean [] rest

/-- An entry of a text ends the run before it. -/
def Bounds : Symbol ⊕ Item → Prop
  | .inl symbol => carver.rewriter.isToken symbol = false
  | .inr _ => True

end Carver

theorem bounds_inl {carver : Carver Symbol Item} {symbol : Symbol}
    (hsymbol : carver.rewriter.isToken symbol = false) :
    carver.Bounds (.inl symbol : Symbol ⊕ Item) := hsymbol

theorem bounds_inr {carver : Carver Symbol Item} (item : Item) :
    carver.Bounds (.inr item : Symbol ⊕ Item) := trivial

/-! ### One run -/

section Run

variable {carver : Carver Symbol Item}

theorem front_core_back (token : List Symbol) :
    carver.front token ++ carver.core token ++ carver.back token = token := by
  rw [List.append_assoc, Carver.front, Carver.core, Carver.back]
  have hback : (token.dropWhile carver.rewriter.isTrim).rdropWhile carver.rewriter.isTrim ++
      (token.dropWhile carver.rewriter.isTrim).rtakeWhile carver.rewriter.isTrim =
      token.dropWhile carver.rewriter.isTrim := by
    rw [List.rdropWhile, List.rtakeWhile, ← List.reverse_append, List.takeWhile_append_dropWhile,
      List.reverse_reverse]
  rw [hback, List.takeWhile_append_dropWhile]

theorem isTrim_of_mem_front {token : List Symbol} :
    ∀ symbol ∈ carver.front token, carver.rewriter.isTrim symbol = true :=
  fun _ hsymbol ↦ List.mem_takeWhile_imp hsymbol

theorem isTrim_of_mem_back {token : List Symbol} :
    ∀ symbol ∈ carver.back token, carver.rewriter.isTrim symbol = true :=
  fun _ hsymbol ↦ List.mem_rtakeWhile_imp hsymbol

theorem isItem_core (token : List Symbol) :
    carver.rewriter.isItem (carver.core token) = carver.rewriter.isItem token := by
  conv_rhs => rw [← @front_core_back _ _ carver token]
  rw [isItem_append_right isTrim_of_mem_back, isItem_append_left isTrim_of_mem_front]

theorem push_of_not_item {token : List Symbol} (hitem : carver.rewriter.isItem token = false)
    (count : ℕ) : carver.push count token = (literal token, []) := by
  rw [Carver.push, hitem, if_neg Bool.false_ne_true]

theorem push_of_item {token : List Symbol} (hitem : carver.rewriter.isItem token = true)
    (count : ℕ) :
    carver.push count token =
      (literal (carver.front token) ++ .inr (carver.item (count + 1) (carver.core token)) ::
          literal (carver.back token),
        [carver.item (count + 1) (carver.core token)]) := by
  rw [Carver.push, if_pos hitem]

theorem push_items_eq_nil_iff {token : List Symbol} (count : ℕ) :
    (carver.push count token).2 = [] ↔ carver.rewriter.isItem token = false := by
  rw [Carver.push]
  split_ifs with hitem
  · simp [hitem]
  · simp [hitem]

theorem fill_text_push (count : ℕ) (token : List Symbol) :
    fill carver.text (carver.push count token).1 = token := by
  rw [Carver.push]
  split_ifs
  · rw [fill_append, fill_inr, fill_literal, fill_literal, carver.text_item, ← List.append_assoc,
      front_core_back]
  · exact fill_literal carver.text token

theorem head?_core (token : List Symbol) :
    (carver.core token).head?.all (!carver.rewriter.isTrim ·) = true := by
  cases hcore : (carver.core token).head? with
  | none => rfl
  | some symbol =>
    obtain ⟨after, hafter⟩ :=
      List.rdropWhile_prefix carver.rewriter.isTrim (token.dropWhile carver.rewriter.isTrim)
    have hhead : (token.dropWhile carver.rewriter.isTrim).head? = some symbol := by
      rw [← hafter, List.head?_append]
      change (carver.core token).head?.or _ = _
      rw [hcore]
      rfl
    have hnot := List.head?_dropWhile_not carver.rewriter.isTrim token
    rw [hhead] at hnot
    simpa using hnot

theorem getLast?_core (token : List Symbol) :
    (carver.core token).getLast?.all (!carver.rewriter.isTrim ·) = true := by
  rw [Carver.core, List.rdropWhile, List.getLast?_reverse]
  have hnot := List.head?_dropWhile_not carver.rewriter.isTrim
    (token.dropWhile carver.rewriter.isTrim).reverse
  cases hhead : ((token.dropWhile carver.rewriter.isTrim).reverse.dropWhile
      carver.rewriter.isTrim).head? with
  | none => rfl
  | some symbol =>
    rw [hhead] at hnot
    simpa using hnot

/-- The rewriter puts the mark where the carver leaves the hole. -/
theorem push_fill (count : ℕ) (token : List Symbol) :
    carver.rewriter.push count token =
      (fill carver.mark (carver.push count token).1,
        count + (carver.push count token).2.length) := by
  rw [Rewriter.push, Carver.push]
  split_ifs with hitem
  · have hcore := (@isItem_core _ _ carver token).trans hitem
    have hreplace := carver.replace_core (count + 1) _ hcore (head?_core token)
      (getLast?_core token)
    have hfront : carver.rewriter.isItem (carver.front token ++ carver.core token) = true := by
      rw [isItem_append_left isTrim_of_mem_front]
      exact hcore
    have hwhole : carver.rewriter.replace (count + 1) token =
        carver.front token ++ carver.mark (carver.item (count + 1) (carver.core token)) ++
          carver.back token := by
      conv_lhs => rw [← @front_core_back _ _ carver token]
      rw [replace_append_right isTrim_of_mem_back hfront,
        replace_append_left isTrim_of_mem_front hcore, hreplace]
    rw [hwhole, fill_append, fill_inr, fill_literal, fill_literal, List.append_assoc]
    rfl
  · rw [fill_literal]
    rfl

end Run

/-! ### Whole texts -/

section Carving

variable {carver : Carver Symbol Item}

@[simp] theorem carve_nil (count : ℕ) (token : List Symbol) :
    carver.carve count token [] = carver.push count token := rfl

theorem carve_token {symbol : Symbol} (htoken : carver.rewriter.isToken symbol = true) (count : ℕ)
    (token : List Symbol) (rest : List (Symbol ⊕ Item)) :
    carver.carve count token (.inl symbol :: rest) =
      carver.carve count (token ++ [symbol]) rest := by
  rw [Carver.carve, if_pos htoken]

/-- What ends a run is kept between what becomes of the run and of the rest. -/
theorem carve_bound {entry : Symbol ⊕ Item} (hbounds : carver.Bounds entry) (count : ℕ)
    (token : List Symbol) (rest : List (Symbol ⊕ Item)) :
    carver.carve count token (entry :: rest) =
      ((carver.push count token).1 ++ entry ::
          (carver.carve (count + (carver.push count token).2.length) [] rest).1,
        (carver.push count token).2 ++
          (carver.carve (count + (carver.push count token).2.length) [] rest).2) := by
  cases entry with
  | inl symbol =>
    have hsymbol : carver.rewriter.isToken symbol = false := hbounds
    rw [Carver.carve, hsymbol, if_neg Bool.false_ne_true]
  | inr item => rfl

/-- The induction over a text: it ends, its first symbol is of the run that is being collected, or
its first entry ends that run. -/
theorem carve_induction {motive : List Symbol → List (Symbol ⊕ Item) → Prop}
    (hnil : ∀ token, motive token [])
    (htoken : ∀ token symbol rest, carver.rewriter.isToken symbol = true →
      motive (token ++ [symbol]) rest → motive token (.inl symbol :: rest))
    (hbound : ∀ token entry rest, carver.Bounds entry → motive [] rest →
      motive token (entry :: rest))
    (token : List Symbol) (text : List (Symbol ⊕ Item)) : motive token text := by
  induction text generalizing token with
  | nil => exact hnil token
  | cons entry rest ih =>
    rcases entry with symbol | item
    · by_cases hsymbol : carver.rewriter.isToken symbol = true
      · exact htoken token symbol rest hsymbol (ih _)
      · exact hbound token _ rest ((Bool.not_eq_true _).mp hsymbol) (ih [])
    · exact hbound token _ rest trivial (ih [])

theorem carve_append_bound {entry : Symbol ⊕ Item} (hbounds : carver.Bounds entry) (count : ℕ)
    (token : List Symbol) (text rest : List (Symbol ⊕ Item)) :
    carver.carve count token (text ++ entry :: rest) =
      ((carver.carve count token text).1 ++ entry ::
          (carver.carve (count + (carver.carve count token text).2.length) [] rest).1,
        (carver.carve count token text).2 ++
          (carver.carve (count + (carver.carve count token text).2.length) [] rest).2) := by
  induction token, text using @carve_induction _ _ carver generalizing count with
  | hnil token => exact carve_bound hbounds count token rest
  | htoken token symbol others hsymbol ih =>
    rw [List.cons_append, carve_token hsymbol, carve_token hsymbol]
    exact ih count
  | hbound token other others hother ih =>
    rw [List.cons_append, carve_bound hother, carve_bound hother, ih]
    simp [Nat.add_assoc]

theorem fill_text_carve (count : ℕ) (token : List Symbol) (text : List (Symbol ⊕ Item)) :
    fill carver.text (carver.carve count token text).1 = token ++ fill carver.text text := by
  induction token, text using @carve_induction _ _ carver generalizing count with
  | hnil token => rw [carve_nil, fill_text_push, fill_nil, List.append_nil]
  | htoken token symbol rest hsymbol ih =>
    rw [carve_token hsymbol, ih, List.append_assoc, fill_inl, List.singleton_append]
  | hbound token entry rest hbounds ih =>
    rw [carve_bound hbounds, fill_append, fill_text_push]
    cases entry with
    | inl symbol => rw [fill_inl, fill_inl, ih, List.nil_append]
    | inr item => rw [fill_inr, fill_inr, ih, List.nil_append]

theorem holes_push (count : ℕ) (token : List Symbol) :
    holes (carver.push count token).1 = (carver.push count token).2 := by
  rw [Carver.push]
  split_ifs
  · rw [holes_append, holes_literal, holes, holes_literal]
    rfl
  · exact holes_literal token

/-- The holes are those of the text that was read and those of the items. -/
theorem holes_carve (count : ℕ) (token : List Symbol) (text : List (Symbol ⊕ Item)) :
    (holes (carver.carve count token text).1).Perm
      (holes text ++ (carver.carve count token text).2) := by
  induction token, text using @carve_induction _ _ carver generalizing count with
  | hnil token => rw [carve_nil, holes_push]; exact List.Perm.refl _
  | htoken token symbol rest hsymbol ih =>
    rw [carve_token hsymbol]
    exact ih count
  | hbound token entry rest hbounds ih =>
    rw [carve_bound hbounds, holes_append, holes_push]
    have hrest := ih (count + (carver.push count token).2.length)
    cases entry with
    | inl symbol =>
      refine (hrest.append_left _).trans ?_
      rw [holes, ← List.append_assoc, ← List.append_assoc]
      exact List.perm_append_comm.append_right _
    | inr item =>
      rw [holes, holes]
      refine ((hrest.cons item).append_left _).trans ?_
      rw [← List.cons_append, ← List.append_assoc, ← List.append_assoc]
      exact List.perm_append_comm.append_right _

/-- A run without the punctuation at its ends, which is an item. -/
def IsCore (carver : Carver Symbol Item) (core : List Symbol) : Prop :=
  ∃ token, carver.core token = core ∧ carver.rewriter.isItem token = true

/-- The items are numbered on from the count. -/
theorem exists_cores (count : ℕ) (token : List Symbol) (text : List (Symbol ⊕ Item)) :
    ∃ cores : List (List Symbol), (∀ core ∈ cores, IsCore carver core) ∧
      (carver.carve count token text).2 =
        (cores.zipIdx (count + 1)).map fun core ↦ carver.item core.2 core.1 := by
  have hpush : ∀ (count : ℕ) (token : List Symbol), ∃ cores : List (List Symbol),
      (∀ core ∈ cores, IsCore carver core) ∧
      (carver.push count token).2 =
        (cores.zipIdx (count + 1)).map fun core ↦ carver.item core.2 core.1 := by
    intro count token
    by_cases hitem : carver.rewriter.isItem token = true
    · refine ⟨[carver.core token], List.forall_mem_singleton.mpr ⟨token, rfl, hitem⟩, ?_⟩
      rw [push_of_item hitem]
      rfl
    · exact ⟨[], nofun, by rw [push_of_not_item ((Bool.not_eq_true _).mp hitem)]; rfl⟩
  induction token, text using @carve_induction _ _ carver generalizing count with
  | hnil token => exact hpush count token
  | htoken token symbol rest hsymbol ih =>
    rw [carve_token hsymbol]
    exact ih count
  | hbound token entry rest hbounds ih =>
    rw [carve_bound hbounds]
    obtain ⟨first, hfirst, hpushed⟩ := hpush count token
    obtain ⟨others, hothers, hrest⟩ := ih (count + (carver.push count token).2.length)
    refine ⟨first ++ others, List.forall_mem_append.mpr ⟨hfirst, hothers⟩, ?_⟩
    dsimp only
    rw [hrest, List.zipIdx_append, List.map_append, ← hpushed, hpushed, List.length_map,
      List.length_zipIdx, Nat.add_right_comm]

end Carving

/-! ### Texts in which nothing is found -/

section Cleanness

variable {carver : Carver Symbol Item}

@[simp] theorem clean_nil (token : List Symbol) :
    carver.Clean token ([] : List (Symbol ⊕ Item)) ↔ carver.rewriter.isItem token = false :=
  Iff.rfl

theorem clean_token {symbol : Symbol} (htoken : carver.rewriter.isToken symbol = true)
    (token : List Symbol) (rest : List (Symbol ⊕ Item)) :
    carver.Clean token (.inl symbol :: rest) ↔ carver.Clean (token ++ [symbol]) rest := by
  rw [Carver.Clean, if_pos htoken]

theorem clean_bound {entry : Symbol ⊕ Item} (hbounds : carver.Bounds entry) (token : List Symbol)
    (rest : List (Symbol ⊕ Item)) :
    carver.Clean token (entry :: rest) ↔
      carver.rewriter.isItem token = false ∧ carver.Clean [] rest := by
  cases entry with
  | inl symbol =>
    have hsymbol : carver.rewriter.isToken symbol = false := hbounds
    rw [Carver.Clean, hsymbol, if_neg Bool.false_ne_true]
  | inr item => exact Iff.rfl

theorem clean_append_bound {entry : Symbol ⊕ Item} (hbounds : carver.Bounds entry)
    (token : List Symbol) (text rest : List (Symbol ⊕ Item)) :
    carver.Clean token (text ++ entry :: rest) ↔
      carver.Clean token text ∧ carver.Clean [] rest := by
  induction token, text using @carve_induction _ _ carver with
  | hnil token => exact clean_bound hbounds token rest
  | htoken token symbol others hsymbol ih =>
    rw [List.cons_append, clean_token hsymbol, clean_token hsymbol]
    exact ih
  | hbound token other others hother ih =>
    rw [List.cons_append, clean_bound hother, clean_bound hother, ih, and_assoc]

/-- A run goes on with the tokens that follow it. -/
theorem clean_literal_append {run : List Symbol}
    (hrun : ∀ symbol ∈ run, carver.rewriter.isToken symbol = true) (token : List Symbol)
    (rest : List (Symbol ⊕ Item)) :
    carver.Clean token (literal run ++ rest) ↔ carver.Clean (token ++ run) rest := by
  induction run generalizing token with
  | nil => rw [literal_nil, List.nil_append, List.append_nil]
  | cons symbol others ih =>
    rw [literal_cons, List.cons_append, clean_token (hrun symbol List.mem_cons_self),
      ih fun other hother ↦ hrun other (List.mem_cons_of_mem symbol hother), List.append_assoc,
      List.singleton_append]

theorem clean_literal {run : List Symbol}
    (hrun : ∀ symbol ∈ run, carver.rewriter.isToken symbol = true) :
    carver.Clean [] (literal run : List (Symbol ⊕ Item)) ↔ carver.rewriter.isItem run = false := by
  have hclean := @clean_literal_append _ _ carver run hrun [] []
  rw [List.append_nil, List.nil_append] at hclean
  exact hclean

/-- A text without holes is clean when none of its maximal runs is an item. -/
theorem clean_literal_iff (token text : List Symbol) :
    carver.Clean token (literal text : List (Symbol ⊕ Item)) ↔
      ∀ run ∈ List.splitOnPPrepend
        (fun symbol ↦ !carver.rewriter.isToken symbol) text token.reverse,
        carver.rewriter.isItem run = false := by
  induction text generalizing token with
  | nil => simp
  | cons symbol rest ih =>
    rw [literal_cons]
    by_cases hsymbol : carver.rewriter.isToken symbol = true
    · rw [clean_token hsymbol, ih, List.splitOnPPrepend_cons_neg (by simp [hsymbol]),
        List.reverse_append, List.reverse_singleton, List.singleton_append]
    · have hbounds := (Bool.not_eq_true _).mp hsymbol
      rw [clean_bound (bounds_inl hbounds), ih, List.splitOnPPrepend_cons_pos (by simp [hbounds]),
        List.reverse_reverse, List.forall_mem_cons, List.reverse_nil,
        List.splitOnPPrepend_nil_right]

/-- Punctuation is clean. -/
theorem clean_of_trim {token text : List Symbol}
    (htoken : ∀ symbol ∈ token, carver.rewriter.isTrim symbol = true)
    (htext : ∀ symbol ∈ text, carver.rewriter.isTrim symbol = true) :
    carver.Clean token (literal text : List (Symbol ⊕ Item)) := by
  induction text generalizing token with
  | nil => exact isItem_of_trim htoken
  | cons symbol rest ih =>
    have hrest : ∀ other ∈ rest, carver.rewriter.isTrim other = true := fun other hother ↦
      htext other (List.mem_cons_of_mem symbol hother)
    rw [literal_cons]
    by_cases hsymbol : carver.rewriter.isToken symbol = true
    · rw [clean_token hsymbol]
      refine ih (fun other hother ↦ ?_) hrest
      rcases List.mem_append.mp hother with hmem | hmem
      · exact htoken other hmem
      · rw [List.mem_singleton.mp hmem]
        exact htext symbol List.mem_cons_self
    · exact (clean_bound (bounds_inl ((Bool.not_eq_true _).mp hsymbol)) token _).mpr
        ⟨isItem_of_trim htoken, ih nofun hrest⟩

/-- What has no tokens is clean. -/
theorem clean_of_no_token {text : List Symbol}
    (htext : ∀ symbol ∈ text, carver.rewriter.isToken symbol = false) :
    carver.Clean [] (literal text : List (Symbol ⊕ Item)) := by
  induction text with
  | nil => exact carver.rewriter.isItem_nil
  | cons symbol rest ih =>
    exact (clean_bound (bounds_inl (htext symbol List.mem_cons_self)) [] _).mpr
      ⟨carver.rewriter.isItem_nil, ih fun other hother ↦
        htext other (List.mem_cons_of_mem symbol hother)⟩

theorem carve_of_clean {token : List Symbol} {text : List (Symbol ⊕ Item)}
    (hclean : carver.Clean token text) (count : ℕ) :
    carver.carve count token text = (literal token ++ text, []) := by
  induction token, text using @carve_induction _ _ carver generalizing count with
  | hnil token => rw [carve_nil, push_of_not_item hclean, List.append_nil]
  | htoken token symbol rest hsymbol ih =>
    rw [carve_token hsymbol, ih ((clean_token hsymbol token rest).mp hclean), literal_append,
      List.append_assoc]
    rfl
  | hbound token entry rest hbounds ih =>
    obtain ⟨hitem, hrest⟩ := (clean_bound hbounds token rest).mp hclean
    rw [carve_bound hbounds, push_of_not_item hitem, ih hrest]
    rfl

/-- A text is clean when nothing is cut out of it. -/
theorem carve_items_eq_nil_iff (count : ℕ) (token : List Symbol) (text : List (Symbol ⊕ Item)) :
    (carver.carve count token text).2 = [] ↔ carver.Clean token text := by
  induction token, text using @carve_induction _ _ carver generalizing count with
  | hnil token => exact push_items_eq_nil_iff count
  | htoken token symbol rest hsymbol ih => rw [carve_token hsymbol, clean_token hsymbol, ih]
  | hbound token entry rest hbounds ih =>
    rw [carve_bound hbounds, clean_bound hbounds, List.append_eq_nil_iff, push_items_eq_nil_iff, ih]

/-- Assumes: a run of tokens. What becomes of it is clean. -/
theorem clean_push {token : List Symbol}
    (htoken : ∀ symbol ∈ token, carver.rewriter.isToken symbol = true) (count : ℕ) :
    carver.Clean [] (carver.push count token).1 := by
  by_cases hitem : carver.rewriter.isItem token = true
  · rw [push_of_item hitem]
    exact (clean_append_bound (bounds_inr _) [] _ _).mpr
      ⟨clean_of_trim nofun isTrim_of_mem_front, clean_of_trim nofun isTrim_of_mem_back⟩
  · rw [push_of_not_item ((Bool.not_eq_true _).mp hitem)]
    exact (clean_literal htoken).mpr ((Bool.not_eq_true _).mp hitem)

/-- Assumes: a run of tokens. A text that has been carved is clean. -/
theorem clean_carve {token : List Symbol}
    (htoken : ∀ symbol ∈ token, carver.rewriter.isToken symbol = true) (count : ℕ)
    (text : List (Symbol ⊕ Item)) : carver.Clean [] (carver.carve count token text).1 := by
  induction token, text using @carve_induction _ _ carver generalizing count with
  | hnil token => exact clean_push htoken count
  | htoken token symbol rest hsymbol ih =>
    rw [carve_token hsymbol]
    refine ih (fun other hother ↦ ?_) count
    rcases List.mem_append.mp hother with hmem | hmem
    · exact htoken other hmem
    · rw [List.mem_singleton.mp hmem]
      exact hsymbol
  | hbound token entry rest hbounds ih =>
    rw [carve_bound hbounds]
    exact (clean_append_bound hbounds [] _ _).mpr ⟨clean_push htoken count, ih nofun _⟩

/-- Assumes: another carver, whose tokens include those of the first, and whose punctuation does
not. A text that is clean stays so. -/
theorem clean_carve_of_clean {other : Carver Symbol Item}
    (htokens : ∀ symbol, carver.rewriter.isToken symbol = true →
      other.rewriter.isToken symbol = true)
    (htrim : ∀ symbol, other.rewriter.isTrim symbol = true →
      carver.rewriter.isToken symbol = false)
    {token : List Symbol} {text : List (Symbol ⊕ Item)}
    (hclean : carver.Clean [] (literal token ++ text)) (count : ℕ) :
    carver.Clean [] (other.carve count token text).1 := by
  have hpush : ∀ {token : List Symbol} (count : ℕ),
      carver.Clean [] (literal token : List (Symbol ⊕ Item)) →
      carver.Clean [] (other.push count token).1 := by
    intro token count htoken
    by_cases hitem : other.rewriter.isItem token = true
    · rw [push_of_item hitem]
      exact (clean_append_bound (bounds_inr _) [] _ _).mpr
        ⟨clean_of_no_token fun symbol hsymbol ↦ htrim symbol (isTrim_of_mem_front symbol hsymbol),
          clean_of_no_token fun symbol hsymbol ↦ htrim symbol (isTrim_of_mem_back symbol hsymbol)⟩
    · rw [push_of_not_item ((Bool.not_eq_true _).mp hitem)]
      exact htoken
  induction token, text using @carve_induction _ _ other generalizing count with
  | hnil token =>
    rw [List.append_nil] at hclean
    exact hpush count hclean
  | htoken token symbol rest hsymbol ih =>
    rw [carve_token hsymbol]
    refine ih ?_ count
    rw [literal_append, List.append_assoc]
    exact hclean
  | hbound token entry rest hbounds ih =>
    have hbounds' : carver.Bounds entry := by
      cases entry with
      | inl symbol =>
        have hsymbol : other.rewriter.isToken symbol = false := hbounds
        by_contra htoken
        rw [htokens symbol ((Bool.not_eq_false _).mp htoken)] at hsymbol
        exact Bool.noConfusion hsymbol
      | inr item => trivial
    obtain ⟨htoken, hrest⟩ := (clean_append_bound hbounds' [] _ _).mp hclean
    rw [carve_bound hbounds]
    exact (clean_append_bound hbounds' [] _ _).mpr ⟨hpush count htoken, ih hrest _⟩

/-- A text that is not clean has an item between bounds. -/
theorem exists_item_of_not_clean {token : List Symbol} {text : List (Symbol ⊕ Item)}
    (htoken : ∀ symbol ∈ token, carver.rewriter.isToken symbol = true)
    (hclean : ¬ carver.Clean token text) :
    ∃ before run after, literal token ++ text = before ++ literal run ++ after ∧
      carver.rewriter.isItem run = true ∧
      (∀ symbol ∈ run, carver.rewriter.isToken symbol = true) ∧
      (∀ entry ∈ before.getLast?, carver.Bounds entry) ∧
      ∀ entry ∈ after.head?, carver.Bounds entry := by
  induction token, text using @carve_induction _ _ carver with
  | hnil token =>
    exact ⟨[], token, [], by simp, (Bool.not_eq_false _).mp hclean, htoken, nofun, nofun⟩
  | htoken token symbol rest hsymbol ih =>
    rw [clean_token hsymbol] at hclean
    have htoken' : ∀ other ∈ token ++ [symbol], carver.rewriter.isToken other = true := by
      intro other hother
      rcases List.mem_append.mp hother with hmem | hmem
      · exact htoken other hmem
      · rw [List.mem_singleton.mp hmem]
        exact hsymbol
    have hfound := ih htoken' hclean
    rw [literal_append, List.append_assoc] at hfound
    exact hfound
  | hbound token entry rest hbounds ih =>
    rw [clean_bound hbounds] at hclean
    by_cases hitem : carver.rewriter.isItem token = true
    · refine ⟨[], token, entry :: rest, by simp, hitem, htoken, nofun, fun other hother ↦ ?_⟩
      rw [← Option.some.inj hother]
      exact hbounds
    · have hrest : ¬ carver.Clean [] rest := fun hclean' ↦
        hclean ⟨(Bool.not_eq_true _).mp hitem, hclean'⟩
      obtain ⟨before, run, after, hsplit, hrun, htokens, hbefore, hafter⟩ := ih nofun hrest
      rw [literal_nil, List.nil_append] at hsplit
      refine ⟨literal token ++ entry :: before, run, after, ?_, hrun, htokens, ?_, hafter⟩
      · rw [hsplit]
        simp
      · intro other hother
        rw [List.getLast?_append_cons] at hother
        cases before with
        | nil =>
          rw [← Option.some.inj hother]
          exact hbounds
        | cons first others =>
          rw [List.getLast?_cons_cons] at hother
          exact hbefore other hother

end Cleanness

/-! ### Marks -/

section Marks

variable {carver : Carver Symbol Item}

/-- The rewriter fills the holes of the carver with marks. -/
theorem rewrite_eq_fill (count : ℕ) (token text : List Symbol) :
    carver.rewriter.rewrite count token text =
      (fill carver.mark (carver.carve count token (literal text)).1,
        count + (carver.carve count token (literal text)).2.length) := by
  induction text generalizing count token with
  | nil => exact push_fill count token
  | cons symbol rest ih =>
    rw [literal_cons, Rewriter.rewrite]
    by_cases hsymbol : carver.rewriter.isToken symbol = true
    · rw [if_pos hsymbol, carve_token hsymbol, ih]
    · rw [if_neg hsymbol, carve_bound (bounds_inl ((Bool.not_eq_true _).mp hsymbol)), push_fill]
      dsimp only
      rw [ih, fill_append, fill_inl, List.length_append, Nat.add_assoc]

/-- A piece begins and ends with a symbol that is no token, and nothing is found between them. -/
structure Neutral (carver : Carver Symbol Item) (piece : List Symbol) : Prop where
  enclosed : ∃ opening body closing, piece = opening :: (body ++ [closing]) ∧
    carver.rewriter.isToken opening = false ∧ carver.rewriter.isToken closing = false ∧
    carver.Clean [] (literal body : List (Symbol ⊕ Item))

theorem carve_neutral {piece : List Symbol} (hpiece : Neutral carver piece) (count : ℕ)
    (token : List Symbol) (rest : List (Symbol ⊕ Item)) :
    carver.carve count token (literal piece ++ rest) =
      ((carver.push count token).1 ++ (literal piece ++
          (carver.carve (count + (carver.push count token).2.length) [] rest).1),
        (carver.push count token).2 ++
          (carver.carve (count + (carver.push count token).2.length) [] rest).2) := by
  obtain ⟨opening, body, closing, rfl, hopening, hclosing, hbody⟩ := hpiece.enclosed
  have hsplit : literal (opening :: (body ++ [closing])) ++ rest =
      .inl opening :: (literal body ++ .inl closing :: rest) := by simp
  rw [hsplit, carve_bound (bounds_inl hopening), carve_append_bound (bounds_inl hclosing),
    carve_of_clean hbody]
  simp

/-- Assumes: marks that are neutral. The same items are found around marks as around holes. -/
theorem carve_fill {text : List (Symbol ⊕ Item)}
    (hmarks : ∀ item ∈ holes text, Neutral carver (carver.mark item)) (count : ℕ)
    (token : List Symbol) :
    fill carver.mark (carver.carve count token (literal (fill carver.mark text))).1 =
        fill carver.mark (carver.carve count token text).1 ∧
      (carver.carve count token (literal (fill carver.mark text))).2 =
        (carver.carve count token text).2 := by
  induction token, text using @carve_induction _ _ carver generalizing count with
  | hnil token => exact ⟨rfl, rfl⟩
  | htoken token symbol rest hsymbol ih =>
    rw [fill_inl, literal_cons, carve_token hsymbol, carve_token hsymbol]
    exact ih hmarks count
  | hbound token entry rest hbounds ih =>
    rw [carve_bound hbounds]
    cases entry with
    | inl symbol =>
      obtain ⟨hfill, hitems⟩ := ih hmarks (count + (carver.push count token).2.length)
      rw [fill_inl, literal_cons, carve_bound hbounds, fill_append, fill_append, fill_inl, fill_inl,
        hfill, hitems]
      exact ⟨rfl, rfl⟩
    | inr item =>
      obtain ⟨hfill, hitems⟩ := ih
        (fun other hother ↦ hmarks other (List.mem_cons_of_mem item hother))
        (count + (carver.push count token).2.length)
      rw [fill_inr, literal_append, carve_neutral (hmarks item List.mem_cons_self), fill_append,
        fill_append, fill_append, fill_inr, fill_literal, hfill, hitems]
      exact ⟨rfl, rfl⟩

end Marks

end Relayna.Library.Holes

import Mathlib.Data.List.DropRight
import Relayna.Library.RunRewriting
import Relayna.Library.Utf8

/-!
# Redaction of personal data

`crates/gateway-core/src/guardrails.rs`: `redact_text` replaces e-mail addresses, then social
security numbers, then telephone numbers by numbered placeholders. Each pass goes through the text
that the one before it has left, and collects maximal runs of the characters of its kind; a run that
looks like an item once the punctuation at its ends is trimmed is an item.

Every pass is an instance of `Library.RunRewriting` (`redactTokens_eq`).
-/

set_option autoImplicit false
set_option relaxedAutoImplicit false

namespace Relayna.Guardrails

open Library.RunRewriting Library.Utf8

inductive PiiKind
  | email
  | phone
  | ssn
  deriving DecidableEq

def PiiKind.label : PiiKind → List Char
  | .email => ['E', 'M', 'A', 'I', 'L']
  | .phone => ['P', 'H', 'O', 'N', 'E']
  | .ssn => ['S', 'S', 'N']

def piiTokenCharacter (kind : PiiKind) (character : Char) : Bool :=
  match kind with
  | .email => character.isAlphanum || character ∈ ['@', '.', '_', '%', '+', '-']
  | .phone => character.isDigit || character ∈ ['+', '-', '(', ')', '.']
  | .ssn => character.isDigit || character = '-'

/-- The punctuation that `push_redacted_token` trims. -/
def isTrimmed (character : Char) : Bool :=
  character ∈ [',', '.', ';', ':', ')', '(', '[', ']', '\x7b', '\x7d', '\x22', '\x27']

/-- `trim_matches` with that punctuation. -/
def trimMatches (token : List Char) : List Char :=
  (token.dropWhile isTrimmed).rdropWhile isTrimmed

def splitOnce (separator : Char) (value : List Char) : Option (List Char × List Char) :=
  if separator ∈ value then
    some (value.takeWhile (· ≠ separator), (value.dropWhile (· ≠ separator)).tail)
  else none

def looksLikeEmail (value : List Char) : Bool :=
  match splitOnce '@' value with
  | none => false
  | some (localPart, domain) => !localPart.isEmpty && domain.contains '.' &&
    !(domain.head? = some '.') && !(domain.getLast? = some '.') &&
    value.all (piiTokenCharacter .email)

def looksLikeSsn (value : List Char) : Bool :=
  match value.splitOn '-' with
  | [area, group, serial] => area.length == 3 && group.length == 2 && serial.length == 4 &&
    [area, group, serial].all fun part ↦ part.all Char.isDigit
  | _ => false

def looksLikePhone (value : List Char) : Bool :=
  let digits := value.countP Char.isDigit
  decide (10 ≤ digits) && decide (digits ≤ 15) && value.all (piiTokenCharacter .phone)

/-- The check of `push_redacted_token`. -/
def looksLike (kind : PiiKind) (value : List Char) : Bool :=
  match kind with
  | .email => looksLikeEmail value
  | .phone => looksLikePhone value
  | .ssn => looksLikeSsn value

def placeholder (kind : PiiKind) (index : ℕ) : List Char :=
  '[' :: kind.label ++ '_' :: Nat.toDigits 10 index ++ [']']

/-- `replacen` with a count of one: the first occurrence of a pattern is replaced. -/
def replacen (pattern replacement : List Char) : List Char → List Char
  | [] => if pattern = [] then replacement else []
  | character :: rest =>
    if pattern.isPrefixOf (character :: rest) then
      replacement ++ (character :: rest).drop pattern.length
    else character :: replacen pattern replacement rest

/-- `push_redacted_token`, with the count of the items of its kind. -/
def pushRedactedToken (kind : PiiKind) (output token : List Char) (count : ℕ) : List Char × ℕ :=
  if token.isEmpty then (output, count)
  else
    let trimmed := trimMatches token
    if looksLike kind trimmed then
      (output ++ replacen trimmed (placeholder kind (count + 1)) token, count + 1)
    else (output ++ token, count)

/-- The loop of `redact_tokens`: its output, the run that it collects, and the count. -/
def redactLoop (kind : PiiKind) (state : List Char × List Char × ℕ) (character : Char) :
    List Char × List Char × ℕ :=
  if piiTokenCharacter kind character then (state.1, state.2.1 ++ [character], state.2.2)
  else
    let pushed := pushRedactedToken kind state.1 state.2.1 state.2.2
    (pushed.1 ++ [character], [], pushed.2)

/-- `redact_tokens`, for a text in which no item has been counted. -/
def redactTokens (kind : PiiKind) (input : List Char) : List Char :=
  let final := input.foldl (redactLoop kind) ([], [], 0)
  (pushRedactedToken kind final.1 final.2.1 final.2.2).1

/-- `redact_pii_text`, as to its text. Each kind has its own count. -/
def redactPiiText (input : List Char) : List Char :=
  redactTokens .phone (redactTokens .ssn (redactTokens .email input))

/-! ### The passes as rewriters -/

section Trimming

theorem trimMatches_cons {character : Char} (htrimmed : isTrimmed character = true)
    (token : List Char) : trimMatches (character :: token) = trimMatches token := by
  rw [trimMatches, List.dropWhile_cons_of_pos htrimmed, trimMatches]

theorem trimMatches_concat {character : Char} (htrimmed : isTrimmed character = true)
    (token : List Char) : trimMatches (token ++ [character]) = trimMatches token := by
  rw [trimMatches, trimMatches, List.dropWhile_append]
  split_ifs with hempty
  · rw [List.dropWhile_cons_of_pos htrimmed, List.isEmpty_iff.mp hempty]
    rfl
  · rw [List.rdropWhile_concat_pos _ _ _ htrimmed]

/-- A token that is not all punctuation is its item with punctuation around it. -/
theorem exists_trimMatches {token : List Char} (hitem : trimMatches token ≠ []) :
    ∃ before after, token = before ++ trimMatches token ++ after ∧
      (∀ character ∈ before, isTrimmed character = true) ∧
      ∃ first rest, trimMatches token = first :: rest ∧ isTrimmed first = false := by
  obtain ⟨after, hafter⟩ := List.rdropWhile_prefix isTrimmed (token.dropWhile isTrimmed)
  refine ⟨token.takeWhile isTrimmed, after, ?_, ?_, ?_⟩
  · rw [List.append_assoc]
    change token = _ ++ (List.rdropWhile isTrimmed _ ++ after)
    rw [hafter, List.takeWhile_append_dropWhile]
  · intro character hcharacter
    exact List.mem_takeWhile_imp hcharacter
  · obtain ⟨first, rest, hfirst⟩ := List.exists_cons_of_ne_nil hitem
    refine ⟨first, rest, hfirst, ?_⟩
    have hhead : (token.dropWhile isTrimmed).head? = some first := by
      rw [← hafter]
      change (trimMatches token ++ after).head? = some first
      rw [hfirst]
      rfl
    have hnot := List.head?_dropWhile_not isTrimmed token
    rw [hhead] at hnot
    exact hnot

/-- Assumes: a pattern that does not begin with punctuation, after punctuation. It is replaced where
it stands. -/
theorem replacen_append {first : Char} {rest before : List Char} (hfirst : isTrimmed first = false)
    (hbefore : ∀ character ∈ before, isTrimmed character = true)
    (replacement after : List Char) :
    replacen (first :: rest) replacement (before ++ first :: rest ++ after) =
      before ++ replacement ++ after := by
  induction before with
  | nil =>
    rw [List.nil_append, List.nil_append, List.cons_append, replacen, ← List.cons_append,
      if_pos (by simp), List.drop_left]
  | cons character others ih =>
    have hne : first ≠ character := by
      rintro rfl
      rw [hbefore first List.mem_cons_self] at hfirst
      cases hfirst
    rw [List.cons_append, List.cons_append, replacen, if_neg (by simp [hne]),
      ih fun other hother ↦ hbefore other (List.mem_cons_of_mem character hother)]
    rfl

end Trimming

theorem looksLike_nil (kind : PiiKind) : looksLike kind [] = false := by
  cases kind <;> rfl

theorem trimMatches_ne_nil {kind : PiiKind} {token : List Char}
    (hitem : looksLike kind (trimMatches token) = true) : trimMatches token ≠ [] := by
  intro hnil
  rw [hnil, looksLike_nil] at hitem
  cases hitem

/-- The pass of `redact_tokens` for a kind. -/
def pass (kind : PiiKind) : Rewriter Char where
  isToken := piiTokenCharacter kind
  isItem := fun token ↦ looksLike kind (trimMatches token)
  isTrim := isTrimmed
  replace := fun index token ↦ replacen (trimMatches token) (placeholder kind index) token
  isItem_nil := looksLike_nil kind
  isItem_cons := fun character token htrimmed ↦ by rw [trimMatches_cons htrimmed]
  isItem_concat := fun token character htrimmed ↦ by rw [trimMatches_concat htrimmed]
  replace_cons := fun index character token htrimmed hitem ↦ by
    obtain ⟨before, after, htoken, hbefore, first, rest, hcore, hfirst⟩ :=
      exists_trimMatches (trimMatches_ne_nil hitem)
    rw [trimMatches_cons htrimmed, hcore]
    rw [hcore] at htoken
    rw [htoken, replacen_append hfirst hbefore]
    have hbefore' : ∀ other ∈ character :: before, isTrimmed other = true := by
      intro other hother
      rcases List.mem_cons.mp hother with rfl | hmem
      · exact htrimmed
      · exact hbefore other hmem
    exact replacen_append hfirst hbefore' _ after
  replace_concat := fun index token character htrimmed hitem ↦ by
    obtain ⟨before, after, htoken, hbefore, first, rest, hcore, hfirst⟩ :=
      exists_trimMatches (trimMatches_ne_nil hitem)
    rw [trimMatches_concat htrimmed, hcore]
    rw [hcore] at htoken
    rw [htoken, replacen_append hfirst hbefore, List.append_assoc, replacen_append hfirst hbefore,
      List.append_assoc]
    simp only [List.append_assoc]

theorem pushRedactedToken_eq (kind : PiiKind) (output token : List Char) (count : ℕ) :
    pushRedactedToken kind output token count =
      (output ++ ((pass kind).push count token).1, ((pass kind).push count token).2) := by
  unfold pushRedactedToken
  split_ifs with hempty
  · rw [List.isEmpty_iff.mp hempty, push_nil, List.append_nil]
  · dsimp only
    rw [Rewriter.push]
    change _ = (output ++ (if looksLike kind (trimMatches token) then _ else _ : List Char × ℕ).1,
      (if looksLike kind (trimMatches token) then _ else _ : List Char × ℕ).2)
    split_ifs
    · rfl
    · rfl

/-- The loop of `redact_tokens` is the rewriting of a list. -/
theorem foldl_redactLoop (kind : PiiKind) (input output token : List Char) (count : ℕ) :
    pushRedactedToken kind (input.foldl (redactLoop kind) (output, token, count)).1
        (input.foldl (redactLoop kind) (output, token, count)).2.1
        (input.foldl (redactLoop kind) (output, token, count)).2.2 =
      (output ++ ((pass kind).rewrite count token input).1,
        ((pass kind).rewrite count token input).2) := by
  induction input generalizing output token count with
  | nil => exact pushRedactedToken_eq kind output token count
  | cons character rest ih =>
    rw [List.foldl_cons, redactLoop, Rewriter.rewrite]
    change _ = (output ++ (if piiTokenCharacter kind character then _ else _ : List Char × ℕ).1,
      (if piiTokenCharacter kind character then _ else _ : List Char × ℕ).2)
    split_ifs
    · exact ih output (token ++ [character]) count
    · dsimp only
      rw [ih, pushRedactedToken_eq]
      simp only [List.append_assoc, List.singleton_append]

/-- A pass is the rewriting of its text. -/
theorem redactTokens_eq (kind : PiiKind) (input : List Char) :
    redactTokens kind input = ((pass kind).rewrite 0 [] input).1 := by
  have hloop := foldl_redactLoop kind input [] [] 0
  exact congrArg Prod.fst hloop

/-! ### Characters that are never redacted -/

theorem isNonAscii_of_isDigit {character : Char} (hdigit : character.isDigit = true) :
    isNonAscii character = false := by
  have hrange := Char.isDigit_iff_toNat.mp hdigit
  have hnine : '9'.toNat = 57 := rfl
  rw [isNonAscii, decide_eq_false_iff_not]
  omega

theorem isNonAscii_of_val_le {character bound : Char} (hle : character.val ≤ bound.val)
    (hbound : bound.toNat ≤ 127) : isNonAscii character = false := by
  have hnat := UInt32.le_iff_toNat_le.mp hle
  rw [Char.toNat_val, Char.toNat_val] at hnat
  rw [isNonAscii, decide_eq_false_iff_not]
  omega

theorem isNonAscii_of_isAlphanum {character : Char} (halphanum : character.isAlphanum = true) :
    isNonAscii character = false := by
  rcases (Bool.or_eq_true _ _).mp halphanum with halpha | hdigit
  · rcases (Bool.or_eq_true _ _).mp halpha with hupper | hlower
    · have hrange : character.val ≥ 'A'.val ∧ character.val ≤ 'Z'.val := of_decide_eq_true hupper
      exact isNonAscii_of_val_le hrange.2 (by decide)
    · have hrange := (Bool.and_eq_true _ _).mp hlower
      exact isNonAscii_of_val_le (of_decide_eq_true hrange.2) (by decide)
  · exact isNonAscii_of_isDigit hdigit

theorem isNonAscii_of_piiTokenCharacter {kind : PiiKind} {character : Char}
    (htoken : piiTokenCharacter kind character = true) : isNonAscii character = false := by
  cases kind with
  | email =>
    have hmarks : ['@', '.', '_', '%', '+', '-'].all (fun other ↦ !isNonAscii other) = true := rfl
    rcases (Bool.or_eq_true _ _).mp htoken with halphanum | hmark
    · exact isNonAscii_of_isAlphanum halphanum
    · exact (Bool.not_eq_true' _).mp
        (List.all_eq_true.mp hmarks character (of_decide_eq_true hmark))
  | phone =>
    have hmarks : ['+', '-', '(', ')', '.'].all (fun other ↦ !isNonAscii other) = true := rfl
    rcases (Bool.or_eq_true _ _).mp htoken with hdigit | hmark
    · exact isNonAscii_of_isDigit hdigit
    · exact (Bool.not_eq_true' _).mp
        (List.all_eq_true.mp hmarks character (of_decide_eq_true hmark))
  | ssn =>
    rcases (Bool.or_eq_true _ _).mp htoken with hdigit | hmark
    · exact isNonAscii_of_isDigit hdigit
    · rw [of_decide_eq_true hmark]
      rfl

theorem filter_isNonAscii_eq_nil {kind : PiiKind} {value : List Char}
    (hvalue : value.all (piiTokenCharacter kind) = true) : value.filter isNonAscii = [] := by
  rw [List.filter_eq_nil_iff]
  intro character hcharacter hnonAscii
  rw [isNonAscii_of_piiTokenCharacter (List.all_eq_true.mp hvalue character hcharacter)]
    at hnonAscii
  cases hnonAscii

/-- What looks like an item is of the characters of its kind. -/
theorem all_of_looksLike {kind : PiiKind} {value : List Char}
    (hitem : looksLike kind value = true) : value.all (piiTokenCharacter kind) = true := by
  cases kind with
  | email =>
    simp only [looksLike, looksLikeEmail] at hitem
    split at hitem
    · cases hitem
    · exact ((Bool.and_eq_true _ _).mp hitem).2
  | phone =>
    simp only [looksLike, looksLikePhone] at hitem
    exact ((Bool.and_eq_true _ _).mp hitem).2
  | ssn =>
    simp only [looksLike, looksLikeSsn] at hitem
    split at hitem
    · rename_i area group serial hparts
      have hdigits := List.all_eq_true.mp ((Bool.and_eq_true _ _).mp hitem).2
      have hpart : ∀ part ∈ [area, group, serial], part.all (piiTokenCharacter .ssn) = true := by
        intro part hmem
        rw [List.all_eq_true]
        intro character hcharacter
        rw [piiTokenCharacter, List.all_eq_true.mp (hdigits part hmem) character hcharacter]
        rfl
      have hjoined : ['-'].intercalate (value.splitOn '-') = value := List.intercalate_splitOn '-'
      have hvalue : area ++ '-' :: group ++ '-' :: serial = value := by
        rw [← hjoined, hparts]
        simp [List.intercalate]
      rw [← hvalue, List.all_append, List.all_append, List.all_cons, List.all_cons,
        hpart area (by simp), hpart group (by simp), hpart serial (by simp)]
      rfl
    · cases hitem

theorem placeholder_filter (kind : PiiKind) (index : ℕ) :
    (placeholder kind index).filter isNonAscii = [] := by
  have hlabel : kind.label.filter isNonAscii = [] := by
    cases kind <;> decide
  have hdigits : (Nat.toDigits 10 index).filter isNonAscii = [] := by
    rw [List.filter_eq_nil_iff]
    intro character hcharacter hnonAscii
    have hdigit := Nat.isDigit_of_mem_toDigits (by decide) (by decide) hcharacter
    rw [isNonAscii_of_isDigit hdigit] at hnonAscii
    cases hnonAscii
  rw [placeholder, List.filter_append, List.filter_append, List.filter_cons, List.filter_cons,
    hlabel, hdigits]
  rfl

/-- A run that is an item is its item between punctuation, and the placeholder takes its place. -/
theorem exists_replaced {kind : PiiKind} {token : List Char}
    (hitem : looksLike kind (trimMatches token) = true) (number : ℕ) :
    ∃ before after, token = before ++ trimMatches token ++ after ∧
      replacen (trimMatches token) (placeholder kind number) token =
        before ++ placeholder kind number ++ after := by
  obtain ⟨before, after, htoken, hbefore, first, rest, hcore, hfirst⟩ :=
    exists_trimMatches (trimMatches_ne_nil hitem)
  refine ⟨before, after, htoken, ?_⟩
  rw [hcore] at htoken ⊢
  rw [htoken]
  exact replacen_append hfirst hbefore _ after

/-- A pass keeps the characters outside ASCII. -/
theorem redactTokens_filter (kind : PiiKind) (input : List Char) :
    (redactTokens kind input).filter isNonAscii = input.filter isNonAscii := by
  rw [redactTokens_eq]
  refine filter_rewrite (fun number token hitem ↦ ?_) 0 [] input
  obtain ⟨before, after, htoken, hreplaced⟩ := exists_replaced hitem number
  have hfilter := filter_isNonAscii_eq_nil (all_of_looksLike hitem)
  change (replacen (trimMatches token) (placeholder kind number) token).filter isNonAscii = _
  rw [hreplaced]
  conv_rhs => rw [htoken]
  simp only [List.filter_append, hfilter, placeholder_filter]

/-- Redaction keeps the characters outside ASCII. -/
theorem redactPiiText_filter (input : List Char) :
    (redactPiiText input).filter isNonAscii = input.filter isNonAscii := by
  rw [redactPiiText, redactTokens_filter, redactTokens_filter, redactTokens_filter]

/-! ### Texts that are redacted to nothing -/

theorem eq_nil_of_redactTokens {kind : PiiKind} {input : List Char}
    (hnil : redactTokens kind input = []) : input = [] := by
  rw [redactTokens_eq] at hnil
  refine eq_nil_of_rewrite (fun number token hitem hreplaced ↦ ?_) hnil
  obtain ⟨before, after, -, hplaced⟩ := exists_replaced hitem number
  have hlength := congrArg List.length (hplaced.symm.trans hreplaced)
  simp [placeholder] at hlength

/-- Only the empty text is redacted to nothing. -/
theorem eq_nil_of_redactPiiText {input : List Char} (hnil : redactPiiText input = []) :
    input = [] :=
  eq_nil_of_redactTokens (eq_nil_of_redactTokens (eq_nil_of_redactTokens hnil))

end Relayna.Guardrails

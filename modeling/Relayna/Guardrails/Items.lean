import Relayna.Guardrails.JsonRedaction

/-!
# The items of a text

What `redact_text` is for: it finds the items of a text, and what it leaves is the text with holes
where they were. `carver` is the pass of a kind on such texts, `itemsOf` the three passes. Filling
the holes with placeholders gives the redacted text and noting the items gives the result
(`redactText_eq`), for fewer than `placeholderLimit` items: a later pass would take the number of a
longer placeholder for a telephone number. `redactAndCount_fst` says that the counts
do not change the text.
-/

set_option autoImplicit false
set_option relaxedAutoImplicit false

namespace Relayna.Guardrails

open Library.RunRewriting Library.Holes Library.Placeholders

/-- An item with its number among those of its kind. -/
structure PiiItem where
  kind : PiiKind
  index : ℕ
  text : List Char
  deriving DecidableEq

def PiiItem.placeholder (item : PiiItem) : List Char :=
  Guardrails.placeholder item.kind item.index

/-- A text with holes where its items were. -/
abbrev Carved := List (Char ⊕ PiiItem)

/-! ### Placeholders -/

theorem placeholder_eq (kind : PiiKind) (index : ℕ) :
    placeholder kind index =
      '[' :: (kind.label ++ '_' :: Nat.toDigits 10 index ++ [']']) := rfl

theorem not_mem_toDigits {character : Char} (hdigit : character.isDigit = false) (index : ℕ) :
    character ∉ Nat.toDigits 10 index := by
  intro hmem
  have hcharacter := Nat.isDigit_of_mem_toDigits (by decide) (le_refl 10) hmem
  rw [hcharacter] at hdigit
  exact Bool.noConfusion hdigit

theorem enclosed_placeholder (kind : PiiKind) (index : ℕ) :
    Enclosed '[' ']' (placeholder kind index) where
  head := rfl
  tail := by
    have hlabel : '[' ∉ kind.label := by cases kind <;> decide
    have hdigits := @not_mem_toDigits '[' rfl index
    rw [placeholder_eq, List.tail_cons]
    simp [hlabel, hdigits]
  last := by
    rw [placeholder_eq, ← List.cons_append, List.getLast?_concat]
  init := by
    have hlabel : ']' ∉ kind.label := by cases kind <;> decide
    have hdigits := @not_mem_toDigits ']' rfl index
    rw [placeholder_eq, ← List.cons_append, List.dropLast_concat]
    simp [hlabel, hdigits]

/-- A placeholder tells the kind and the number of its item. -/
theorem placeholder_inj {first second : PiiKind} {index number : ℕ}
    (hsame : placeholder first index = placeholder second number) :
    first = second ∧ index = number := by
  rw [placeholder_eq, placeholder_eq, List.cons.injEq] at hsame
  have hbody := List.append_cancel_right hsame.2
  have hkind : first = second := by
    have hheads := congrArg List.head? hbody
    cases first <;> cases second <;> first | rfl | simp [PiiKind.label] at hheads
  refine ⟨hkind, ?_⟩
  rw [hkind] at hbody
  have hdigits := (List.cons.inj (List.append_cancel_left hbody)).2
  have hvalue := congrArg (Nat.ofDigitChars 10 · 0) hdigits
  simpa only [Nat.ofDigitChars_ten_toDigits] using hvalue

/-! ### The passes on texts with holes -/

/-- The pass of a kind. -/
def carver (kind : PiiKind) : Carver Char PiiItem where
  rewriter := pass kind
  item := fun index core ↦ ⟨kind, index, core⟩
  mark := PiiItem.placeholder
  text := PiiItem.text
  text_item := fun _ _ ↦ rfl
  replace_core := fun index core hitem hhead hlast ↦ by
    have hcore : trimMatches core = core := by
      have hdrop : core.dropWhile isTrimmed = core := by
        cases core with
        | nil => rfl
        | cons first rest =>
          have hfirst : isTrimmed first = false := by simpa [pass] using hhead
          rw [List.dropWhile_cons_of_neg (by simp [hfirst])]
      rw [trimMatches, hdrop]
      induction core using List.reverseRecOn with
      | nil => rfl
      | append_singleton rest last _ =>
        have hlast' : isTrimmed last = false := by simpa [pass] using hlast
        rw [List.rdropWhile_concat_neg _ _ _ (by simp [hlast'])]
    obtain ⟨before, after, htoken, hbefore, first, rest, hfirst, hnot⟩ :=
      exists_trimMatches (trimMatches_ne_nil hitem)
    change replacen (trimMatches core) (placeholder kind index) core = placeholder kind index
    rw [hcore] at hfirst ⊢
    have hreplace := @replacen_append first rest [] hnot nofun (placeholder kind index) []
    rw [List.nil_append, List.append_nil, List.nil_append, List.append_nil, ← hfirst] at hreplace
    exact hreplace

theorem carver_isItem (kind : PiiKind) (token : List Char) :
    (carver kind).rewriter.isItem token = looksLike kind (trimMatches token) := rfl

/-- The three passes over a text, with the counts of the items before it: what is left of the text,
and the items in the order in which they are found. -/
def itemsOf (count : PiiKind → ℕ) (text : List Char) : Carved × List PiiItem :=
  let emails := (carver .email).carve (count .email) [] (literal text)
  let ssns := (carver .ssn).carve (count .ssn) [] emails.1
  let phones := (carver .phone).carve (count .phone) [] ssns.1
  (phones.1, emails.2 ++ (ssns.2 ++ phones.2))

/-! ### Placeholders are neutral -/

/-- Up to this many items no placeholder looks like a telephone number. -/
def placeholderLimit : ℕ := 10 ^ 9

theorem mem_of_mem_trimMatches {token : List Char} {character : Char}
    (hmem : character ∈ trimMatches token) : character ∈ token :=
  (List.dropWhile_sublist _).mem ((List.rdropWhile_prefix isTrimmed _).mem hmem)

/-- An e-mail has an at sign. -/
theorem looksLike_email_eq_false {token : List Char} (hat : '@' ∉ token) :
    looksLike .email (trimMatches token) = false := by
  have htrimmed : '@' ∉ trimMatches token := fun hmem ↦ hat (mem_of_mem_trimMatches hmem)
  rw [looksLike, looksLikeEmail, splitOnce, if_neg htrimmed]

/-- A few digits are neither a telephone number nor a social security number. -/
theorem looksLike_digits_eq_false {digits : List Char}
    (hdigits : ∀ digit ∈ digits, digit.isDigit = true) (hlength : digits.length < 10)
    {kind : PiiKind} (hkind : kind ≠ .email) : looksLike kind (trimMatches digits) = false := by
  cases kind with
  | email => exact absurd rfl hkind
  | phone =>
    have hcount : (trimMatches digits).countP Char.isDigit < 10 := by
      have hsublist : (trimMatches digits).Sublist digits :=
        (List.rdropWhile_prefix isTrimmed _).sublist.trans (List.dropWhile_sublist _)
      exact lt_of_le_of_lt (List.countP_le_length.trans hsublist.length_le) hlength
    rw [looksLike, looksLikePhone]
    simp [Nat.not_le.mpr hcount]
  | ssn =>
    have hdash : '-' ∉ trimMatches digits := by
      intro hmem
      exact Bool.noConfusion (hdigits '-' (mem_of_mem_trimMatches hmem))
    have hsplit : (trimMatches digits).splitOn '-' = [trimMatches digits] := by
      rw [List.splitOn, List.splitOnP_eq_singleton]
      intro character hmem
      exact beq_eq_false_iff_ne.mpr fun hsame ↦ hdash (hsame ▸ hmem)
    rw [looksLike, looksLikeSsn, hsplit]

theorem neutral_placeholder {item : PiiItem} (hindex : item.index < placeholderLimit)
    (kind : PiiKind) : Neutral (carver kind) item.placeholder := by
  have hdigits : ∀ digit ∈ Nat.toDigits 10 item.index, digit.isDigit = true := fun digit hmem ↦
    Nat.isDigit_of_mem_toDigits (by decide) (le_refl 10) hmem
  have hlength : (Nat.toDigits 10 item.index).length < 10 :=
    Nat.lt_succ_of_le ((Nat.length_toDigits_le_iff (by decide) (by decide)).mpr hindex)
  refine ⟨'[', item.kind.label ++ '_' :: Nat.toDigits 10 item.index, ']', rfl, ?_, ?_, ?_⟩
  · cases kind <;> rfl
  · cases kind <;> rfl
  · by_cases hkind : kind = .email
    · have hlabel : ∀ character ∈ item.kind.label,
          piiTokenCharacter .email character = true ∧ character ≠ '@' := by
        have hall : item.kind.label.all (fun character ↦
            piiTokenCharacter .email character && decide (character ≠ '@')) = true := by
          cases item.kind <;> rfl
        intro character hmem
        have heach := List.all_eq_true.mp hall character hmem
        rw [Bool.and_eq_true, decide_eq_true_eq] at heach
        exact heach
      have htokens : ∀ character ∈ item.kind.label ++ '_' :: Nat.toDigits 10 item.index,
          piiTokenCharacter .email character = true ∧ character ≠ '@' := by
        intro character hmem
        rcases List.mem_append.mp hmem with hmem | hmem
        · exact hlabel character hmem
        · rcases List.mem_cons.mp hmem with rfl | hmem
          · decide
          · have hdigit := hdigits character hmem
            constructor
            · rw [piiTokenCharacter, Char.isAlphanum, hdigit, Bool.or_true, Bool.true_or]
            · rintro rfl
              exact Bool.noConfusion hdigit
      rw [hkind, clean_literal fun character hmem ↦ (htokens character hmem).1, carver_isItem]
      exact looksLike_email_eq_false fun hmem ↦ (htokens '@' hmem).2 rfl
    · have hlabel : ∀ character ∈ item.kind.label, piiTokenCharacter kind character = false := by
        have hall : item.kind.label.all (fun character ↦ !piiTokenCharacter kind character) =
            true := by
          cases item.kind <;> cases kind <;> first | exact absurd rfl hkind | rfl
        intro character hmem
        exact (Bool.not_eq_true' _).mp (List.all_eq_true.mp hall character hmem)
      have hbound : piiTokenCharacter kind '_' = false := by
        cases kind <;> first | exact absurd rfl hkind | rfl
      have htokens : ∀ digit ∈ Nat.toDigits 10 item.index,
          piiTokenCharacter kind digit = true := by
        intro digit hmem
        cases kind <;> simp [piiTokenCharacter, Char.isAlphanum, hdigits digit hmem]
      rw [literal_append, literal_cons, clean_append_bound (bounds_inl hbound)]
      exact ⟨clean_of_no_token hlabel,
        (clean_literal htokens).mpr (looksLike_digits_eq_false hdigits hlength hkind)⟩

/-! ### Items and their numbers -/

/-- What the result of a redaction keeps of an item. -/
def RedactionResult.note (collectMapping : Bool) (result : RedactionResult) (item : PiiItem) :
    RedactionResult :=
  let counted := result.increment item.kind
  if collectMapping then
    { counted with mappings := counted.mappings ++ [(item.placeholder, item.text)] }
  else counted

open RedactionResult

theorem count_note (collectMapping : Bool) (result : RedactionResult) (item : PiiItem)
    (kind : PiiKind) :
    (note collectMapping result item).count kind =
      result.count kind + if item.kind = kind then 1 else 0 := by
  rw [note]
  split_ifs with hcollect hkind hkind
  · subst hkind
    cases item.kind <;> rfl
  · cases hitem : item.kind <;> cases kind <;> first | exact absurd hitem hkind | rfl
  · subst hkind
    cases item.kind <;> rfl
  · cases hitem : item.kind <;> cases kind <;> first | exact absurd hitem hkind | rfl

theorem count_foldl_note (collectMapping : Bool) (items : List PiiItem) (result : RedactionResult)
    (kind : PiiKind) :
    (items.foldl (note collectMapping) result).count kind =
      result.count kind + items.countP fun item ↦ item.kind = kind := by
  induction items generalizing result with
  | nil => rfl
  | cons item rest ih =>
    rw [List.foldl_cons, ih, count_note, List.countP_cons]
    simp only [decide_eq_true_eq]
    omega

theorem mappings_foldl_note (items : List PiiItem) (result : RedactionResult) :
    (items.foldl (note true) result).mappings =
      result.mappings ++ items.map fun item ↦ (item.placeholder, item.text) := by
  induction items generalizing result with
  | nil => rw [List.map_nil, List.append_nil]; rfl
  | cons item rest ih =>
    have hfirst : (note true result item).mappings =
        result.mappings ++ [(item.placeholder, item.text)] := by
      rw [note]
      cases item.kind <;> rfl
    rw [List.foldl_cons, ih, hfirst, List.map_cons, List.append_assoc, List.singleton_append]

/-- Each count is part of the total. -/
theorem count_le_total (result : RedactionResult) (kind : PiiKind) :
    result.count kind ≤ result.total := by
  unfold RedactionResult.total
  cases kind <;> simp only [RedactionResult.count] <;> omega

/-- Items that are numbered on from some counts to others. -/
structure Numbered (first last : PiiKind → ℕ) (items : List PiiItem) : Prop where
  le : ∀ kind, first kind ≤ last kind
  above : ∀ item ∈ items, first item.kind < item.index
  below : ∀ item ∈ items, item.index ≤ last item.kind
  distinct : items.Pairwise fun item other ↦ item.placeholder ≠ other.placeholder
  looksLike : ∀ item ∈ items, looksLike item.kind item.text = true

theorem Numbered.nil (count : PiiKind → ℕ) : Numbered count count [] where
  le := fun _ ↦ le_refl _
  above := nofun
  below := nofun
  distinct := List.Pairwise.nil
  looksLike := nofun

theorem Numbered.append {first middle last : PiiKind → ℕ} {before after : List PiiItem}
    (hbefore : Numbered first middle before) (hafter : Numbered middle last after) :
    Numbered first last (before ++ after) where
  le := fun kind ↦ (hbefore.le kind).trans (hafter.le kind)
  above := fun item hitem ↦ by
    rcases List.mem_append.mp hitem with hmem | hmem
    · exact hbefore.above item hmem
    · exact lt_of_le_of_lt (hbefore.le item.kind) (hafter.above item hmem)
  below := fun item hitem ↦ by
    rcases List.mem_append.mp hitem with hmem | hmem
    · exact (hbefore.below item hmem).trans (hafter.le item.kind)
    · exact hafter.below item hmem
  distinct := by
    refine List.pairwise_append.mpr ⟨hbefore.distinct, hafter.distinct, ?_⟩
    intro item hitem other hother hsame
    obtain ⟨hkind, hindex⟩ := placeholder_inj hsame
    have hle := hbefore.below item hitem
    have hlt := hafter.above other hother
    rw [hkind] at hle
    omega
  looksLike := fun item hitem ↦ by
    rcases List.mem_append.mp hitem with hmem | hmem
    · exact hbefore.looksLike item hmem
    · exact hafter.looksLike item hmem

theorem numbered_note (collectMapping : Bool) {kind : PiiKind} (result : RedactionResult)
    {core : List Char} (hcore : Guardrails.looksLike kind core = true) :
    Numbered result.count
      (note collectMapping result ⟨kind, result.count kind + 1, core⟩).count
      [⟨kind, result.count kind + 1, core⟩] where
  le := fun other ↦ by
    rw [count_note]
    exact Nat.le_add_right _ _
  above := List.forall_mem_singleton.mpr (Nat.lt_succ_self _)
  below := by
    rw [List.forall_mem_singleton, count_note, if_pos rfl]
  distinct := List.pairwise_singleton _ _
  looksLike := List.forall_mem_singleton.mpr hcore

/-- Noting items numbers them on. -/
theorem numbered_cores (collectMapping : Bool) {kind : PiiKind} {cores : List (List Char)}
    (hcores : ∀ core ∈ cores, looksLike kind core = true) (result : RedactionResult) :
    Numbered result.count
      (((cores.zipIdx (result.count kind + 1)).map fun core ↦ PiiItem.mk kind core.2 core.1).foldl
        (note collectMapping) result).count
      ((cores.zipIdx (result.count kind + 1)).map fun core ↦ PiiItem.mk kind core.2 core.1) := by
  induction cores generalizing result with
  | nil => exact Numbered.nil result.count
  | cons core rest ih =>
    rw [List.zipIdx_cons, List.map_cons, List.foldl_cons]
    have hcount : (note collectMapping result ⟨kind, result.count kind + 1, core⟩).count kind =
        result.count kind + 1 := by
      rw [count_note, if_pos rfl]
    have hrest := ih (fun other hother ↦ hcores other (List.mem_cons_of_mem core hother))
      (note collectMapping result ⟨kind, result.count kind + 1, core⟩)
    rw [hcount] at hrest
    exact (numbered_note collectMapping result (hcores core List.mem_cons_self)).append hrest

/-- The items that a pass finds are of its kind and numbered on. -/
theorem carve_spec (collectMapping : Bool) (kind : PiiKind) (result : RedactionResult)
    (text : Carved) :
    (∀ item ∈ ((carver kind).carve (result.count kind) [] text).2, item.kind = kind) ∧
      Numbered result.count
        (((carver kind).carve (result.count kind) [] text).2.foldl
          (note collectMapping) result).count
        ((carver kind).carve (result.count kind) [] text).2 := by
  obtain ⟨cores, hcores, hitems⟩ :=
    @exists_cores _ _ (carver kind) (result.count kind) [] text
  rw [hitems]
  constructor
  · intro item hitem
    obtain ⟨core, -, rfl⟩ := List.mem_map.mp hitem
    rfl
  · refine numbered_cores collectMapping (fun core hcore ↦ ?_) result
    obtain ⟨token, rfl, hitem⟩ := hcores core hcore
    exact hitem

/-- Items of one kind leave the counts of the others. -/
theorem count_foldl_note_of_ne (collectMapping : Bool) {kind other : PiiKind} (hne : kind ≠ other)
    {items : List PiiItem} (hitems : ∀ item ∈ items, item.kind = kind) (result : RedactionResult) :
    (items.foldl (note collectMapping) result).count other = result.count other := by
  rw [count_foldl_note, List.countP_eq_zero.mpr, Nat.add_zero]
  intro item hitem
  rw [hitems item hitem, decide_eq_true_eq]
  exact hne

theorem count_foldl_note_self (collectMapping : Bool) {kind : PiiKind} {items : List PiiItem}
    (hitems : ∀ item ∈ items, item.kind = kind) (result : RedactionResult) :
    (items.foldl (note collectMapping) result).count kind = result.count kind + items.length := by
  rw [count_foldl_note, List.countP_eq_length.mpr]
  intro item hitem
  exact decide_eq_true (hitems item hitem)

/-- The items of a text are numbered on. -/
theorem itemsOf_spec (collectMapping : Bool) (result : RedactionResult) (text : List Char) :
    Numbered result.count
      ((itemsOf result.count text).2.foldl (note collectMapping) result).count
      (itemsOf result.count text).2 := by
  unfold itemsOf
  dsimp only
  obtain ⟨hemail, hemails⟩ := carve_spec collectMapping .email result (literal text)
  set emails := (carver .email).carve (result.count .email) [] (literal text)
  set afterEmails := emails.2.foldl (note collectMapping) result with hafterEmails
  have hssnCount : result.count .ssn = afterEmails.count .ssn :=
    (count_foldl_note_of_ne collectMapping (by decide) hemail result).symm
  obtain ⟨hssn, hssns⟩ := carve_spec collectMapping .ssn afterEmails emails.1
  rw [← hssnCount] at hssn hssns
  set ssns := (carver .ssn).carve (result.count .ssn) [] emails.1
  set afterSsns := ssns.2.foldl (note collectMapping) afterEmails with hafterSsns
  have hphoneCount : result.count .phone = afterSsns.count .phone := by
    rw [hafterSsns, count_foldl_note_of_ne collectMapping (by decide) hssn,
      hafterEmails, count_foldl_note_of_ne collectMapping (by decide) hemail]
  obtain ⟨-, hphones⟩ := carve_spec collectMapping .phone afterSsns ssns.1
  rw [← hphoneCount] at hphones
  rw [List.foldl_append, List.foldl_append]
  exact hemails.append (hssns.append hphones)

/-! ### What the redaction leaves and notes -/

theorem count_increment (result : RedactionResult) (kind : PiiKind) :
    (result.increment kind).count kind = result.count kind + 1 := by
  cases kind <;> rfl

theorem pushRedactedToken_note (output token : List Char) (result : RedactionResult)
    (collectMapping : Bool) (kind : PiiKind) :
    RedactionResult.pushRedactedToken output token result collectMapping kind =
      (output ++ fill PiiItem.placeholder ((carver kind).push (result.count kind) token).1,
        ((carver kind).push (result.count kind) token).2.foldl (note collectMapping) result) := by
  have hfill := @push_fill _ _ (carver kind) (result.count kind) token
  by_cases hitem : looksLike kind (trimMatches token) = true
  · have hempty : token.isEmpty = false := by
      rw [List.isEmpty_eq_false_iff]
      rintro rfl
      exact trimMatches_ne_nil hitem rfl
    have hpush : (pass kind).push (result.count kind) token =
        ((pass kind).replace (result.count kind + 1) token, result.count kind + 1) :=
      if_pos hitem
    have hmark : (carver kind).rewriter.push (result.count kind) token =
        (replacen (trimMatches token) (placeholder kind (result.count kind + 1)) token,
          result.count kind + 1) := hpush
    rw [hmark] at hfill
    have htext := congrArg Prod.fst hfill
    dsimp only at htext
    rw [RedactionResult.pushRedactedToken, hempty, if_neg Bool.false_ne_true]
    dsimp only
    rw [if_pos hitem, count_increment, htext, push_of_item hitem]
    rfl
  · have hnot : (carver kind).rewriter.isItem token = false := (Bool.not_eq_true _).mp hitem
    rw [Library.Holes.push_of_not_item hnot, fill_literal, RedactionResult.pushRedactedToken]
    dsimp only
    rw [if_neg hitem]
    split_ifs with hempty
    · rw [List.isEmpty_iff.mp hempty, List.append_nil]
      rfl
    · rfl

/-- The loop of `redact_tokens` fills the holes and notes the items. The induction is on the text
that is left, for the run that is being collected. -/
theorem foldl_redactLoop_note (collectMapping : Bool) (kind : PiiKind)
    (input output token : List Char) (result : RedactionResult) :
    RedactionResult.pushRedactedToken
        (input.foldl (RedactionResult.redactLoop collectMapping kind) (output, token, result)).1
        (input.foldl (RedactionResult.redactLoop collectMapping kind) (output, token, result)).2.1
        (input.foldl (RedactionResult.redactLoop collectMapping kind) (output, token, result)).2.2
        collectMapping kind =
      (output ++ fill PiiItem.placeholder
          ((carver kind).carve (result.count kind) token (literal input)).1,
        ((carver kind).carve (result.count kind) token (literal input)).2.foldl
          (note collectMapping) result) := by
  induction input generalizing output token result with
  | nil => exact pushRedactedToken_note output token result collectMapping kind
  | cons character rest ih =>
    rw [List.foldl_cons, RedactionResult.redactLoop, literal_cons]
    by_cases htoken : piiTokenCharacter kind character = true
    · rw [if_pos htoken, ih, carve_token htoken]
    · have hbounds : (carver kind).Bounds (.inl character : Char ⊕ PiiItem) :=
        bounds_inl ((Bool.not_eq_true _).mp htoken)
      have hpushed : ∀ item ∈ ((carver kind).push (result.count kind) token).2,
          item.kind = kind := fun item hitem ↦ by
        rw [Carver.push] at hitem
        split_ifs at hitem
        · rw [List.mem_singleton.mp hitem]
          rfl
        · exact absurd hitem List.not_mem_nil
      rw [if_neg htoken, carve_bound hbounds]
      dsimp only
      rw [ih, pushRedactedToken_note]
      dsimp only
      rw [count_foldl_note_self collectMapping hpushed, fill_append, fill_inl, List.foldl_append]
      simp only [List.append_assoc, List.singleton_append]

theorem redactTokens_note (input : List Char) (result : RedactionResult) (collectMapping : Bool)
    (kind : PiiKind) :
    RedactionResult.redactTokens input result collectMapping kind =
      (fill PiiItem.placeholder
          ((carver kind).carve (result.count kind) [] (literal input)).1,
        ((carver kind).carve (result.count kind) [] (literal input)).2.foldl
          (note collectMapping) result) :=
  foldl_redactLoop_note collectMapping kind input [] [] result

/-- Assumes: a result that has counted no item of the kind. The pass with counts gives the text of
the pass over one text. -/
theorem redactTokens_fst {kind : PiiKind} {result : RedactionResult}
    (hnone : result.count kind = 0) (input : List Char) (collectMapping : Bool) :
    (RedactionResult.redactTokens input result collectMapping kind).1 =
      redactTokens kind input := by
  rw [redactTokens_note, redactTokens_eq, hnone]
  exact (congrArg Prod.fst (@rewrite_eq_fill _ _ (carver kind) 0 [] input)).symm

theorem count_redactTokens_of_ne {kind other : PiiKind} (hne : kind ≠ other) (input : List Char)
    (result : RedactionResult) (collectMapping : Bool) :
    (RedactionResult.redactTokens input result collectMapping kind).2.count other =
      result.count other := by
  rw [redactTokens_note]
  exact count_foldl_note_of_ne collectMapping hne
    (carve_spec collectMapping kind result (literal input)).1 result

/-- The text of `redact_pii_text`, with and without its counts. -/
theorem redactAndCount_fst (input : List Char) :
    (redactAndCount input).1 = redactPiiText input := by
  have hssn : (RedactionResult.redactTokens input .empty false .email).2.count .ssn = 0 :=
    count_redactTokens_of_ne (by decide) input .empty false
  have hphone : (RedactionResult.redactTokens
      (RedactionResult.redactTokens input .empty false .email).1
      (RedactionResult.redactTokens input .empty false .email).2 false .ssn).2.count .phone =
        0 := by
    rw [count_redactTokens_of_ne (by decide)]
    exact count_redactTokens_of_ne (by decide) input .empty false
  unfold redactAndCount RedactionResult.redactText redactPiiText
  dsimp only
  rw [redactTokens_fst hphone, redactTokens_fst hssn, redactTokens_fst rfl]

/-- Assumes: holes whose numbers are below the limit. A pass over a text with placeholders is a pass
over the text with holes. -/
theorem redactTokens_fill {text : Carved} {result : RedactionResult}
    (hholes : ∀ item ∈ holes text, item.index < placeholderLimit) (collectMapping : Bool)
    (kind : PiiKind) :
    RedactionResult.redactTokens (fill PiiItem.placeholder text) result collectMapping kind =
      (fill PiiItem.placeholder ((carver kind).carve (result.count kind) [] text).1,
        ((carver kind).carve (result.count kind) [] text).2.foldl
          (note collectMapping) result) := by
  obtain ⟨hfill, hitems⟩ := @carve_fill _ _ (carver kind) text
    (fun item hitem ↦ neutral_placeholder (hholes item hitem) kind) (result.count kind) []
  have hplaceholders : (carver kind).mark = PiiItem.placeholder := rfl
  rw [hplaceholders] at hfill hitems
  rw [redactTokens_note, hfill, hitems]

theorem count_le_redactTokens (input : List Char) (result : RedactionResult)
    (collectMapping : Bool) (kind other : PiiKind) :
    result.count other ≤
      (RedactionResult.redactTokens input result collectMapping kind).2.count other := by
  rw [redactTokens_note, count_foldl_note]
  exact Nat.le_add_right _ _

/-- Counts never fall. -/
theorem count_le_redactText (text : List Char) (result : RedactionResult) (collectMapping : Bool)
    (kind : PiiKind) :
    result.count kind ≤ (RedactionResult.redactText text result collectMapping).2.count kind :=
  ((count_le_redactTokens _ _ _ _ _).trans (count_le_redactTokens _ _ _ _ _)).trans
    (count_le_redactTokens _ _ _ _ _)

/-- The holes of a text are its items. -/
theorem holes_itemsOf (count : PiiKind → ℕ) (text : List Char) :
    (holes (itemsOf count text).1).Perm (itemsOf count text).2 := by
  unfold itemsOf
  dsimp only
  refine (holes_carve _ _ _).trans ?_
  rw [← List.append_assoc]
  refine List.Perm.append_right _ ((holes_carve _ _ _).trans (List.Perm.append_right _ ?_))
  have hemails := @holes_carve _ _ (carver .email) (count .email) [] (literal text)
  rw [holes_literal, List.nil_append] at hemails
  exact hemails

/-- Filling the holes with what was cut out gives the text. -/
theorem fill_itemsOf (count : PiiKind → ℕ) (text : List Char) :
    fill PiiItem.text (itemsOf count text).1 = text := by
  have hemail := @fill_text_carve _ _ (carver .email) (count .email) [] (literal text)
  have hssn := @fill_text_carve _ _ (carver .ssn) (count .ssn) []
    ((carver .email).carve (count .email) [] (literal text)).1
  have hphone := @fill_text_carve _ _ (carver .phone) (count .phone) []
    ((carver .ssn).carve (count .ssn) [] ((carver .email).carve (count .email) []
      (literal text)).1).1
  exact hphone.trans (hssn.trans (hemail.trans (fill_literal _ text)))

/-- Assumes: counts below the limit at the end. `redact_text` fills the holes with placeholders and
notes the items. -/
theorem redactText_eq {text : List Char} {result : RedactionResult} {collectMapping : Bool}
    (hlimit : ∀ kind, (RedactionResult.redactText text result collectMapping).2.count kind <
      placeholderLimit) :
    RedactionResult.redactText text result collectMapping =
      (fill PiiItem.placeholder (itemsOf result.count text).1,
        (itemsOf result.count text).2.foldl (note collectMapping) result) := by
  rw [RedactionResult.redactText] at hlimit ⊢
  unfold itemsOf
  dsimp only at hlimit ⊢
  obtain ⟨hemailKind, hemail⟩ := carve_spec collectMapping .email result (literal text)
  have hfirst := redactTokens_note text result collectMapping .email
  set emails := (carver .email).carve (result.count .email) [] (literal text)
  set afterEmails := emails.2.foldl (note collectMapping) result with hafterEmails
  rw [hfirst] at hlimit ⊢
  dsimp only at hlimit ⊢
  have hemailHoles : ∀ item ∈ holes emails.1, item.index < placeholderLimit := by
    intro item hitem
    have hmem := (@holes_carve _ _ (carver .email) (result.count .email) []
      (literal text)).mem_iff.mp hitem
    rw [holes_literal, List.nil_append] at hmem
    exact lt_of_le_of_lt ((hemail.below item hmem).trans ((count_le_redactTokens _ _ _ _ _).trans
      (count_le_redactTokens _ _ _ _ _))) (hlimit item.kind)
  have hssnCount : afterEmails.count .ssn = result.count .ssn :=
    count_foldl_note_of_ne collectMapping (by decide) hemailKind result
  obtain ⟨hssnKind, hssn⟩ := carve_spec collectMapping .ssn afterEmails emails.1
  have hsecond := @redactTokens_fill emails.1 afterEmails hemailHoles collectMapping .ssn
  rw [hssnCount] at hssn hssnKind hsecond
  set ssns := (carver .ssn).carve (result.count .ssn) [] emails.1
  set afterSsns := ssns.2.foldl (note collectMapping) afterEmails with hafterSsns
  rw [hsecond] at hlimit ⊢
  dsimp only at hlimit ⊢
  have hssnHoles : ∀ item ∈ holes ssns.1, item.index < placeholderLimit := by
    intro item hitem
    rcases List.mem_append.mp
      ((@holes_carve _ _ (carver .ssn) (result.count .ssn) [] emails.1).mem_iff.mp hitem)
      with hmem | hmem
    · exact hemailHoles item hmem
    · exact lt_of_le_of_lt ((hssn.below item hmem).trans (count_le_redactTokens _ _ _ _ _))
        (hlimit item.kind)
  have hphoneCount : afterSsns.count .phone = result.count .phone := by
    rw [hafterSsns, count_foldl_note_of_ne collectMapping (by decide) hssnKind,
      hafterEmails, count_foldl_note_of_ne collectMapping (by decide) hemailKind]
  rw [redactTokens_fill hssnHoles, hphoneCount, List.foldl_append, List.foldl_append]

/-! ### Texts in which nothing is found -/

/-- The maximal runs of the characters of a kind in a text. -/
def tokensOf (kind : PiiKind) (text : List Char) : List (List Char) :=
  text.splitOnP fun character ↦ !piiTokenCharacter kind character

/-- A text has an item of a kind. -/
def HasItem (kind : PiiKind) (text : List Char) : Prop :=
  ∃ token ∈ tokensOf kind text, looksLike kind (trimMatches token) = true

instance (kind : PiiKind) (text : List Char) : Decidable (HasItem kind text) :=
  inferInstanceAs (Decidable (∃ token ∈ tokensOf kind text, _))

theorem clean_iff_not_hasItem (kind : PiiKind) (text : List Char) :
    (carver kind).Clean [] (literal text : Carved) ↔ ¬ HasItem kind text := by
  rw [clean_literal_iff, List.reverse_nil, List.splitOnPPrepend_nil_right, HasItem]
  change (∀ token ∈ tokensOf kind text, looksLike kind (trimMatches token) = false) ↔ _
  simp

/-- Nothing is found in a text when it has no item of any kind. -/
theorem itemsOf_eq_nil_iff (count : PiiKind → ℕ) (text : List Char) :
    (itemsOf count text).2 = [] ↔ ∀ kind, ¬ HasItem kind text := by
  simp only [← clean_iff_not_hasItem]
  unfold itemsOf
  dsimp only
  rw [List.append_eq_nil_iff, List.append_eq_nil_iff, carve_items_eq_nil_iff]
  constructor
  · rintro ⟨hemail, hrest⟩
    rw [carve_of_clean hemail, literal_nil, List.nil_append, carve_items_eq_nil_iff] at hrest
    obtain ⟨hssn, hphone⟩ := hrest
    rw [carve_of_clean hssn, literal_nil, List.nil_append, carve_items_eq_nil_iff] at hphone
    intro kind
    cases kind with
    | email => exact hemail
    | ssn => exact hssn
    | phone => exact hphone
  · intro hclean
    rw [carve_of_clean (hclean .email), literal_nil, List.nil_append,
      carve_of_clean (hclean .ssn), literal_nil, List.nil_append, carve_of_clean (hclean .phone)]
    exact ⟨hclean .email, rfl, rfl⟩

/-- Redaction finds nothing in a text and leaves it as it is when the text has no item of any kind.
-/
theorem redactAndCount_eq_self_iff (text : List Char) :
    redactAndCount text = (text, .empty) ↔ ∀ kind, ¬ HasItem kind text := by
  have hempty : RedactionResult.empty.count = fun _ ↦ 0 := by
    funext kind
    cases kind <;> rfl
  constructor
  · intro hsame
    have hlimit : ∀ kind, (RedactionResult.redactText text .empty false).2.count kind <
        placeholderLimit := by
      intro kind
      have hresult : RedactionResult.redactText text .empty false = (text, .empty) := hsame
      rw [hresult, hempty]
      exact Nat.pow_pos (by decide)
    have hresult : (itemsOf RedactionResult.empty.count text).2.foldl (note false) .empty =
        .empty := by
      have hall := redactText_eq hlimit
      exact (congrArg Prod.snd hall).symm.trans (congrArg Prod.snd hsame)
    rw [← itemsOf_eq_nil_iff RedactionResult.empty.count, List.eq_nil_iff_forall_not_mem]
    intro item hitem
    have hcount := count_foldl_note false (itemsOf RedactionResult.empty.count text).2 .empty
      item.kind
    rw [hresult, left_eq_add, List.countP_eq_zero] at hcount
    exact hcount item hitem (decide_eq_true rfl)
  · intro hnone
    have hpass : ∀ kind, RedactionResult.redactTokens text .empty false kind = (text, .empty) := by
      intro kind
      rw [redactTokens_note, carve_of_clean ((clean_iff_not_hasItem kind text).mpr (hnone kind)),
        literal_nil, List.nil_append, fill_literal]
      rfl
    rw [redactAndCount, RedactionResult.redactText, hpass]
    dsimp only
    rw [hpass]
    dsimp only
    rw [hpass]

end Relayna.Guardrails

import Relayna.Guardrails.Items

/-!
# What redaction leaves

The passes for numbers leave nothing that they would find again: a social security number is never
part of a longer run that a telephone number cuts. The pass for e-mails comes first, and a run that
it rejects may be cut by a number that is found later. What follows the number can then be an e-mail
of its own, as in `@123-45-6789x@b.com`, and it is left in the redacted text.

`redacted_clean_iff` tells when a redacted text has nothing to redact: when no number of the text is
followed directly by an e-mail.
-/

set_option autoImplicit false
set_option relaxedAutoImplicit false

namespace Relayna.Guardrails

open Library.RunRewriting Library.Holes RedactionResult

/-! ### E-mails that go on -/

/-- What looks like an e-mail: a local part, an at sign, and a domain with a dot inside. -/
theorem looksLikeEmail_iff (value : List Char) :
    looksLike .email value = true ↔
      ∃ localPart domain, value = localPart ++ '@' :: domain ∧ '@' ∉ localPart ∧ localPart ≠ [] ∧
        '.' ∈ domain ∧ domain.head? ≠ some '.' ∧ domain.getLast? ≠ some '.' ∧
        value.all (piiTokenCharacter .email) = true := by
  rw [looksLike, looksLikeEmail, splitOnce]
  constructor
  · intro hemail
    by_cases hat : '@' ∈ value
    · rw [if_pos hat] at hemail
      dsimp only at hemail
      simp only [Bool.and_eq_true, Bool.not_eq_true', decide_eq_false_iff_not,
        List.contains_iff_mem,
        List.isEmpty_eq_false_iff] at hemail
      obtain ⟨⟨⟨⟨hlocal, hdot⟩, hhead⟩, hlast⟩, hall⟩ := hemail
      refine ⟨value.takeWhile (· ≠ '@'), (value.dropWhile (· ≠ '@')).tail, ?_, ?_, hlocal, hdot,
        hhead, hlast, hall⟩
      · have hdrop : value.dropWhile (· ≠ '@') ≠ [] := by
          intro hnil
          have hall := List.dropWhile_eq_nil_iff.mp hnil '@' hat
          simp at hall
        obtain ⟨first, rest, hfirst⟩ := List.exists_cons_of_ne_nil hdrop
        have hnot := List.head?_dropWhile_not (fun character ↦ decide (character ≠ '@')) value
        rw [hfirst] at hnot ⊢
        have hsame : first = '@' := by simpa using hnot
        conv_lhs => rw [← @List.takeWhile_append_dropWhile _ (fun character ↦
          decide (character ≠ '@')) value, hfirst, hsame]
        rfl
      · intro hmem
        have hne := List.mem_takeWhile_imp hmem
        simp at hne
    · rw [if_neg hat] at hemail
      exact Bool.noConfusion hemail
  · rintro ⟨localPart, domain, rfl, hat, hlocal, hdot, hhead, hlast, hall⟩
    have hother : ∀ character ∈ localPart, decide (character ≠ '@') = true :=
      fun character hmem ↦ decide_eq_true fun hsame ↦ hat (hsame ▸ hmem)
    have htake : (localPart ++ '@' :: domain).takeWhile (· ≠ '@') = localPart := by
      rw [List.takeWhile_append_of_pos hother]
      simp
    have hdrop : (localPart ++ '@' :: domain).dropWhile (· ≠ '@') = '@' :: domain := by
      rw [List.dropWhile_append_of_pos hother]
      simp
    rw [if_pos (by simp), htake, hdrop]
    simp only [Bool.and_eq_true, Bool.not_eq_true', decide_eq_false_iff_not, List.contains_iff_mem,
      List.isEmpty_eq_false_iff]
    exact ⟨⟨⟨⟨hlocal, hdot⟩, hhead⟩, hlast⟩, hall⟩

theorem getLast?_trimMatches (token : List Char) : (trimMatches token).getLast? ≠ some '.' := by
  intro hlast
  have hne : trimMatches token ≠ [] := by
    intro hnil
    rw [hnil] at hlast
    exact Option.some_ne_none _ hlast.symm
  have hnot := List.rdropWhile_last_not isTrimmed (token.dropWhile isTrimmed) hne
  rw [List.getLast?_eq_some_getLast hne] at hlast
  have hdot : ((token.dropWhile isTrimmed).rdropWhile isTrimmed).getLast hne = '.' :=
    Option.some.inj hlast
  rw [hdot] at hnot
  exact hnot rfl

/-- Assumes: a run with an item. What is left of a longer run begins with what is left of it. -/
theorem exists_trimMatches_append {run : List Char} (hrun : trimMatches run ≠ [])
    (extra : List Char) : ∃ more, trimMatches (run ++ extra) = trimMatches run ++ more := by
  obtain ⟨after, hafter⟩ := List.rdropWhile_prefix isTrimmed (run.dropWhile isTrimmed)
  have hdrop : (run ++ extra).dropWhile isTrimmed = trimMatches run ++ (after ++ extra) := by
    have hne : run.dropWhile isTrimmed ≠ [] := by
      intro hnil
      rw [trimMatches, hnil] at hrun
      exact hrun rfl
    rw [List.dropWhile_append, if_neg (by simpa using hne), ← hafter, List.append_assoc]
    rfl
  rw [trimMatches, hdrop, List.rdropWhile, List.reverse_append, List.dropWhile_append]
  split_ifs with hempty
  · refine ⟨[], ?_⟩
    change (trimMatches run).rdropWhile isTrimmed = _
    rw [List.append_nil]
    exact List.rdropWhile_idempotent _ _
  · exact ⟨_, by rw [List.reverse_append, List.reverse_reverse]⟩

/-- A run that begins with an e-mail is one. -/
theorem looksLike_email_append {run extra : List Char}
    (hrun : looksLike .email (trimMatches run) = true)
    (htokens : ∀ character ∈ run ++ extra, piiTokenCharacter .email character = true) :
    looksLike .email (trimMatches (run ++ extra)) = true := by
  obtain ⟨more, hmore⟩ := exists_trimMatches_append (trimMatches_ne_nil hrun) extra
  have hlast := getLast?_trimMatches (run ++ extra)
  have hall : (trimMatches (run ++ extra)).all (piiTokenCharacter .email) = true :=
    List.all_eq_true.mpr fun character hmem ↦ htokens character (mem_of_mem_trimMatches hmem)
  obtain ⟨localPart, domain, hsplit, hat, hlocal, hdot, hhead, -, -⟩ :=
    (looksLikeEmail_iff _).mp hrun
  have hwhole : trimMatches (run ++ extra) = localPart ++ '@' :: (domain ++ more) := by
    rw [hmore, hsplit, List.append_assoc, List.cons_append]
  have hdomain : domain ++ more ≠ [] :=
    List.append_ne_nil_of_left_ne_nil (List.ne_nil_of_mem hdot) more
  refine (looksLikeEmail_iff _).mpr ⟨localPart, domain ++ more, hwhole, hat, hlocal,
    List.mem_append_left more hdot, ?_, ?_, hall⟩
  · rw [List.head?_append_of_ne_nil _ (List.ne_nil_of_mem hdot)]
    exact hhead
  · rw [hwhole, List.getLast?_append_cons] at hlast
    rwa [← List.getLast?_cons_of_ne_nil hdomain]

/-! ### Numbers put back -/

/-- The text with its e-mails cut out only. -/
def reopen : Carved → Carved
  | [] => []
  | .inl character :: rest => .inl character :: reopen rest
  | .inr item :: rest =>
    if item.kind = .email then .inr item :: reopen rest else literal item.text ++ reopen rest

theorem reopen_append (first second : Carved) :
    reopen (first ++ second) = reopen first ++ reopen second := by
  induction first with
  | nil => rfl
  | cons entry rest ih =>
    cases entry with
    | inl character => rw [List.cons_append, reopen, reopen, ih, List.cons_append]
    | inr item =>
      rw [List.cons_append, reopen, reopen, ih]
      split_ifs
      · rfl
      · rw [List.append_assoc]

theorem reopen_literal (text : List Char) : reopen (literal text) = literal text := by
  induction text with
  | nil => rfl
  | cons character rest ih => rw [literal_cons, reopen, ih]

theorem reopen_push {kind : PiiKind} (hkind : kind ≠ .email) (count : ℕ) (token : List Char) :
    reopen ((carver kind).push count token).1 = literal token := by
  by_cases hitem : (carver kind).rewriter.isItem token = true
  · have hhole : reopen (.inr ((carver kind).item (count + 1) ((carver kind).core token)) ::
        literal ((carver kind).back token)) =
          literal ((carver kind).core token) ++ literal ((carver kind).back token) := by
      have hnumber : ((carver kind).item (count + 1) ((carver kind).core token)).kind ≠ .email :=
        hkind
      rw [reopen, if_neg hnumber, reopen_literal]
      rfl
    rw [push_of_item hitem, reopen_append, reopen_literal, hhole, ← literal_append,
      ← literal_append, ← List.append_assoc, front_core_back]
  · rw [Library.Holes.push_of_not_item ((Bool.not_eq_true _).mp hitem), reopen_literal]

/-- Putting numbers back undoes the passes for numbers. -/
theorem reopen_carve {kind : PiiKind} (hkind : kind ≠ .email) (count : ℕ) (token : List Char)
    (text : Carved) :
    reopen ((carver kind).carve count token text).1 = literal token ++ reopen text := by
  induction token, text using @carve_induction _ _ (carver kind) generalizing count with
  | hnil token => rw [carve_nil, reopen_push hkind, reopen, List.append_nil]
  | htoken token character rest hcharacter ih =>
    rw [carve_token hcharacter, ih, literal_append, List.append_assoc]
    rfl
  | hbound token entry rest hbounds ih =>
    rw [carve_bound hbounds, reopen_append, reopen_push hkind, ← List.singleton_append,
      reopen_append, ih, literal_nil, List.nil_append, ← reopen_append, List.singleton_append]

theorem reopen_of_emails {text : Carved} (hemails : ∀ item ∈ holes text, item.kind = .email) :
    reopen text = text := by
  induction text with
  | nil => rfl
  | cons entry rest ih =>
    cases entry with
    | inl character => rw [reopen, ih hemails]
    | inr item =>
      rw [reopen, if_pos (hemails item List.mem_cons_self),
        ih fun other hother ↦ hemails other (List.mem_cons_of_mem item hother)]

/-- With its numbers put back, a redacted text has no e-mail. -/
theorem clean_reopen (count : PiiKind → ℕ) (text : List Char) :
    (carver .email).Clean [] (reopen (itemsOf count text).1) := by
  have hemails : ∀ item ∈ holes ((carver .email).carve (count .email) [] (literal text)).1,
      item.kind = .email := by
    intro item hitem
    have hmem := (@holes_carve _ _ (carver .email) (count .email) [] (literal text)).mem_iff.mp
      hitem
    rw [holes_literal, List.nil_append] at hmem
    exact (carve_spec true .email ⟨count .email, 0, 0, []⟩ (literal text)).1 item hmem
  unfold itemsOf
  dsimp only
  rw [reopen_carve (by decide), reopen_carve (by decide), reopen_of_emails hemails]
  exact clean_carve (List.forall_mem_nil _) _ _

/-! ### Numbers in front of e-mails -/

/-- In a text a number is followed directly by an e-mail: by characters of e-mails, up to the next
item or a character of another kind, that look like one. -/
def ExposesEmail (text : List Char) : Prop :=
  ∃ (before : Carved) (number : PiiItem) (piece : List Char) (after : Carved),
    (itemsOf (fun _ ↦ 0) text).1 = before ++ .inr number :: (literal piece ++ after) ∧
    number.kind ≠ .email ∧ (∀ character ∈ piece, piiTokenCharacter .email character = true) ∧
    (∀ character, after.head? = some (.inl character) →
      piiTokenCharacter .email character = false) ∧
    looksLike .email (trimMatches piece) = true

/-- A run of a clean text goes on to a run that is no item. -/
theorem exists_run_of_clean {run : List Char} {text : Carved}
    (hclean : (carver .email).Clean run text) :
    ∃ extra, (∀ character ∈ extra, piiTokenCharacter .email character = true) ∧
      looksLike .email (trimMatches (run ++ extra)) = false := by
  induction run, text using @carve_induction _ _ (carver .email) with
  | hnil token => exact ⟨[], List.forall_mem_nil _, by rw [List.append_nil]; exact hclean⟩
  | htoken token character rest hcharacter ih =>
    obtain ⟨extra, hextra, hnot⟩ := ih ((clean_token hcharacter token rest).mp hclean)
    refine ⟨character :: extra, List.forall_mem_cons.mpr ⟨hcharacter, hextra⟩, ?_⟩
    rwa [List.append_assoc, List.singleton_append] at hnot
  | hbound token entry rest hbounds ih =>
    refine ⟨[], List.forall_mem_nil _, ?_⟩
    rw [List.append_nil]
    exact ((clean_bound hbounds token rest).mp hclean).1

/-- An e-mail does not begin where a run of the text without its e-mails begins. -/
theorem not_clean_of_email {run : List Char} {text : Carved}
    (hemail : looksLike .email (trimMatches run) = true)
    (htokens : ∀ character ∈ run, piiTokenCharacter .email character = true) :
    ¬ (carver .email).Clean [] (literal run ++ text) := by
  intro hclean
  rw [clean_literal_append htokens, List.nil_append] at hclean
  obtain ⟨extra, hextra, hnot⟩ := exists_run_of_clean hclean
  have hwhole := looksLike_email_append hemail (List.forall_mem_append.mpr ⟨htokens, hextra⟩)
  rw [hnot] at hwhole
  exact Bool.noConfusion hwhole

/-- The text with its items cut out has an e-mail exactly where a number is followed by one. -/
theorem clean_email_iff (text : List Char) :
    (carver .email).Clean [] (itemsOf (fun _ ↦ 0) text).1 ↔ ¬ ExposesEmail text := by
  constructor
  · rintro hclean ⟨before, number, piece, after, hsplit, -, htokens, hafter, hemail⟩
    rw [hsplit, clean_append_bound (bounds_inr number), clean_literal_append htokens,
      List.nil_append] at hclean
    have hnot : looksLike .email (trimMatches piece) = false := by
      rcases after with _ | ⟨character | item, rest⟩
      · exact hclean.2
      · exact ((clean_bound (bounds_inl (hafter character rfl)) piece rest).mp hclean.2).1
      · exact ((clean_bound (bounds_inr item) piece rest).mp hclean.2).1
    rw [hnot] at hemail
    exact Bool.noConfusion hemail
  · intro hexposes
    by_contra hclean
    obtain ⟨before, run, after, hsplit, hemail, htokens, hbefore, hafter⟩ :=
      exists_item_of_not_clean (List.forall_mem_nil _) hclean
    have hreopen := clean_reopen (fun _ ↦ 0) text
    rw [literal_nil, List.nil_append] at hsplit
    rw [hsplit, reopen_append, reopen_append, reopen_literal] at hreopen
    -- What stands before the e-mail decides: only a number is put back and makes the run longer.
    induction before using List.reverseRecOn with
    | nil =>
      rw [reopen, List.nil_append] at hreopen
      exact not_clean_of_email hemail htokens hreopen
    | append_singleton init entry _ =>
      have hbound : (carver .email).Bounds entry := hbefore entry (by simp)
      by_cases hnumber : ∃ number : PiiItem, entry = .inr number ∧ number.kind ≠ .email
      · obtain ⟨number, rfl, hkind⟩ := hnumber
        refine hexposes ⟨init, number, run, after, ?_, hkind, htokens, ?_, hemail⟩
        · rw [hsplit]
          simp
        · intro character hhead
          exact hafter (.inl character) hhead
      · have hkept : reopen [entry] = [entry] := by
          rcases entry with character | item
          · rfl
          · have hkind : item.kind = .email := by
              by_contra hkind
              exact hnumber ⟨item, rfl, hkind⟩
            rw [reopen, if_pos hkind, reopen]
        rw [reopen_append, hkept, List.append_assoc, List.append_assoc, List.singleton_append,
          clean_append_bound hbound] at hreopen
        exact not_clean_of_email hemail htokens hreopen.2

/-! ### Redacting again -/

/-- Nothing is left for the passes for numbers. -/
theorem clean_numbers (count : PiiKind → ℕ) (text : List Char) {kind : PiiKind}
    (hkind : kind ≠ .email) : (carver kind).Clean [] (itemsOf count text).1 := by
  cases kind with
  | email => exact absurd rfl hkind
  | phone => exact clean_carve (List.forall_mem_nil _) _ _
  | ssn =>
    have htokens : ∀ character, piiTokenCharacter .ssn character = true →
        piiTokenCharacter .phone character = true := by
      intro character htoken
      rcases (Bool.or_eq_true _ _).mp htoken with hdigit | hdash
      · rw [piiTokenCharacter, hdigit, Bool.true_or]
      · rw [of_decide_eq_true hdash]
        rfl
    have htrim : ∀ character, isTrimmed character = true →
        piiTokenCharacter .ssn character = false := by
      intro character htrimmed
      have hall : [',', '.', ';', ':', ')', '(', '[', ']', '\x7b', '\x7d', '\x22', '\x27'].all
          (fun other ↦ !piiTokenCharacter .ssn other) = true := rfl
      exact (Bool.not_eq_true' _).mp
        (List.all_eq_true.mp hall character (of_decide_eq_true htrimmed))
    exact clean_carve_of_clean htokens htrim (clean_carve (List.forall_mem_nil _) _ _) _

/-- Assumes: holes whose numbers are below the limit. A text with placeholders has an item where the
text with holes has one. -/
theorem not_hasItem_fill_iff {text : Carved}
    (hholes : ∀ item ∈ holes text, item.index < placeholderLimit) (kind : PiiKind) :
    ¬ HasItem kind (fill PiiItem.placeholder text) ↔ (carver kind).Clean [] text := by
  have hitems := (@carve_fill _ _ (carver kind) text
    (fun item hitem ↦ neutral_placeholder (hholes item hitem) kind) 0 []).2
  rw [← clean_iff_not_hasItem, ← carve_items_eq_nil_iff 0, ← carve_items_eq_nil_iff 0 [] text,
    ← hitems]
  rfl

/-- Assumes: fewer items than the limit. A redacted text has nothing to redact, by the counts and
the text of a second redaction as by its tokens, exactly when no number of the text is followed
directly by an e-mail. -/
theorem redacted_clean_iff (text : List Char) (hfew : (redactAndCount text).2.total < 10 ^ 9) :
    (redactAndCount (redactAndCount text).1 = ((redactAndCount text).1, .empty) ↔
        ¬ ExposesEmail text) ∧
      ((∀ kind, ¬ HasItem kind (redactAndCount text).1) ↔ ¬ ExposesEmail text) := by
  have hlimit : ∀ kind, (RedactionResult.redactText text .empty false).2.count kind <
      placeholderLimit := fun kind ↦ lt_of_le_of_lt (count_le_total _ kind) hfew
  have hcount : RedactionResult.empty.count = fun _ ↦ 0 := by
    funext kind
    cases kind <;> rfl
  have hresult := redactText_eq hlimit
  have hnumbered := itemsOf_spec false .empty text
  have hholes : ∀ item ∈ holes (itemsOf (fun _ ↦ 0) text).1, item.index < placeholderLimit := by
    intro item hitem
    rw [← hcount] at hitem
    refine lt_of_le_of_lt (hnumbered.below item ((holes_itemsOf _ text).mem_iff.mp hitem)) ?_
    have hlast := hlimit item.kind
    rwa [hresult] at hlast
  have hredacted : (redactAndCount text).1 =
      fill PiiItem.placeholder (itemsOf (fun _ ↦ 0) text).1 := by
    rw [redactAndCount, hresult, hcount]
  have htokens : (∀ kind, ¬ HasItem kind (redactAndCount text).1) ↔ ¬ ExposesEmail text := by
    rw [hredacted, ← clean_email_iff]
    constructor
    · intro hnone
      exact (not_hasItem_fill_iff hholes .email).mp (hnone .email)
    · intro hclean kind
      rw [not_hasItem_fill_iff hholes]
      by_cases hkind : kind = .email
      · rw [hkind]
        exact hclean
      · exact clean_numbers _ text hkind
  exact ⟨(redactAndCount_eq_self_iff _).trans htokens, htokens⟩

/-- An e-mail behind a social security number, in a run that begins with an at sign. -/
def hiddenEmail : List Char :=
  "@123-45-6789x@b.com".toList

theorem redacted_clean_hidden :
    ExposesEmail hiddenEmail ∧ ¬ ExposesEmail "a@b.c".toList := by
  constructor
  · by_contra hexposes
    have hagain := (redacted_clean_iff hiddenEmail (by decide)).1.mpr hexposes
    exact absurd hagain (by decide)
  · exact (redacted_clean_iff "a@b.c".toList (by decide)).1.mp (by decide)

/-- The e-mail is left in the redacted text and found by a second redaction. -/
theorem hidden_email_left :
    (redactAndCount hiddenEmail).2.total < 10 ^ 9 ∧
      (redactAndCount (redactAndCount hiddenEmail).1).2.emailCount = 1 ∧
      HasItem .email (redactAndCount hiddenEmail).1 := by
  decide

end Relayna.Guardrails

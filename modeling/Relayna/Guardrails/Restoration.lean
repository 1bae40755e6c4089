import Relayna.Guardrails.Items

/-!
# Putting originals back

Redaction numbers the items of all strings of a value, so that no two placeholders are the same, and
a placeholder is never part of another one or of what stands around it. If no string of the value
has a placeholder to begin with, replacing them by the collected originals gives the value back
(`restore_redacted`).

The guardrail redacts the response again after it has put the originals back, although what it has
put back is not new. An echoed request therefore comes back as it was only if there was nothing to
redact in it (`post_call_restores_iff`).
-/

set_option autoImplicit false
set_option relaxedAutoImplicit false

namespace Relayna.Guardrails

open Library.Leaves Library.Holes Library.Placeholders RedactionResult

/-! ### Values with holes -/

/-- What becomes of one string of a value, with holes for its items. -/
def carveStep (collectMapping : Bool) (result : RedactionResult) (text : List Char) :
    Carved × RedactionResult :=
  ((itemsOf result.count text).1,
    (itemsOf result.count text).2.foldl (note collectMapping) result)

/-- The strings of a value with holes for their items, numbered through the whole value. -/
def carveJsonStrings (value : JsonValue) (collectMapping : Bool) :
    Document Carved × RedactionResult :=
  value.thread (carveStep collectMapping) .empty

theorem carveStep_agrees (collectMapping : Bool) :
    Agrees (carveStep collectMapping)
      (fun result text ↦ RedactionResult.redactText text result collectMapping)
      (fill PiiItem.placeholder) fun result ↦ ∀ kind, result.count kind < placeholderLimit where
  bounded_of_coarse := fun hbounded kind ↦
    lt_of_le_of_lt (count_le_redactText _ _ collectMapping kind) (hbounded kind)
  agrees := fun hbounded ↦ redactText_eq hbounded

/-- Assumes: fewer items than the limit. Redaction fills the holes with placeholders. -/
theorem redactJsonStrings_eq {value : JsonValue} {collectMapping : Bool}
    (hfew : (redactJsonStrings value collectMapping).2.total < placeholderLimit) :
    redactJsonStrings value collectMapping =
      ((carveJsonStrings value collectMapping).1.map (fill PiiItem.placeholder),
        (carveJsonStrings value collectMapping).2) :=
  thread_eq_map (carveStep_agrees collectMapping) value fun kind ↦
    lt_of_le_of_lt (count_le_total _ kind) hfew

/-- Filling the holes with the items gives the value. -/
theorem fill_carveJsonStrings (value : JsonValue) (collectMapping : Bool) :
    (carveJsonStrings value collectMapping).1.map (fill PiiItem.text) = value :=
  @map_thread _ _ _ (carveStep collectMapping) (fill PiiItem.text)
    (fun result text ↦ fill_itemsOf result.count text) value .empty

/-- The strings of a value are those with holes, filled with the items. -/
theorem leaves_eq_fill (value : JsonValue) (collectMapping : Bool) :
    value.leaves = (carveJsonStrings value collectMapping).1.leaves.map (fill PiiItem.text) := by
  rw [← leaves_map, fill_carveJsonStrings]

/-- What a run over strings collects: items that are numbered on, one mapping for each, and every
string with holes for items among them. -/
def Collected (first : RedactionResult) (leaves : List Carved) (last : RedactionResult) : Prop :=
  ∃ items : List PiiItem, Numbered first.count last.count items ∧
    last.mappings = first.mappings ++ items.map (fun item ↦ (item.placeholder, item.text)) ∧
    ∀ leaf ∈ leaves, (∀ item ∈ holes leaf, item ∈ items) ∧
      ∃ count, leaf = (itemsOf count (fill PiiItem.text leaf)).1

theorem collected_composes : Composes (carveStep true) Collected where
  refl := fun result ↦
    ⟨[], Numbered.nil result.count, by rw [List.map_nil, List.append_nil], nofun⟩
  step := fun result text ↦ by
    refine ⟨(itemsOf result.count text).2, itemsOf_spec true result text,
      mappings_foldl_note _ result, List.forall_mem_singleton.mpr ⟨fun item hitem ↦ ?_, ?_⟩⟩
    · exact (holes_itemsOf result.count text).mem_iff.mp hitem
    · refine ⟨result.count, ?_⟩
      change (itemsOf result.count text).1 = (itemsOf result.count (fill PiiItem.text
        (itemsOf result.count text).1)).1
      rw [fill_itemsOf]
  trans := by
    rintro first middle last before after ⟨items, hitems, hmappings, hbefore⟩
      ⟨others, hothers, hmore, hafter⟩
    refine ⟨items ++ others, hitems.append hothers, ?_, fun leaf hleaf ↦ ?_⟩
    · rw [hmore, hmappings, List.map_append, List.append_assoc]
    · rcases List.mem_append.mp hleaf with hmem | hmem
      · exact ⟨fun item hitem ↦ List.mem_append_left _ ((hbefore leaf hmem).1 item hitem),
          (hbefore leaf hmem).2⟩
      · exact ⟨fun item hitem ↦ List.mem_append_right _ ((hafter leaf hmem).1 item hitem),
          (hafter leaf hmem).2⟩

theorem carveJsonStrings_collected (value : JsonValue) :
    Collected .empty (carveJsonStrings value true).1.leaves (carveJsonStrings value true).2 :=
  thread_rule collected_composes value .empty

/-! ### Putting back -/

/-- A text has something of the form of a placeholder. -/
def HasPlaceholder (text : List Char) : Prop :=
  ∃ kind index, placeholder kind index <:+: text

/-- A placeholder has a bracket. -/
theorem not_hasPlaceholder {text : List Char} (hbracket : '[' ∉ text) : ¬ HasPlaceholder text := by
  rintro ⟨kind, index, hinside⟩
  obtain ⟨body, hbody, -⟩ := (enclosed_placeholder kind index).exists_cons
  rw [hbody] at hinside
  exact hbracket (hinside.subset List.mem_cons_self)

theorem restoreText_eq (items : List PiiItem) (text : List Char) :
    restoreText (items.map fun item ↦ (item.placeholder, item.text)) text =
      items.foldl (fun value item ↦ replaceAll item.placeholder item.text value) text :=
  List.foldl_map

section Restoring

variable {value : JsonValue}

theorem exists_items (hfew : (redactJsonStrings value true).2.total < placeholderLimit) :
    ∃ items : List PiiItem, (items.map PiiItem.placeholder).Nodup ∧
      (redactJsonStrings value true).2.mappings =
        items.map (fun item ↦ (item.placeholder, item.text)) ∧
      ∀ leaf ∈ (carveJsonStrings value true).1.leaves, ∀ item ∈ holes leaf, item ∈ items := by
  obtain ⟨items, hnumbered, hmappings, hleaves⟩ := carveJsonStrings_collected value
  refine ⟨items, ?_, ?_, fun leaf hleaf ↦ (hleaves leaf hleaf).1⟩
  · rw [List.nodup_iff_pairwise_ne, List.pairwise_map]
    exact hnumbered.distinct
  · rw [redactJsonStrings_eq hfew]
    exact hmappings

theorem nodup_placeholders (hfew : (redactJsonStrings value true).2.total < placeholderLimit) :
    ((redactJsonStrings value true).2.mappings.map Prod.fst).Nodup := by
  obtain ⟨items, hdistinct, hmappings, -⟩ := exists_items hfew
  rw [hmappings, List.map_map]
  exact hdistinct

/-- Assumes: a value in which no string has a placeholder, and fewer items than the limit. Putting
the collected originals back into its redaction gives the value. -/
theorem restorePlaceholders_redacted (habsent : ∀ text ∈ value.leaves, ¬ HasPlaceholder text)
    (hfew : (redactJsonStrings value true).2.total < placeholderLimit) :
    restorePlaceholders (redactJsonStrings value true).1
      (redactJsonStrings value true).2.mappings = value := by
  obtain ⟨items, hdistinct, hmappings, hholes⟩ := exists_items hfew
  have hunique : ∀ item ∈ items, ∀ other ∈ items,
      other.placeholder = item.placeholder → other = item := fun item hitem other hother hsame ↦
    List.inj_on_of_nodup_map hdistinct hother hitem hsame
  conv_rhs => rw [← fill_carveJsonStrings value true]
  rw [hmappings, redactJsonStrings_eq hfew, restorePlaceholders, map_map, map_eq_map_iff]
  intro leaf hleaf
  have htext : fill PiiItem.text leaf ∈ value.leaves := by
    rw [leaves_eq_fill value true]
    exact List.mem_map_of_mem hleaf
  rw [Function.comp_apply, restoreText_eq]
  exact foldl_replaceAll (fun item ↦ enclosed_placeholder item.kind item.index) hunique
    (fun item _ hinside ↦ habsent _ htext ⟨item.kind, item.index, hinside⟩) (hholes leaf hleaf)

end Restoring

/-- Assumes: a value in which no string has a placeholder, and fewer items than the limit. The
placeholders of its redaction are distinct, and putting back what they stand for, in the order in
which they were collected, gives the value. -/
theorem restore_redacted (value : JsonValue)
    (habsent : ∀ text ∈ value.leaves, ¬ HasPlaceholder text)
    (hfew : (redactJsonStrings value true).2.total < 10 ^ 9) :
    ((redactJsonStrings value true).2.mappings.map Prod.fst).Nodup ∧
      restorePlaceholders (redactJsonStrings value true).1
        (redactJsonStrings value true).2.mappings = value :=
  ⟨nodup_placeholders hfew, restorePlaceholders_redacted habsent hfew⟩

/-- A request with an item of each kind. -/
def sampleValue : JsonValue :=
  .object [("to".toList, .string "a@b.co".toList),
    ("or".toList, .array [.string "123-45-6789, (555)1234567".toList, .null])]

theorem sampleValue_no_placeholder : ∀ text ∈ sampleValue.leaves, ¬ HasPlaceholder text := by
  have hbracket : ∀ text ∈ sampleValue.leaves, '[' ∉ text := by decide
  exact fun text htext ↦ not_hasPlaceholder (hbracket text htext)

theorem restore_redacted_sample :
    (redactJsonStrings sampleValue true).2.mappings.length = 3 ∧
      ((redactJsonStrings sampleValue true).2.mappings.map Prod.fst).Nodup ∧
      restorePlaceholders (redactJsonStrings sampleValue true).1
        (redactJsonStrings sampleValue true).2.mappings = sampleValue :=
  ⟨by decide,
    restore_redacted sampleValue sampleValue_no_placeholder (by decide)⟩

/-! ### Values in which nothing is redacted -/

theorem not_mem_of_looksLike {kind : PiiKind} {text : List Char}
    (hitem : looksLike kind text = true) : '[' ∉ text := by
  intro hmem
  have htoken := List.all_eq_true.mp (all_of_looksLike hitem) '[' hmem
  cases kind <;> exact Bool.noConfusion htoken

/-- Assumes: holes for items. A text has one opening bracket more for each placeholder. -/
theorem count_fill_placeholder {text : Carved}
    (hitems : ∀ item ∈ holes text, looksLike item.kind item.text = true) :
    (fill PiiItem.placeholder text).count '[' =
      (fill PiiItem.text text).count '[' + (holes text).length := by
  induction text with
  | nil => rfl
  | cons entry rest ih =>
    cases entry with
    | inl character =>
      rw [fill_inl, fill_inl, List.count_cons, List.count_cons, ih hitems, holes]
      omega
    | inr item =>
      have hplaceholder : item.placeholder.count '[' = 1 := by
        obtain ⟨body, hbody, hmem⟩ := (enclosed_placeholder item.kind item.index).exists_cons
        rw [PiiItem.placeholder, hbody, List.count_cons_self, List.count_eq_zero.mpr hmem]
      have htext : item.text.count '[' = 0 :=
        List.count_eq_zero.mpr (not_mem_of_looksLike (hitems item List.mem_cons_self))
      rw [fill_inr, fill_inr, List.count_append, List.count_append, hplaceholder, htext,
        ih fun other hother ↦ hitems other (List.mem_cons_of_mem item hother), holes,
        List.length_cons]
      omega

/-- Assumes: holes for items. The placeholders change the text unless there are none. -/
theorem fill_placeholder_eq_iff {text : Carved}
    (hitems : ∀ item ∈ holes text, looksLike item.kind item.text = true) :
    fill PiiItem.placeholder text = fill PiiItem.text text ↔ holes text = [] := by
  constructor
  · intro hsame
    have hcount := count_fill_placeholder hitems
    rw [hsame] at hcount
    exact List.eq_nil_of_length_eq_zero (by omega)
  · intro hnone
    refine fill_congr fun item hitem ↦ ?_
    rw [hnone] at hitem
    exact absurd hitem List.not_mem_nil

/-- Assumes: fewer items than the limit. Redaction leaves a value as it is when none of its strings
has an item. -/
theorem redactJsonStrings_eq_self_iff {value : JsonValue}
    (hfew : (redactJsonStrings value true).2.total < placeholderLimit) :
    (redactJsonStrings value true).1 = value ↔
      ∀ text ∈ value.leaves, ∀ kind, ¬ HasItem kind text := by
  obtain ⟨items, hnumbered, -, hleaves⟩ := carveJsonStrings_collected value
  have hholes : ∀ leaf ∈ (carveJsonStrings value true).1.leaves,
      fill PiiItem.placeholder leaf = fill PiiItem.text leaf ↔
        ∀ kind, ¬ HasItem kind (fill PiiItem.text leaf) := by
    intro leaf hleaf
    obtain ⟨hmem, count, hcount⟩ := hleaves leaf hleaf
    rw [fill_placeholder_eq_iff fun item hitem ↦ hnumbered.looksLike item (hmem item hitem),
      ← itemsOf_eq_nil_iff count, ← List.perm_nil, ← List.perm_nil]
    conv_lhs => rw [hcount]
    exact ⟨fun hperm ↦ (holes_itemsOf count _).symm.trans hperm,
      fun hperm ↦ (holes_itemsOf count _).trans hperm⟩
  rw [redactJsonStrings_eq hfew]
  conv_lhs => rhs; rw [← fill_carveJsonStrings value true]
  rw [map_eq_map_iff, leaves_eq_fill value true, List.forall_mem_map]
  exact forall₂_congr hholes

/-! ### An echoed request -/

/-- Assumes: a request in which no string has a placeholder, and fewer items than the limit. The
upstream returns the redacted request, and the guardrail has what it collected and is configured to
put it back. Its response is the request exactly when no string of the request has an item. -/
theorem post_call_restores_iff (value : JsonValue)
    (habsent : ∀ text ∈ value.leaves, ¬ HasPlaceholder text)
    (hfew : (redactJsonStrings value true).2.total < 10 ^ 9)
    (before after : PiiRedact.GuardrailInput)
    (hbefore : before.mode = .preCall ∧ before.request = some value)
    (hafter : after.mode = .postCall ∧ PiiRedact.restoreOutput after.config = true)
    (hechoed : after.response = (PiiRedact.execute before).request)
    (hmappings : after.piiMappings = (PiiRedact.execute before).piiMappings) :
    (PiiRedact.execute after).response = some value ↔
      ∀ text ∈ value.leaves, ∀ kind, ¬ HasItem kind text := by
  have hredacted : PiiRedact.execute before = PiiRedact.redactValue (some value) true := by
    rw [PiiRedact.execute, hbefore.1, hbefore.2]
  have hrestored := restorePlaceholders_redacted habsent hfew
  have hresponse : (PiiRedact.execute after).response =
      some (redactJsonStrings value true).1 := by
    rw [PiiRedact.execute, hafter.1]
    dsimp only
    rw [if_pos hafter.2, hechoed, hmappings, hredacted]
    change some (redactJsonStrings (restorePlaceholders (redactJsonStrings value true).1
      (redactJsonStrings value true).2.mappings) true).1 = _
    rw [hrestored]
  rw [hresponse, Option.some_inj, redactJsonStrings_eq_self_iff hfew]

/-- The configuration of the built-in definition. -/
def definitionConfig : JsonValue := .object [(PiiRedact.restoreOutputField, .bool true)]

def beforeCall (value : JsonValue) : PiiRedact.GuardrailInput :=
  ⟨.preCall, some value, none, [], definitionConfig⟩

/-- The redacted request as the response, with what was collected. -/
def echoedCall (value : JsonValue) : PiiRedact.GuardrailInput :=
  ⟨.postCall, some value, (PiiRedact.execute (beforeCall value)).request,
    (PiiRedact.execute (beforeCall value)).piiMappings, definitionConfig⟩

theorem post_call_restores_plain :
    (PiiRedact.execute (echoedCall (.string "hi".toList))).response =
      some (.string "hi".toList) := by
  refine (post_call_restores_iff (.string "hi".toList)
    (List.forall_mem_singleton.mpr (not_hasPlaceholder (by decide))) (by decide)
    (beforeCall (.string "hi".toList)) (echoedCall (.string "hi".toList)) ⟨rfl, rfl⟩ ⟨rfl, rfl⟩ rfl
    rfl).mpr (List.forall_mem_singleton.mpr fun kind ↦ ?_)
  cases kind <;> decide

/-- An e-mail in an echoed request is put back and redacted again. -/
theorem echoed_email_redacted_again :
    (∀ text ∈ (Document.string "a@b.c".toList).leaves, ¬ HasPlaceholder text) ∧
      (redactJsonStrings (.string "a@b.c".toList) true).2.total < 10 ^ 9 ∧
      PiiRedact.restoreOutput (echoedCall (.string "a@b.c".toList)).config = true ∧
      (PiiRedact.execute (echoedCall (.string "a@b.c".toList))).response ≠
        some (.string "a@b.c".toList) := by
  have habsent : ∀ text ∈ (Document.string "a@b.c".toList).leaves,
      ¬ HasPlaceholder text := List.forall_mem_singleton.mpr (not_hasPlaceholder (by decide))
  refine ⟨habsent, by decide, rfl, ?_⟩
  have hresponse : (PiiRedact.execute (echoedCall (.string "a@b.c".toList))).response =
      some (.string "[EMAIL_1]".toList) := by
    rfl
  rw [hresponse]
  simp

end Relayna.Guardrails

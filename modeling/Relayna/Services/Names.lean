import Relayna.Library.Words
import Relayna.Pricing.Endpoints

/-!
# The names of imported services

`crates/gateway-core/src/services.rs`: an imported service is named after the first of its names
that can be made a service name. Names are lists of characters. The lower case of a character, which
may be several characters, is a parameter.

A normalized name consists of the words of the lower case of its source with a dash between each
two, cut after 64 characters (`normalizeGatewayServiceName_eq`). The dashes at its ends are trimmed
off before the cut, so a cut right after a dash leaves a name that is not accepted:
`normalized_name_valid_iff` says when.
-/

set_option autoImplicit false
set_option relaxedAutoImplicit false

namespace Relayna.Services

open Relayna.Library
open Relayna.Pricing (GatewayError)

/-! ### Names -/

/-- `is_ascii_lowercase` or `is_ascii_digit`. -/
def isNameCharacter (character : Char) : Bool :=
  character.isLower || character.isDigit

/-- `str::len`. -/
def byteLength (name : List Char) : ℕ :=
  (name.map Char.utf8Size).sum

def validateServiceName (name : List Char) : Except GatewayError Unit :=
  if name ≠ [] ∧ byteLength name ≤ 64 ∧
      (name.all fun character ↦ isNameCharacter character || decide (character = '-')) ∧
      name.head?.any isNameCharacter ∧ name.getLast?.any isNameCharacter then .ok ()
  else .error .invalidServicePayload

/-- The loop of `normalize_gateway_service_name`: the output and `previous_dash`. -/
def appendCharacter (state : List Char × Bool) (character : Char) : List Char × Bool :=
  if isNameCharacter character then (state.1 ++ [character], false)
  else if !state.2 then (state.1 ++ ['-'], true)
  else state

variable (toLowercase : Char → List Char)

def normalizeGatewayServiceName (value : List Char) : List Char :=
  (trimEnds (fun character ↦ decide (character = '-'))
    ((value.flatMap toLowercase).foldl appendCharacter ([], false)).1).take 64

/-- The names of an imported service. -/
structure StudioService where
  gatewayServiceName : Option (List Char)
  name : Option (List Char)
  studioServiceId : List Char

/-- The names of a service, in the order in which they are tried. -/
def StudioService.candidates (service : StudioService) : List (List Char) :=
  [service.gatewayServiceName, service.name, some service.studioServiceId].reduceOption

def gatewayName (service : StudioService) : Except GatewayError (List Char) :=
  match (service.candidates.map (normalizeGatewayServiceName toLowercase)).find?
      fun normalized ↦ decide (validateServiceName normalized = .ok ()) with
  | some normalized => .ok normalized
  | none => .error .invalidServicePayload

/-! ### Normalized names are joined words -/

/-- The words of the lower case of a name. -/
def nameWords (value : List Char) : List (List Char) :=
  words isNameCharacter (value.flatMap toLowercase)

theorem areWords_nameWords (value : List Char) :
    AreWords isNameCharacter (nameWords toLowercase value) :=
  areWords_words _

theorem foldl_appendCharacter (text output : List Char) (previousDash : Bool) :
    (text.foldl appendCharacter (output, previousDash)).1 =
      output ++ collapse isNameCharacter '-' previousDash text := by
  induction text generalizing output previousDash with
  | nil => simp [collapse]
  | cons character text ih =>
    rw [List.foldl_cons, appendCharacter, collapse]
    by_cases hname : isNameCharacter character = true
    · rw [if_pos hname, if_pos hname, ih, List.append_assoc, List.singleton_append]
    · rw [if_neg hname, if_neg hname]
      rcases previousDash with _ | _
      · show (text.foldl appendCharacter (output ++ ['-'], true)).1 = _
        rw [ih, List.append_assoc, List.singleton_append]
        rfl
      · exact ih output true

/-- A normalized name consists of words, with a dash between each two, and is cut after 64
characters. -/
theorem normalizeGatewayServiceName_eq (value : List Char) :
    normalizeGatewayServiceName toLowercase value =
      (joined '-' (nameWords toLowercase value)).take 64 := by
  rw [normalizeGatewayServiceName, foldl_appendCharacter, List.nil_append,
    trimEnds_collapse (by decide)]
  rfl

theorem isNameCharacter_eq (character : Char) :
    isNameCharacter character =
      ((decide ('a'.val ≤ character.val) && decide (character.val ≤ 'z'.val)) ||
        (decide ('0'.val ≤ character.val) && decide (character.val ≤ '9'.val))) :=
  rfl

/-- The characters of a name take one byte. -/
theorem utf8Size_name {character : Char}
    (hname : isNameCharacter character = true ∨ character = '-') : character.utf8Size = 1 := by
  rcases hname with hname | rfl
  · rw [Char.utf8Size_eq_one_iff]
    simp only [isNameCharacter_eq, Bool.or_eq_true, Bool.and_eq_true, decide_eq_true_eq] at hname
    rcases hname with ⟨-, hupper⟩ | ⟨-, hupper⟩
    · exact UInt32.le_trans hupper (by decide)
    · exact UInt32.le_trans hupper (by decide)
  · rfl

theorem byteLength_name {name : List Char}
    (hname : ∀ character ∈ name, isNameCharacter character = true ∨ character = '-') :
    byteLength name = name.length := by
  have hone : name.map Char.utf8Size = name.map fun _ ↦ 1 :=
    List.map_congr_left fun character hmem ↦ utf8Size_name (hname character hmem)
  rw [byteLength, hone, List.map_const', List.sum_replicate_nat, Nat.mul_one]

/-- Joined words of at most 64 characters are an accepted name. -/
theorem validateServiceName_joined {parts : List (List Char)}
    (hparts : AreWords isNameCharacter parts) (hne : joined '-' parts ≠ [])
    (hlength : (joined '-' parts).length ≤ 64) :
    validateServiceName (joined '-' parts) = .ok () := by
  have hcharacters : ∀ character ∈ joined '-' parts,
      isNameCharacter character = true ∨ character = '-' := by
    intro character hmem
    rcases mem_joined hmem with hdash | ⟨part, hpart, hcharacter⟩
    · exact Or.inr hdash
    · exact Or.inl ((hparts part hpart).2 character hcharacter)
  refine if_pos ⟨hne, ?_, ?_, ?_, ?_⟩
  · rw [byteLength_name hcharacters]
    exact hlength
  · simpa using hcharacters
  · obtain ⟨character, hhead⟩ := Option.ne_none_iff_exists'.mp (mt List.head?_eq_none_iff.mp hne)
    rw [hhead]
    exact head?_joined hparts hhead
  · obtain ⟨character, hlast⟩ :=
      Option.ne_none_iff_exists'.mp (mt List.getLast?_eq_none_iff.mp hne)
    rw [hlast]
    exact getLast?_joined hparts hlast

/-- An accepted name does not end with a dash. -/
theorem getLast?_of_valid {name : List Char} (hvalid : validateServiceName name = .ok ()) :
    name.getLast? ≠ some '-' := by
  intro hlast
  unfold validateServiceName at hvalid
  split_ifs at hvalid with hname
  rw [hlast] at hname
  exact absurd hname.2.2.2.2 (by decide)

/-- An accepted name is not empty. -/
theorem ne_nil_of_valid {name : List Char} (hvalid : validateServiceName name = .ok ()) :
    name ≠ [] := by
  unfold validateServiceName at hvalid
  split_ifs at hvalid with hname
  exact hname.1

/-! ### When a normalized name is accepted -/

variable {toLowercase}

/-- A character whose lower case has an ASCII letter or digit. -/
def HasNameCharacter (toLowercase : Char → List Char) (value : List Char) : Prop :=
  ∃ character ∈ value, ∃ lower ∈ toLowercase character, isNameCharacter lower = true

/-- No words at the front, other than all of them, take 63 characters with the dashes between
them. -/
def CutFits (toLowercase : Char → List Char) (value : List Char) : Prop :=
  ∀ count, 0 < count → count < (nameWords toLowercase value).length →
    (joined '-' ((nameWords toLowercase value).take count)).length ≠ 63

/-- The cut does not leave a dash at the end. -/
theorem getLast?_normalized_iff (value : List Char) :
    (normalizeGatewayServiceName toLowercase value).getLast? ≠ some '-' ↔
      CutFits toLowercase value := by
  rw [normalizeGatewayServiceName_eq]
  refine (not_congr (getLast?_take_joined (by decide)
    (areWords_nameWords toLowercase value) 64)).trans ?_
  constructor
  · intro hnot count hpos hlt hlength
    exact hnot ⟨count, hpos, hlt, by rw [hlength]⟩
  · rintro hfits ⟨count, hpos, hlt, hlength⟩
    exact hfits count hpos hlt (by omega)

/-- Assumes: a name with a letter or digit. Its normalized form is not empty. -/
theorem normalized_ne_nil {value : List Char} (hname : HasNameCharacter toLowercase value) :
    normalizeGatewayServiceName toLowercase value ≠ [] := by
  obtain ⟨character, hmem, lower, hlower, hword⟩ := hname
  have hwords : nameWords toLowercase value ≠ [] :=
    words_ne_nil (List.mem_flatMap.mpr ⟨character, hmem, hlower⟩) hword
  obtain ⟨first, later, hsplit⟩ := List.exists_cons_of_ne_nil hwords
  rw [normalizeGatewayServiceName_eq, hsplit, Ne, List.take_eq_nil_iff]
  have hparts : AreWords isNameCharacter (first :: later) :=
    hsplit ▸ areWords_nameWords toLowercase value
  exact not_or.mpr ⟨by decide, joined_ne_nil hparts⟩

/-- Assumes: letters, digits and dashes are their own lower case. A normalized name that does not
end with a dash is accepted, and is its own normalized form. -/
theorem normalized_valid
    (hlower : ∀ character, isNameCharacter character = true ∨ character = '-' →
      toLowercase character = [character])
    {value : List Char} (hname : HasNameCharacter toLowercase value)
    (hlast : (normalizeGatewayServiceName toLowercase value).getLast? ≠ some '-') :
    validateServiceName (normalizeGatewayServiceName toLowercase value) = .ok () ∧
      normalizeGatewayServiceName toLowercase (normalizeGatewayServiceName toLowercase value) =
        normalizeGatewayServiceName toLowercase value := by
  have hne := normalized_ne_nil hname
  have hlength : (normalizeGatewayServiceName toLowercase value).length ≤ 64 := by
    rw [normalizeGatewayServiceName_eq, List.length_take]
    omega
  obtain ⟨kept, hkept, hjoined⟩ : ∃ kept, AreWords isNameCharacter kept ∧
      normalizeGatewayServiceName toLowercase value = joined '-' kept := by
    rw [normalizeGatewayServiceName_eq] at hlast ⊢
    exact take_joined (areWords_nameWords toLowercase value) 64 hlast
  rw [hjoined] at hne hlength ⊢
  refine ⟨validateServiceName_joined hkept hne hlength, ?_⟩
  have hsame : (joined '-' kept).flatMap toLowercase = joined '-' kept := by
    have hown : ∀ character ∈ joined '-' kept, toLowercase character = [character] := by
      intro character hmem
      rcases mem_joined hmem with hdash | ⟨part, hpart, hcharacter⟩
      · exact hlower character (Or.inr hdash)
      · exact hlower character (Or.inl ((hkept part hpart).2 character hcharacter))
    rw [List.flatMap_congr hown]
    simp
  rw [normalizeGatewayServiceName_eq, nameWords, hsame, words_joined (by decide) hkept]
  exact List.take_of_length_le hlength

/-- A name without letters and digits has an empty normalized form, which is not accepted. -/
theorem normalized_of_not {value : List Char} (hname : ¬ HasNameCharacter toLowercase value) :
    validateServiceName (normalizeGatewayServiceName toLowercase value) ≠ .ok () := by
  have hwords : nameWords toLowercase value = [] := by
    refine words_eq_nil fun lower hlower ↦ Bool.eq_false_iff.mpr fun hword ↦ hname ?_
    obtain ⟨character, hmem, hcharacter⟩ := List.mem_flatMap.mp hlower
    exact ⟨character, hmem, lower, hcharacter, hword⟩
  rw [normalizeGatewayServiceName_eq, hwords]
  exact fun hvalid ↦ ne_nil_of_valid hvalid (by simp)

/-- Assumes: letters, digits and dashes are their own lower case. The normalized form of a name with
a letter or digit is accepted, and is its own normalized form, exactly if no words at its front take
63 characters before another word; and an import is named after its first candidate with a letter or
digit exactly if this is so for this candidate. -/
theorem normalized_name_valid_iff (toLowercase : Char → List Char)
    (hlower : ∀ character, isNameCharacter character = true ∨ character = '-' →
      toLowercase character = [character]) :
    (∀ value, HasNameCharacter toLowercase value →
      (validateServiceName (normalizeGatewayServiceName toLowercase value) = .ok () ∧
        normalizeGatewayServiceName toLowercase (normalizeGatewayServiceName toLowercase value) =
          normalizeGatewayServiceName toLowercase value ↔ CutFits toLowercase value)) ∧
    ∀ (service : StudioService) (before : List (List Char)) (candidate : List Char)
      (after : List (List Char)), service.candidates = before ++ candidate :: after →
      (∀ other ∈ before, ¬ HasNameCharacter toLowercase other) →
      HasNameCharacter toLowercase candidate →
      (gatewayName toLowercase service = .ok (normalizeGatewayServiceName toLowercase candidate) ↔
        CutFits toLowercase candidate) := by
  constructor
  · intro value hname
    rw [← getLast?_normalized_iff]
    exact ⟨fun hvalid ↦ getLast?_of_valid hvalid.1, normalized_valid hlower hname⟩
  · intro service before candidate after hcandidates hbefore hname
    rw [← getLast?_normalized_iff]
    constructor
    · intro hchosen
      unfold gatewayName at hchosen
      split at hchosen
      · rename_i normalized hfound
        rw [Except.ok.injEq] at hchosen
        have hvalid := List.find?_some hfound
        rw [← hchosen]
        exact getLast?_of_valid (of_decide_eq_true hvalid)
      · cases hchosen
    · intro hlast
      have hfound : (service.candidates.map (normalizeGatewayServiceName toLowercase)).find?
          (fun normalized ↦ decide (validateServiceName normalized = .ok ())) =
          some (normalizeGatewayServiceName toLowercase candidate) := by
        rw [List.find?_eq_some_iff_append]
        refine ⟨decide_eq_true (normalized_valid hlower hname hlast).1,
          before.map (normalizeGatewayServiceName toLowercase),
          after.map (normalizeGatewayServiceName toLowercase), by simp [hcandidates], ?_⟩
        intro normalized hnormalized
        obtain ⟨other, hother, rfl⟩ := List.mem_map.mp hnormalized
        simpa using normalized_of_not (hbefore other hother)
      rw [gatewayName, hfound]

/-- `char::to_lowercase` of the ASCII characters. -/
def asciiLowercase (character : Char) : List Char :=
  [character.toLower]

theorem asciiLowercase_name {character : Char}
    (hname : isNameCharacter character = true ∨ character = '-') :
    asciiLowercase character = [character] := by
  rcases hname with hname | rfl
  · refine congrArg (fun lower ↦ [lower]) (dif_neg ?_)
    simp only [isNameCharacter_eq, Bool.or_eq_true, Bool.and_eq_true, decide_eq_true_eq, ge_iff_le,
      UInt32.le_iff_toNat_le] at hname ⊢
    have hletters : ('A'.val.toNat = 65 ∧ 'Z'.val.toNat = 90) ∧ 'a'.val.toNat = 97 ∧
      '9'.val.toNat = 57 := by decide
    omega
  · rfl

/-- A name of 63 letters and another word is cut right after the dash. -/
theorem long_name_rejected :
    HasNameCharacter asciiLowercase (List.replicate 63 'a' ++ ['-', 'b']) ∧
    validateServiceName (normalizeGatewayServiceName asciiLowercase
      (List.replicate 63 'a' ++ ['-', 'b'])) ≠ .ok () ∧
    normalizeGatewayServiceName asciiLowercase (normalizeGatewayServiceName asciiLowercase
        (List.replicate 63 'a' ++ ['-', 'b'])) ≠
      normalizeGatewayServiceName asciiLowercase (List.replicate 63 'a' ++ ['-', 'b']) ∧
    gatewayName asciiLowercase ⟨some (List.replicate 63 'a' ++ ['-', 'b']), none, ['x']⟩ =
      .ok ['x'] := by
  refine ⟨⟨'b', by simp, 'b', by decide, by decide⟩, by decide, by decide,
    by decide⟩

/-- A short name is accepted. -/
theorem normalized_name_valid_short :
    validateServiceName (normalizeGatewayServiceName asciiLowercase "My  API".toList) = .ok () ∧
    normalizeGatewayServiceName asciiLowercase
        (normalizeGatewayServiceName asciiLowercase "My  API".toList) =
      normalizeGatewayServiceName asciiLowercase "My  API".toList ∧
    gatewayName asciiLowercase ⟨some "??".toList, some "My  API".toList, ['x']⟩ =
      .ok (normalizeGatewayServiceName asciiLowercase "My  API".toList) := by
  have hvalid := normalized_name_valid_iff asciiLowercase fun _ ↦ asciiLowercase_name
  have hname : HasNameCharacter asciiLowercase "My  API".toList :=
    ⟨'M', by decide, 'm', by decide, by decide⟩
  have hwords : nameWords asciiLowercase "My  API".toList = ["my".toList, "api".toList] := by
    decide
  have hfits : CutFits asciiLowercase "My  API".toList := by
    unfold CutFits
    rw [hwords]
    intro count hpos hlt
    obtain rfl : count = 1 := Nat.le_antisymm (Nat.le_of_lt_succ hlt) hpos
    decide
  have hother : ∀ other ∈ ["??".toList], ¬ HasNameCharacter asciiLowercase other := by
    simp [HasNameCharacter, asciiLowercase, isNameCharacter]
  exact ⟨((hvalid.1 _ hname).mpr hfits).1, ((hvalid.1 _ hname).mpr hfits).2,
    (hvalid.2 _ ["??".toList] _ [['x']] rfl hother hname).mpr hfits⟩

end Relayna.Services

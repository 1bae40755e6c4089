import Mathlib.Tactic.FinCases
import Relayna.ResponseCost.Acceptance

/-!
# The observer and the whole body

The cost that the observer finds in the chunks of a body against the one that
`extract_estimated_cost_usd` finds in the body as a whole. On a body that the parser accepts both
follow the same paths to the same literals. The two differ on bodies that the observer accepts and
the parser refuses: the observer opens 128 containers where the parser stops at 127, and it does not
refuse a number outside the range of `f64`. `streamed_cost_eq_whole_iff` says that they differ there
only, and only when such a body carries a cost.
-/

set_option autoImplicit false
set_option relaxedAutoImplicit false

namespace Relayna.ResponseCost

open Relayna.Library
open Relayna.Library.Json

variable {F64 : Type}

/-! ### The whole body -/

theorem find_filterMap {α β : Type} (convert : α → Option β) (accept : β → Bool)
    (values : List α) :
    (values.filterMap convert).find? accept =
      values.findSome? fun value ↦ (convert value).filter accept := by
  induction values with
  | nil => rfl
  | cons value values ih =>
    rw [List.findSome?_cons, List.filterMap_cons]
    cases convert value with
    | none => exact ih
    | some number =>
      rw [List.find?_cons, Option.filter_some]
      cases accept number with
      | true => rfl
      | false => exact ih

theorem pointer_singleton (key : List UInt8) (value : Value) :
    value.pointer [key] = value.get key := by
  change (value.get key).bind some = value.get key
  exact Option.bind_fun_some _

/-- The extraction goes through the paths in their order. -/
theorem extract_eq (serde : Serde F64) (body : List UInt8) :
    extractEstimatedCostUsd serde body =
      (serde.fromSlice body).bind fun value ↦
        (List.finRange 6).findSome? fun index ↦
          ((value.pointer (costPaths index)).bind serde.asF64).filter serde.isCost := by
  unfold extractEstimatedCostUsd
  congr 1
  funext value
  have hfound : [value.get (ascii "estimated_cost"), value.get (ascii "response_cost"),
      value.pointer [ascii "usage", ascii "estimated_cost"],
      value.pointer [ascii "usage", ascii "total_cost"],
      value.pointer [ascii "usage", ascii "cost"],
      value.pointer [ascii "_hidden_params", ascii "response_cost"]] =
      (List.finRange 6).map fun index ↦ value.pointer (costPaths index) := by
    rw [← pointer_singleton, ← pointer_singleton]
    rfl
  simp only [hfound]
  rw [List.filterMap_filterMap, find_filterMap, List.findSome?_map]
  rfl

/-- Assumes: no literal of the value is long. On an object the paths lead both sides to the same
costs. -/
theorem extract_value (serde : Serde F64) {value : Value}
    (hshort : ∀ literal ∈ value.literals, literal.1.length ≤ 128) (index : Fin 6) :
    ((value.pointer (costPaths index)).bind serde.asF64).filter serde.isCost =
      costAt serde (costPaths index) value := by
  unfold costAt
  cases hpointer : value.pointer (costPaths index) with
  | none => rfl
  | some child =>
    cases child with
    | number literal =>
      have hlength := hshort literal (literals_pointer hpointer List.mem_cons_self)
      change (serde.convert literal.1).filter serde.isCost = literalCost serde literal.1
      rw [literalCost, if_pos hlength]
    | _ => rfl

theorem firstCost_of_not_isObject (serde : Serde F64) {value : Value}
    (hobject : ¬value.isObject) : firstCost serde value = none := by
  have hget (key : List UInt8) : value.get key = none := by
    cases value with
    | object members => exact absurd rfl hobject
    | _ => rfl
  rw [firstCost, List.findSome?_eq_none_iff]
  intro index _
  have hpointer : value.pointer (costPaths index) = none := by
    have hpath : ∃ key path, costPaths index = key :: path := by
      fin_cases index <;> exact ⟨_, _, rfl⟩
    obtain ⟨key, path, hpath⟩ := hpath
    rw [hpath, Value.pointer, hget]
    rfl
  rw [costAt, hpointer]
  rfl

/-- Assumes: no literal of a document of the body is long. What the extraction finds in a value that
the parser returns. -/
theorem extract_some (serde : Serde F64) {body : List UInt8} {value : Value}
    (hparse : serde.fromSlice body = some value)
    (hshort : ∀ literal ∈ value.literals, literal.1.length ≤ 128) :
    extractEstimatedCostUsd serde body = firstCost serde value := by
  rw [extract_eq, hparse, Option.bind_some, firstCost]
  congr 1
  funext index
  exact extract_value serde hshort index

theorem extract_none (serde : Serde F64) {body : List UInt8}
    (hparse : serde.fromSlice body = none) : extractEstimatedCostUsd serde body = none := by
  rw [extract_eq, hparse]
  rfl

/-! ### Agreement -/

/-- The body is an object that the observer accepts, and it carries a cost. -/
def CarriesCost (serde : Serde F64) (body : List UInt8) : Prop :=
  ∃ value, Document value body ∧ value.isObject ∧ value.depth ≤ 128 ∧
    (firstCost serde value).isSome

/-- The body is within the limits of the parser: at most 127 nested containers, and every number in
range. -/
def Parseable (serde : Serde F64) (body : List UInt8) : Prop :=
  ∃ value, Document value body ∧ value.depth ≤ 127 ∧ serde.InRange value

/-- The number literals of the body have at most 128 bytes each. -/
def ShortLiterals (body : List UInt8) : Prop :=
  ∀ value, Document value body → ∀ literal ∈ value.literals, literal.1.length ≤ 128

theorem cost_of_failed {observer : Observer F64} (hfailed : observer.failed = true) :
    observer.cost = none := by
  rw [Observer.cost, hfailed]
  rfl

/-- Assumes: the laws of the parser. The observer reports a cost only for a body that carries it. -/
theorem carriesCost_of_observe {serde : Serde F64} (hserde : serde.Lawful)
    {chunks : List (List UInt8)} (hcost : (Observer.observe serde chunks).cost ≠ none) :
    CarriesCost serde chunks.flatten := by
  have hfailed : (Observer.observe serde chunks).failed = false := by
    cases hcase : (Observer.observe serde chunks).failed with
    | false => rfl
    | true => exact absurd (cost_of_failed hcase) hcost
  obtain ⟨value, hdocument, hobject, hdepth⟩ := document_of_observe hserde hfailed
  refine ⟨value, hdocument, hobject, hdepth, ?_⟩
  rw [cost_document hserde hdocument hobject hdepth] at hcost
  exact Option.isSome_iff_ne_none.mpr hcost

/-- Assumes: the laws of the parser. On a body that the parser accepts both find the same cost. -/
theorem observe_eq_of_parse {serde : Serde F64} (hserde : serde.Lawful)
    {chunks : List (List UInt8)} {value : Value}
    (hparse : serde.fromSlice chunks.flatten = some value) :
    (Observer.observe serde chunks).cost = firstCost serde value := by
  obtain ⟨hdocument, hdepth, -⟩ := hserde.fromSlice_sound _ _ hparse
  by_cases hobject : value.isObject
  · exact cost_document hserde hdocument hobject (by omega)
  · rw [firstCost_of_not_isObject serde hobject]
    by_contra hcost
    obtain ⟨other, hother, hother', -⟩ := carriesCost_of_observe hserde hcost
    exact hobject (hdocument.isObject_iff.mpr (hother.isObject_iff.mp hother'))

/-- Assumes: the laws of the parser, and number literals of at most 128 bytes. For every body and
every way of splitting it into chunks, the observer finds the cost that the extraction from the
whole body finds exactly when the body, should it be an object of at most 128 nested containers that
carries a cost, is within the limits of the parser. -/
theorem streamed_cost_eq_whole_iff (serde : Serde F64) (hserde : serde.Lawful)
    (chunks : List (List UInt8)) (hshort : ShortLiterals chunks.flatten) :
    (Observer.observe serde chunks).cost = extractEstimatedCostUsd serde chunks.flatten ↔
      (CarriesCost serde chunks.flatten → Parseable serde chunks.flatten) := by
  constructor
  · rintro heq ⟨value, hdocument, hobject, hdepth, hcost⟩
    cases hparse : serde.fromSlice chunks.flatten with
    | some parsed => exact ⟨parsed, hserde.fromSlice_sound _ _ hparse⟩
    | none =>
      rw [extract_none serde hparse, cost_document hserde hdocument hobject hdepth] at heq
      rw [heq] at hcost
      cases hcost
  · intro hlimits
    cases hparse : serde.fromSlice chunks.flatten with
    | some parsed =>
      have hdocument := (hserde.fromSlice_sound _ _ hparse).1
      rw [extract_some serde hparse (hshort parsed hdocument), observe_eq_of_parse hserde hparse]
    | none =>
      rw [extract_none serde hparse]
      by_contra hcost
      obtain ⟨value, hdocument, hdepth, hrange⟩ := hlimits (carriesCost_of_observe hserde hcost)
      have hsome := hserde.fromSlice_complete _ value hdocument hdepth hrange
      rw [hparse] at hsome
      cases hsome

theorem shortLiterals_of_length {body : List UInt8} (hbody : body.length ≤ 128) :
    ShortLiterals body :=
  fun _ hdocument literal hliteral ↦ (hdocument.length_literal_le literal hliteral).trans hbody

/-- The body `{"estimated_cost":1}` in two chunks. -/
theorem streamed_cost_eq_whole_split :
    (Observer.observe (Serde.reference naturalNumber fun number ↦ 0 < number)
      [ascii "\x7b\"estim", ascii "ated_cost\":1\x7d"]).cost =
      extractEstimatedCostUsd (Serde.reference naturalNumber fun number ↦ 0 < number)
        [ascii "\x7b\"estim", ascii "ated_cost\":1\x7d"].flatten := by
  refine (streamed_cost_eq_whole_iff _ (Serde.reference_lawful _ _) _
    (shortLiterals_of_length (by decide +kernel))).mpr fun _ ↦ ?_
  refine ⟨_, document_estimatedCost, by decide, fun literal hliteral ↦ ?_⟩
  have hone : literal = ⟨_, number_one⟩ := by
    simpa [Value.literals, Value.literalsMembers] using hliteral
  rw [hone]
  rfl

/-! ### A number outside the range -/

/-- Assumes: two objects within the depth bound, of the same short body. A cost path leads to the
same literal in both. -/
theorem literal_at_path {body : List UInt8} {first second : Value}
    (hfirst : Document first body ∧ first.isObject ∧ first.depth ≤ 128)
    (hsecond : Document second body ∧ second.isObject ∧ second.depth ≤ 128)
    (hshort : ShortLiterals body) {index : Fin 6} {literal : List UInt8}
    (hcost : costAt (Serde.reference some fun _ ↦ true) (costPaths index) first = some literal) :
    ∃ other ∈ second.literals, other.1 = literal := by
  let serde : Serde (List UInt8) := Serde.reference some fun _ ↦ true
  have hserde : serde.Lawful := Serde.reference_lawful _ _
  have hsame : documentCosts serde first = documentCosts serde second := by
    have hone := @observe_document _ serde hserde [body] first (by simpa using hfirst.1) hfirst.2.1
      hfirst.2.2
    have htwo := @observe_document _ serde hserde [body] second (by simpa using hsecond.1)
      hsecond.2.1 hsecond.2.2
    exact congrArg Observer.costs (hone.symm.trans htwo)
  have hother : costAt serde (costPaths index) second = some literal :=
    (congrFun hsame index).symm.trans hcost
  obtain ⟨child, hchild, hnumber⟩ := Option.bind_eq_some_iff.mp hother
  cases child with
  | number found =>
    have hmem := literals_pointer hchild List.mem_cons_self
    refine ⟨found, hmem, ?_⟩
    change literalCost serde found.1 = _ at hnumber
    rw [literalCost, if_pos (hshort second hsecond.1 found hmem)] at hnumber
    exact Option.some.inj hnumber
  | _ => cases hnumber

theorem body_responseCost : Body (ascii "response_cost") :=
  body_of_plain (by decide +kernel)

theorem number_large : Number (ascii "1e999") :=
  @Number.exponent [49] [57, 57, 57] 101
    (.integer (.positive (.many rfl (by decide) fun _ hbyte ↦ absurd hbyte List.not_mem_nil)))
    rfl ⟨List.cons_ne_nil _ _, by decide +kernel⟩

/-- The object of the body `{"estimated_cost":1e999,"response_cost":1}`. -/
def outOfRange : Value :=
  .object [(⟨_, body_estimatedCost⟩, .number ⟨_, number_large⟩),
    (⟨_, body_responseCost⟩, .number ⟨_, number_one⟩)]

theorem document_outOfRange :
    Document outOfRange (ascii "\x7b\"estimated_cost\":1e999,\"response_cost\":1\x7d") := by
  have hdocument := Derives.tight_document
    (.nextMember
      (.firstMember (.tight_member ⟨_, body_estimatedCost⟩ (.number ⟨_, number_large⟩)))
      (.tight_member ⟨_, body_responseCost⟩ (.number ⟨_, number_one⟩)))
  have htext : openBrace :: ((quote :: (ascii "estimated_cost" ++
    quote :: colon :: ascii "1e999") ++
      comma :: quote :: (ascii "response_cost" ++ quote :: colon :: [49])) ++ [closeBrace]) =
      ascii "\x7b\"estimated_cost\":1e999,\"response_cost\":1\x7d" :=
    rfl
  rw [← htext]
  exact hdocument

/-- A number outside the range of `f64` makes the parser refuse the body and leaves the observer
with the cost that stands beside it. -/
theorem out_of_range_number_keeps_cost :
    (Serde.reference naturalNumber fun number ↦ 0 < number).Lawful ∧
      ShortLiterals (ascii "\x7b\"estimated_cost\":1e999,\"response_cost\":1\x7d") ∧
      (Observer.observe (Serde.reference naturalNumber fun number ↦ 0 < number)
        [ascii "\x7b\"estimated_cost\":1e999,\"response_cost\":1\x7d"]).cost = some 1 ∧
      extractEstimatedCostUsd (Serde.reference naturalNumber fun number ↦ 0 < number)
        (ascii "\x7b\"estimated_cost\":1e999,\"response_cost\":1\x7d") = none := by
  have hshort : ShortLiterals (ascii "\x7b\"estimated_cost\":1e999,\"response_cost\":1\x7d") :=
    shortLiterals_of_length (by decide +kernel)
  refine ⟨Serde.reference_lawful _ _, hshort, ?_, extract_none _ ?_⟩
  · have hflatten : Document outOfRange
        [ascii "\x7b\"estimated_cost\":1e999,\"response_cost\":1\x7d"].flatten := by
      rw [List.flatten_singleton]
      exact document_outOfRange
    refine (cost_document (Serde.reference_lawful _ _) hflatten rfl (by decide)).trans ?_
    decide +kernel
  · rw [Option.eq_none_iff_forall_ne_some]
    intro value hparse
    obtain ⟨hvalue, hdepth, hrange⟩ := (Serde.reference_lawful _ _).fromSlice_sound _ _ hparse
    have hobject := hvalue.isObject_iff.mpr (document_outOfRange.isObject_iff.mp rfl)
    obtain ⟨other, hother, hsame⟩ := @literal_at_path _ outOfRange value
      ⟨document_outOfRange, rfl, by decide⟩ ⟨hvalue, hobject, by omega⟩ hshort 0
      (ascii "1e999") (by decide +kernel)
    have hin := hrange other hother
    rw [hsame] at hin
    exact absurd hin (by decide +kernel)

end Relayna.ResponseCost

import Mathlib.Data.List.Nodup
import Relayna.Pricing.Endpoints

/-!
# The order of endpoint rules and the names of their parameters

Several accepted templates can serve one path. The most specific one is chosen: the one with the
most static segments, then the longest one, then the last one. So the choice can depend on the
order of the list, when templates of one length overlap, and on the length of a parameter's name,
which the identities of a list do not see.

`choice_immaterial_iff` says exactly when it depends on neither.
-/

set_option autoImplicit false
set_option relaxedAutoImplicit false

namespace Relayna.Pricing

open Relayna.Library Relayna.Library.Json

/-! ### Renamed parameters -/

/-- Two templates that differ in the name of one parameter, which is a whole segment. -/
def RenamesParameter (old new : Text) : Prop :=
  ∃ front oldName newName back,
    old = front ++ (123 :: oldName ++ [125]) ++ back ∧
    new = front ++ (123 :: newName ++ [125]) ++ back ∧
    front.getLast? = some 47 ∧ (back = [] ∨ back.head? = some 47) ∧
    47 ∉ oldName ∧ 47 ∉ newName

def ServiceEndpointPricingRule.withTemplate (rule : ServiceEndpointPricingRule)
    (pathTemplate : Text) : ServiceEndpointPricingRule :=
  { rule with pathTemplate }

/-- What becomes of the rules of a list when one of them gets another template. -/
def renamed (rule : ServiceEndpointPricingRule) (pathTemplate : Text)
    (other : ServiceEndpointPricingRule) : ServiceEndpointPricingRule :=
  if other = rule then rule.withTemplate pathTemplate else other

/-- What is dropped off the front ends where something stands that is kept. -/
theorem dropWhile_append_cons {drops : UInt8 → Bool} {first : UInt8} (hkept : drops first = false)
    (front rest : Text) :
    (front ++ first :: rest).dropWhile drops = front.dropWhile drops ++ first :: rest := by
  induction front with
  | nil => simp [hkept]
  | cons byte front ih =>
    rw [List.cons_append, List.dropWhile_cons, List.dropWhile_cons, ih]
    split_ifs <;> rfl

/-- What is left ends as the whole did. -/
theorem getLast?_dropWhile {drops : UInt8 → Bool} {last : UInt8} {text : Text}
    (hlast : text = [] ∨ text.getLast? = some last) :
    text.dropWhile drops = [] ∨ (text.dropWhile drops).getLast? = some last := by
  rcases hlast with rfl | hlast
  · exact Or.inl rfl
  · refine or_iff_not_imp_left.mpr fun hne ↦ ?_
    rw [← List.takeWhile_append_dropWhile (p := drops) (l := text), List.getLast?_append] at hlast
    rw [List.getLast?_eq_some_getLast hne] at hlast ⊢
    exact hlast

/-- Slashes are trimmed off both ends, and stay on both sides of a parameter. -/
theorem trimSlashes_parameter (front name back : Text) :
    trimSlashes (front ++ (123 :: name ++ [125]) ++ back) =
      front.dropWhile (· = 47) ++ ((123 :: name ++ [125]) ++
        (back.reverse.dropWhile (· = 47)).reverse) := by
  have hfront : (front ++ (123 :: name ++ [125]) ++ back).dropWhile (· = 47) =
      front.dropWhile (· = 47) ++ 123 :: (name ++ [125] ++ back) := by
    rw [← dropWhile_append_cons (by decide)]
    simp
  have hback : (front.dropWhile (· = 47) ++ 123 :: (name ++ [125] ++ back)).reverse =
      back.reverse ++ 125 :: (name.reverse ++ 123 :: (front.dropWhile (· = 47)).reverse) := by
    simp
  rw [trimSlashes, hfront, hback, dropWhile_append_cons (by decide)]
  simp

theorem isParameter_braces (name : Text) : isParameter (123 :: name ++ [125]) = true := by
  simp [isParameter, List.getLast?_cons]

/-- Assumes: a text that is empty or ends with a slash. Its segments stand before those of what
follows. -/
theorem splitOn_front {front : Text} (hfront : front = [] ∨ front.getLast? = some 47) :
    ∃ before : List Text, ∀ text : Text,
      (front ++ text).splitOn 47 = before ++ text.splitOn 47 := by
  rcases hfront with rfl | hlast
  · exact ⟨[], fun text ↦ rfl⟩
  · obtain ⟨body, rfl⟩ := List.getLast?_eq_some_iff.mp hlast
    refine ⟨body.splitOn 47, fun text ↦ ?_⟩
    rw [List.append_assoc, List.singleton_append, List.splitOn_append_cons_self]

/-- Assumes: a text that is empty or begins with a slash. Its segments stand after the one that it
follows. -/
theorem splitOn_back {back : Text} (hback : back = [] ∨ back.head? = some 47) :
    ∃ after : List Text, ∀ segment : Text, 47 ∉ segment →
      (segment ++ back).splitOn 47 = segment :: after := by
  rcases hback with rfl | hhead
  · refine ⟨[], fun segment hsegment ↦ ?_⟩
    rw [List.append_nil, List.splitOn_eq_singleton hsegment]
  · obtain ⟨body, rfl⟩ := List.head?_eq_some_iff.mp hhead
    refine ⟨body.splitOn 47, fun segment hsegment ↦ ?_⟩
    rw [List.splitOn_append_cons_self, List.splitOn_eq_singleton hsegment, List.singleton_append]

/-- The segments before and after a parameter do not depend on its name. -/
theorem segments_renamed {old new : Text} (hrenames : RenamesParameter old new) :
    ∃ before oldSegment newSegment after,
      segments old = before ++ oldSegment :: after ∧
      segments new = before ++ newSegment :: after ∧
      isParameter oldSegment = true ∧ isParameter newSegment = true := by
  obtain ⟨front, oldName, newName, back, rfl, rfl, hfront, hback, hold, hnew⟩ := hrenames
  have hreversed : back.reverse = [] ∨ back.reverse.getLast? = some 47 := by
    simpa using hback
  have hcut : (back.reverse.dropWhile (· = 47)).reverse = [] ∨
      (back.reverse.dropWhile (· = 47)).reverse.head? = some 47 := by
    rw [List.reverse_eq_nil_iff, List.head?_reverse]
    exact getLast?_dropWhile hreversed
  obtain ⟨before, hbefore⟩ := splitOn_front (getLast?_dropWhile (Or.inr hfront))
  obtain ⟨after, hafter⟩ := splitOn_back hcut
  refine ⟨before, 123 :: oldName ++ [125], 123 :: newName ++ [125], after, ?_, ?_,
    isParameter_braces oldName, isParameter_braces newName⟩
  · rw [segments, trimSlashes_parameter, hbefore, hafter]
    simp [hold]
  · rw [segments, trimSlashes_parameter, hbefore, hafter]
    simp [hnew]

theorem segmentsMatch_parameter {oldSegment newSegment : Text}
    (hold : isParameter oldSegment = true) (hnew : isParameter newSegment = true)
    (front back actuals : List Text) :
    segmentsMatch (front ++ oldSegment :: back) actuals =
      segmentsMatch (front ++ newSegment :: back) actuals := by
  induction front generalizing actuals with
  | nil => rcases actuals with _ | ⟨actual, actuals⟩ <;> simp [segmentsMatch, hold, hnew]
  | cons segment front ih =>
    rcases actuals with _ | ⟨actual, actuals⟩
    · rfl
    · simp only [List.cons_append, segmentsMatch, ih]

/-- A renamed template serves the same paths. -/
theorem endpointTemplateMatches_renamed {old new : Text} (hrenames : RenamesParameter old new)
    (path : Text) : endpointTemplateMatches new path = endpointTemplateMatches old path := by
  obtain ⟨front, oldSegment, newSegment, back, hold, hnew, holdParameter, hnewParameter⟩ :=
    segments_renamed hrenames
  rw [endpointTemplateMatches, endpointTemplateMatches, hold, hnew]
  exact segmentsMatch_parameter hnewParameter holdParameter front back (segments path)

/-! ### Who is chosen -/

section Chosen

variable {method : Method} {path : Text} {before after : List ServiceEndpointPricingRule}
  {rule : ServiceEndpointPricingRule}

/-- Whether a rule stands ahead of all others of its list that serve a request. -/
def OutranksServing (method : Method) (path : Text) (before : List ServiceEndpointPricingRule)
    (rule : ServiceEndpointPricingRule) (after : List ServiceEndpointPricingRule) : Prop :=
  Outranks (fun rule ↦ specificityKey rule.pathTemplate) (servingRules method path before) rule
    (servingRules method path after)

theorem servingRules_append_cons (before after : List ServiceEndpointPricingRule)
    (rule : ServiceEndpointPricingRule) :
    servingRules method path (before ++ rule :: after) =
      servingRules method path before ++
        if serves method path rule.method rule.pathTemplate then
          rule :: servingRules method path after
        else servingRules method path after := by
  rw [servingRules, List.filter_append, List.filter_cons]
  rfl

/-- Assumes: a rule that serves the request, in a list without repetition. It is chosen if it stands
ahead of all others. -/
theorem chosenRule_eq_some_iff (hnodup : (before ++ rule :: after).Nodup)
    (hserves : serves method path rule.method rule.pathTemplate = true) :
    chosenRule method path (before ++ rule :: after) = some rule ↔
      OutranksServing method path before rule after := by
  have hserving : (servingRules method path (before ++ rule :: after)).Nodup := hnodup.filter _
  rw [chosenRule]
  rw [servingRules_append_cons, if_pos hserves] at hserving ⊢
  exact lastMax_eq_some_iff hserving

/-- The chosen rule is one of the list. -/
theorem mem_of_chosenRule {rules : List ServiceEndpointPricingRule}
    (hchosen : chosenRule method path rules = some rule) : rule ∈ rules :=
  (List.mem_filter.mp (isTop_of_lastMax hchosen).1).1

/-- The others keep their place when a rule that is not chosen gets another template. -/
theorem renamed_of_ne {pathTemplate : Text} {other : ServiceEndpointPricingRule}
    (hne : other ≠ rule) : renamed rule pathTemplate other = other :=
  if_neg hne

/-- Assumes: a list without repetition, and a rule that is not chosen from it. The others are chosen
as if it were absent, and keep their templates. -/
theorem chosenRule_of_not (pathTemplate : Text) (hnodup : (before ++ rule :: after).Nodup)
    (hnot : chosenRule method path (before ++ rule :: after) ≠ some rule) :
    chosenRule method path (before ++ rule :: after) = chosenRule method path (before ++ after) ∧
      (chosenRule method path (before ++ after)).map (renamed rule pathTemplate) =
        chosenRule method path (before ++ after) := by
  constructor
  · unfold chosenRule at hnot ⊢
    have happend : servingRules method path (before ++ after) =
        servingRules method path before ++ servingRules method path after :=
      List.filter_append before after
    rw [servingRules_append_cons] at hnot ⊢
    rw [happend]
    split_ifs at hnot ⊢
    · exact (lastMax_remove _ _ rule).resolve_left hnot
    · rfl
  · rcases hrest : chosenRule method path (before ++ after) with _ | other
    · rfl
    · have hmem := mem_of_chosenRule hrest
      have hne : other ≠ rule := by
        rintro rfl
        rw [List.nodup_middle, List.nodup_cons] at hnodup
        exact hnodup.1 hmem
      rw [Option.map_some, renamed_of_ne hne]

/-- Assumes: a list without repetition, before and after one template got another parameter name.
The same rule is chosen from both exactly if the renamed one stands ahead of all others under both
names or under neither. -/
theorem chosenRule_renamed_iff {pathTemplate : Text}
    (hrenames : RenamesParameter rule.pathTemplate pathTemplate)
    (hnodup : (before ++ rule :: after).Nodup)
    (hrenamed : (before ++ rule.withTemplate pathTemplate :: after).Nodup) :
    chosenRule method path (before ++ rule.withTemplate pathTemplate :: after) =
        (chosenRule method path (before ++ rule :: after)).map (renamed rule pathTemplate) ↔
      (serves method path rule.method rule.pathTemplate = true →
        (OutranksServing method path before rule after ↔
          OutranksServing method path before (rule.withTemplate pathTemplate) after)) := by
  have hserves : serves method path rule.method pathTemplate =
      serves method path rule.method rule.pathTemplate := by
    rw [serves, serves, endpointTemplateMatches_renamed hrenames]
  have htarget : renamed rule pathTemplate rule = rule.withTemplate pathTemplate := if_pos rfl
  by_cases hserved : serves method path rule.method rule.pathTemplate = true
  · have hold := chosenRule_eq_some_iff hnodup hserved
    have hnew := chosenRule_eq_some_iff hrenamed (hserves.trans hserved)
    rw [← hold, ← hnew]
    constructor
    · intro hsame _
      constructor
      · intro hchosen
        rw [hsame, hchosen, Option.map_some, htarget]
      · intro hchosen
        rw [hchosen] at hsame
        obtain ⟨other, hother, hname⟩ := Option.map_eq_some_iff.mp hsame.symm
        by_cases heq : other = rule
        · rw [hother, heq]
        · rw [renamed_of_ne heq] at hname
          subst hname
          have hmem := mem_of_chosenRule hother
          rw [List.nodup_middle, List.nodup_cons] at hrenamed
          rw [List.mem_append, List.mem_cons] at hmem
          exact absurd (by simpa [heq] using hmem) hrenamed.1
    · intro hsame
      by_cases hchosen : chosenRule method path (before ++ rule :: after) = some rule
      · rw [hchosen, (hsame hserved).mp hchosen, Option.map_some, htarget]
      · have hkept := chosenRule_of_not pathTemplate hnodup hchosen
        have hother := chosenRule_of_not pathTemplate hrenamed
          (fun hnow ↦ hchosen ((hsame hserved).mpr hnow))
        rw [hother.1, hkept.1, hkept.2]
  · refine iff_of_true ?_ fun h ↦ absurd h hserved
    have hnot : chosenRule method path (before ++ rule :: after) ≠ some rule := by
      intro hchosen
      exact hserved (List.mem_filter.mp (isTop_of_lastMax hchosen).1).2
    have hkept := chosenRule_of_not pathTemplate hnodup hnot
    have hother : chosenRule method path (before ++ rule.withTemplate pathTemplate :: after) ≠
        some (rule.withTemplate pathTemplate) := by
      intro hchosen
      exact hserved (hserves.symm.trans (List.mem_filter.mp (isTop_of_lastMax hchosen).1).2)
    rw [(chosenRule_of_not pathTemplate hrenamed hother).1, hkept.1, hkept.2]

end Chosen

/-! ### When the choice is immaterial -/

/-- What a request is charged, and under which name. -/
def ResolvedServiceCost.charge (cost : ResolvedServiceCost) :
    ServiceCostMode × Option Price × Option Text :=
  (cost.costMode, cost.estimatedCostUsd, cost.pricingRuleName)

def ServiceEndpointPricingRule.charge (rule : ServiceEndpointPricingRule) :
    ServiceCostMode × Option Price × Option Text :=
  (rule.costMode, rule.estimatedCostUsd, some (endpointPricingRuleName rule))

theorem resolve_charge (pricingFingerprint : Selector → Text) (method : Method) (path : Text)
    (rules : List ServiceEndpointPricingRule) :
    (resolveEndpointPricingRule pricingFingerprint method path rules).map
        ResolvedServiceCost.charge =
      (chosenRule method path rules).map ServiceEndpointPricingRule.charge := by
  rw [resolveEndpointPricingRule_eq, Option.map_map]
  rfl

/-- Assumes: an accepted list. No rule stands twice in it. -/
theorem nodup_of_valid {rules : List ServiceEndpointPricingRule}
    (hvalid : validateEndpointPricingRules rules = .ok ()) : rules.Nodup :=
  List.Nodup.of_map _ (nodup_of_validateEach hvalid)

/-- For every method and path. The price does not depend on the order of the accepted rules exactly
if all most specific rules that serve the request charge the same. The endpoint does not depend on
the order of the accepted endpoints exactly if only one of those that serve the request is most
specific. The choice does not depend on the name of a parameter exactly if its rule stands ahead of
all others that serve the request under both names or under neither. -/
theorem choice_immaterial_iff (pricingFingerprint : Selector → Text) (method : Method)
    (path : Text) :
    (∀ rules, validateEndpointPricingRules rules = .ok () →
      ((∀ order : List ServiceEndpointPricingRule, order.Perm rules →
        (resolveEndpointPricingRule pricingFingerprint method path order).map
            ResolvedServiceCost.charge =
          (resolveEndpointPricingRule pricingFingerprint method path rules).map
            ResolvedServiceCost.charge) ↔
      ∀ first second,
        IsTop (fun rule ↦ specificityKey rule.pathTemplate) (servingRules method path rules) first →
        IsTop (fun rule ↦ specificityKey rule.pathTemplate)
          (servingRules method path rules) second →
        first.charge = second.charge)) ∧
    (∀ endpoints, validateOpenapiEndpoints endpoints = .ok () →
      ((∀ order : List ServiceOpenApiEndpoint, order.Perm endpoints →
        matchingOpenapiEndpoint method path order =
          matchingOpenapiEndpoint method path endpoints) ↔
      ∀ first second,
        IsTop (fun endpoint ↦ specificityKey endpoint.pathTemplate)
          (servingEndpoints method path endpoints) first →
        IsTop (fun endpoint ↦ specificityKey endpoint.pathTemplate)
          (servingEndpoints method path endpoints) second →
        first = second)) ∧
    ∀ before rule after pathTemplate, RenamesParameter rule.pathTemplate pathTemplate →
      validateEndpointPricingRules (before ++ rule :: after) = .ok () →
      validateEndpointPricingRules (before ++ rule.withTemplate pathTemplate :: after) = .ok () →
      (chosenRule method path (before ++ rule.withTemplate pathTemplate :: after) =
          (chosenRule method path (before ++ rule :: after)).map (renamed rule pathTemplate) ↔
        (serves method path rule.method rule.pathTemplate = true →
          (OutranksServing method path before rule after ↔
            OutranksServing method path before (rule.withTemplate pathTemplate) after))) := by
  refine ⟨fun rules _ ↦ ?_, fun endpoints _ ↦ ?_, ?_⟩
  · simp only [resolve_charge]
    exact (forall_perm_filter _ rules fun order ↦
      (lastMax _ order).map ServiceEndpointPricingRule.charge =
        (chosenRule method path rules).map ServiceEndpointPricingRule.charge).trans
      (lastMax_perm_iff ServiceEndpointPricingRule.charge _)
  · have hsame := @lastMax_perm_iff _ _ _ _
      (fun endpoint ↦ specificityKey endpoint.pathTemplate) id
      (servingEndpoints method path endpoints)
    simp only [Option.map_id, id_eq] at hsame
    simp only [matchingOpenapiEndpoint_eq]
    exact (forall_perm_filter _ endpoints fun order ↦
      lastMax _ order = lastMax _ (servingEndpoints method path endpoints)).trans hsame
  · intro before rule after pathTemplate hrenames hvalid hrenamed
    exact chosenRule_renamed_iff hrenames (nodup_of_valid hvalid) (nodup_of_valid hrenamed)

/-- `Method::GET`. -/
def getMethod : Method :=
  ⟨ascii "GET", by decide, by decide⟩

def fixedRule (pathTemplate : String) (units : Fin 1000) : ServiceEndpointPricingRule where
  method := ascii "GET"
  pathTemplate := ascii pathTemplate
  operationId := none
  costMode := .fixed
  estimatedCostUsd := some ⟨units.val, units.isLt.trans (by decide)⟩

/-- The last of two overlapping templates of one length decides the price, and so does the longer
parameter name. -/
theorem overlapping_templates_differ :
    validateEndpointPricingRules [fixedRule "/a/{x}" 1, fixedRule "/{y}/b" 2] = .ok () ∧
    [fixedRule "/{y}/b" 2, fixedRule "/a/{x}" 1].Perm
      [fixedRule "/a/{x}" 1, fixedRule "/{y}/b" 2] ∧
    (resolveEndpointPricingRule (fun _ ↦ []) getMethod (ascii "/a/b")
        [fixedRule "/{y}/b" 2, fixedRule "/a/{x}" 1]).map ResolvedServiceCost.charge ≠
      (resolveEndpointPricingRule (fun _ ↦ []) getMethod (ascii "/a/b")
        [fixedRule "/a/{x}" 1, fixedRule "/{y}/b" 2]).map ResolvedServiceCost.charge ∧
    RenamesParameter (ascii "/a/{x}") (ascii "/a/{job}") ∧
    validateEndpointPricingRules [fixedRule "/a/{job}" 1, fixedRule "/{y}/b" 2] = .ok () ∧
    chosenRule getMethod (ascii "/a/b") [fixedRule "/a/{x}" 1, fixedRule "/{y}/b" 2] =
      some (fixedRule "/{y}/b" 2) ∧
    chosenRule getMethod (ascii "/a/b") [fixedRule "/a/{job}" 1, fixedRule "/{y}/b" 2] =
      some (fixedRule "/a/{job}" 1) := by
  refine ⟨by decide, List.Perm.swap _ _ _, by decide, ?_, by decide,
    by decide, by decide⟩
  exact ⟨ascii "/a/", ascii "x", ascii "job", [], by decide, by decide, by decide, Or.inl rfl,
    by decide, by decide⟩

/-- An endpoint without a description. -/
def plainEndpoint (pathTemplate : String) : ServiceOpenApiEndpoint where
  method := ascii "GET"
  pathTemplate := ascii pathTemplate
  operationId := none
  summary := none
  relaynaDefault := false

/-- A path that only one of the templates serves. -/
theorem choice_immaterial_single :
    (∀ order : List ServiceEndpointPricingRule,
      order.Perm [fixedRule "/a/{x}" 1, fixedRule "/{y}/b" 2] →
      (resolveEndpointPricingRule (fun _ ↦ []) getMethod (ascii "/a/c") order).map
          ResolvedServiceCost.charge =
        (resolveEndpointPricingRule (fun _ ↦ []) getMethod (ascii "/a/c")
          [fixedRule "/a/{x}" 1, fixedRule "/{y}/b" 2]).map ResolvedServiceCost.charge) ∧
    (∀ order : List ServiceOpenApiEndpoint,
      order.Perm [plainEndpoint "/a/{x}", plainEndpoint "/{y}/b"] →
      matchingOpenapiEndpoint getMethod (ascii "/a/c") order =
        matchingOpenapiEndpoint getMethod (ascii "/a/c")
          [plainEndpoint "/a/{x}", plainEndpoint "/{y}/b"]) ∧
    chosenRule getMethod (ascii "/a/c")
        [(fixedRule "/a/{x}" 1).withTemplate (ascii "/a/{job}"), fixedRule "/{y}/b" 2] =
      (chosenRule getMethod (ascii "/a/c") [fixedRule "/a/{x}" 1, fixedRule "/{y}/b" 2]).map
        (renamed (fixedRule "/a/{x}" 1) (ascii "/a/{job}")) := by
  have himmaterial := choice_immaterial_iff (fun _ ↦ []) getMethod (ascii "/a/c")
  have hrules : servingRules getMethod (ascii "/a/c")
      [fixedRule "/a/{x}" 1, fixedRule "/{y}/b" 2] = [fixedRule "/a/{x}" 1] := by
    decide
  have hendpoints : servingEndpoints getMethod (ascii "/a/c")
      [plainEndpoint "/a/{x}", plainEndpoint "/{y}/b"] = [plainEndpoint "/a/{x}"] := by
    decide
  have hother : servingRules getMethod (ascii "/a/c") [fixedRule "/{y}/b" 2] = [] := by
    decide
  refine ⟨(himmaterial.1 _ (by decide)).mpr ?_,
    (himmaterial.2.1 _ (by decide)).mpr ?_,
    (himmaterial.2.2 [] (fixedRule "/a/{x}" 1) [fixedRule "/{y}/b" 2] (ascii "/a/{job}")
      ⟨ascii "/a/", ascii "x", ascii "job", [], by decide, by decide, by decide, Or.inl rfl,
        by decide, by decide⟩ (by decide) (by decide)).mpr fun _ ↦ ?_⟩
  · rw [hrules]
    intro first second hfirst hsecond
    rw [List.mem_singleton.mp hfirst.1, List.mem_singleton.mp hsecond.1]
  · rw [hendpoints]
    intro first second hfirst hsecond
    rw [List.mem_singleton.mp hfirst.1, List.mem_singleton.mp hsecond.1]
  · unfold OutranksServing
    rw [hother]
    exact iff_of_true ⟨by simp [servingRules], by simp⟩ ⟨by simp [servingRules], by simp⟩

end Relayna.Pricing

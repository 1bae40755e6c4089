import Relayna.ResponseCost.Reading

/-!
# What the observer accepts

Every text of a value brings the observer past the value, with the costs of the value
(`derives_accepted`, by induction on the grammar): a scalar may still be open at its end, and is
recorded by the byte that follows (`Stands`). With the invariant of the text that was read this
decides acceptance in both directions: `observer_accepts_grammar` says that a body is accepted, in
whatever chunks it comes, exactly when it is the text of one object within the depth bound, and that
the cost is then the first one that the paths lead to.
-/

set_option autoImplicit false
set_option relaxedAutoImplicit false

namespace Relayna.ResponseCost

open Relayna.Library
open Relayna.Library.Json

variable {F64 : Type}

/-! ### Past a value -/

/-- The observer has read a value inside the containers of the stack, with these costs: it is
between tokens, or at the end of a scalar. -/
inductive Stands (serde : Serde F64) (stack : List Frame) :
    Observer F64 → (Fin 6 → Option F64) → Prop
  | between {costs : Fin 6 → Option F64} :
      Stands serde stack (Observer.running stack none costs) costs
  | scalar {scalar : Scalar} {path : Path} {costs : Fin 6 → Option F64} (hvalid : scalar.valid) :
      Stands serde stack (Observer.running stack (some (.scalar scalar path)) costs)
        (record path (scalar.cost serde) costs)

section Stands

variable {serde : Serde F64} {stack : List Frame} {observer : Observer F64}
  {costs : Fin 6 → Option F64}

/-- The byte after a value meets the observer between tokens. -/
theorem Stands.feed (hstands : Stands serde stack observer costs) {byte : UInt8}
    (hbyte : Observer.endsScalar byte) (bytes : List UInt8) :
    observer.feed serde (byte :: bytes) =
      ((Observer.running stack none costs).structural byte).feed serde bytes := by
  cases hstands with
  | between => rw [Observer.feed_cons rfl, Observer.advance_running_none]
  | scalar hvalid => rw [Observer.feed_cons rfl, Observer.advance_endScalar hbyte hvalid]

theorem endsScalar_of_isWhitespace {byte : UInt8} (hbyte : isWhitespace byte) :
    Observer.endsScalar byte := by
  simp [Observer.endsScalar, hbyte]

theorem structural_gap {byte : UInt8} (hbyte : isWhitespace byte) :
    observer.structural byte = observer := by
  rw [Observer.structural, if_pos hbyte]

theorem feed_gap {gap : List UInt8} (hgap : Skip gap) :
    (Observer.running stack none costs).feed serde gap = Observer.running stack none costs := by
  induction gap with
  | nil => rfl
  | cons byte gap ih =>
    rw [Observer.feed_cons rfl, Observer.advance_running_none,
      structural_gap (hgap byte List.mem_cons_self)]
    exact ih fun other hother ↦ hgap other (List.mem_cons_of_mem _ hother)

theorem Stands.gap (hstands : Stands serde stack observer costs) {gap : List UInt8}
    (hgap : Skip gap) : Stands serde stack (observer.feed serde gap) costs := by
  cases gap with
  | nil => exact hstands
  | cons byte gap =>
    have hbyte := hgap byte List.mem_cons_self
    rw [hstands.feed (endsScalar_of_isWhitespace hbyte), structural_gap hbyte,
      feed_gap fun other hother ↦ hgap other (List.mem_cons_of_mem _ hother)]
    exact .between

end Stands

/-- A byte between tokens that makes a step. -/
theorem feed_step {serde : Serde F64} {frame : Frame} {stack : List Frame}
    {costs : Fin 6 → Option F64} {byte : UInt8} {observer : Observer F64}
    (hstep : Observer.Step frame stack costs byte observer) (bytes : List UInt8) :
    (Observer.running (frame :: stack) none costs).feed serde (byte :: bytes) =
      observer.feed serde bytes := by
  rw [Observer.feed_cons rfl, Observer.advance_running_none, Observer.structural_of_step hstep]

/-! ### Strings -/

theorem foldl_capture (raw : List UInt8) : ∀ read : List UInt8,
    raw.foldl StringToken.capture (captured read) = captured (read ++ raw) := by
  induction raw with
  | nil => exact fun read ↦ by rw [List.append_nil, List.foldl_nil]
  | cons byte raw ih =>
    intro read
    rw [List.foldl_cons, capture_captured, ih, List.append_assoc, List.singleton_append]

/-- The bytes of a string that the automaton reads. -/
theorem feed_read {serde : Serde F64} {stack : List Frame} {costs : Fin 6 → Option F64} {key : Bool}
    (raw : List UInt8) : ∀ {kept : Option (List UInt8)} {scan next : Scan},
      scan.read raw = some next →
      (Observer.running stack (some (.string ⟨key, kept, scan⟩)) costs).feed serde raw =
        Observer.running stack
          (some (.string ⟨key, raw.foldl StringToken.capture kept, next⟩)) costs := by
  induction raw with
  | nil =>
    intro kept scan next hread
    obtain rfl : scan = next := by simpa [Scan.read] using hread
    rfl
  | cons byte raw ih =>
    intro kept scan next hread
    rw [Scan.read] at hread
    split at hread
    · next after hfeed =>
      rw [Observer.feed_cons rfl, Observer.advance_string hfeed]
      exact ih hread
    · cases hread

/-- A string that is a value. -/
theorem feed_string {serde : Serde F64} {stack : List Frame} {costs : Fin 6 → Option F64}
    (raw : StringBody) :
    (Observer.running stack (some (.string (.new false))) costs).feed serde (raw.1 ++ [quote]) =
      Observer.running stack none costs := by
  obtain ⟨next, hread, hrest⟩ := @Scan.AtRest.read_body .base raw.1 .mk raw.2
  rw [Observer.feed_append, StringToken.new, feed_read raw.1 hread, Observer.feed_cons rfl,
    Observer.advance_close hrest.close]
  rfl

/-- A string that is a key. -/
theorem feed_key {serde : Serde F64} (hserde : serde.Lawful) {frame : Frame} {stack : List Frame}
    {costs : Fin 6 → Option F64} (raw : StringBody) :
    (Observer.running (frame :: stack) (some (.string (.new true))) costs).feed serde
        (raw.1 ++ [quote]) =
      Observer.running ({ frame with key := some (keyText raw.1), expect := .colon } :: stack)
        none costs := by
  obtain ⟨next, hread, hrest⟩ := @Scan.AtRest.read_body .base raw.1 .mk raw.2
  have hcapture : raw.1.foldl StringToken.capture (captured []) = captured raw.1 :=
    foldl_capture raw.1 []
  rw [Observer.feed_append, StringToken.new, feed_read raw.1 hread, Observer.feed_cons rfl,
    Observer.advance_close hrest.close]
  change Observer.feed serde (Observer.closeString serde _
    ⟨true, StringToken.capture (raw.1.foldl StringToken.capture (captured [])) quote, next⟩) [] = _
  rw [hcapture, capture_captured, Observer.closeString, if_pos rfl, captured_key hserde raw.2]
  rfl

/-! ### Scalars -/

/-- A valid scalar was valid at every byte. -/
theorem foldl_ne_invalid {scalar : Scalar} (rest : List UInt8)
    (hvalid : (rest.foldl Scalar.feed scalar).state ≠ .invalid) : scalar.state ≠ .invalid := by
  induction rest generalizing scalar with
  | nil => exact hvalid
  | cons byte rest ih =>
    intro hinvalid
    exact ih hvalid (Scalar.feed_invalid hinvalid byte)

/-- The bytes of a scalar after its first one. -/
theorem feed_scalar {serde : Serde F64} {stack : List Frame} {costs : Fin 6 → Option F64}
    {path : Path} (rest : List UInt8) : ∀ {scalar : Scalar},
      (∀ byte ∈ rest, Observer.endsScalar byte = false) →
      (rest.foldl Scalar.feed scalar).state ≠ .invalid →
      (Observer.running stack (some (.scalar scalar path)) costs).feed serde rest =
        Observer.running stack (some (.scalar (rest.foldl Scalar.feed scalar) path)) costs := by
  induction rest with
  | nil => exact fun _ _ ↦ rfl
  | cons byte rest ih =>
    intro scalar hends hvalid
    rw [List.forall_mem_cons] at hends
    rw [List.foldl_cons] at hvalid ⊢
    have hstate := foldl_ne_invalid rest hvalid
    rw [Observer.feed_cons rfl, Observer.advance_scalar hends.1, decide_eq_false hstate]
    exact ih hends.2 hvalid

/-- The text of a scalar where a value begins. -/
theorem ScalarText.stands {serde : Serde F64} (hserde : serde.Lawful) {value : Value}
    {text : List UInt8} (htext : ScalarText value text) {frame frame' : Frame}
    {stack : List Frame} {path : Path} {costs : Fin 6 → Option F64}
    (htake : frame.take = some (path, frame')) :
    Stands serde (frame' :: stack)
      ((Observer.running (frame :: stack) none costs).feed serde text)
      (tally serde (relevant path) value (clear path costs)) := by
  have hcost := htext.cost_after hserde
  have htally := tally_scalar serde (relevant path) htext (clear path costs)
  obtain ⟨first, rest, rfl, hfirst, hends, hvalid⟩ := htext.valid_after
  have hafter : Scalar.after (first :: rest) = rest.foldl Scalar.feed (Scalar.new first) := rfl
  rw [feed_step (.scalar hfirst htake),
    feed_scalar rest hends (hafter ▸ Scalar.valid_ne_invalid hvalid), htally, ← hcost, ← hafter]
  exact .scalar hvalid

/-! ### Every text of a value -/

def Frame.afterMember (frame : Frame) : Frame :=
  { frame with key := none, expect := .commaOrEnd }

def Frame.afterElement (frame : Frame) : Frame :=
  { frame with expect := .commaOrEnd }

/-- What the text of a symbol does to the observer, wherever it may stand. -/
def Accepts (serde : Serde F64) : Symbol → List UInt8 → Prop
  | .value value, text | .element value, text =>
    ∀ (frame frame' : Frame) (stack : List Frame) (path : Path) (costs : Fin 6 → Option F64),
      frame.take = some (path, frame') → stack.length + 1 + value.depth ≤ 128 →
      Stands serde (frame' :: stack)
        ((Observer.running (frame :: stack) none costs).feed serde text)
        (tally serde (relevant path) value (clear path costs))
  | .member raw value, text =>
    ∀ (frame : Frame) (stack : List Frame) (costs : Fin 6 → Option F64),
      frame.takesKey → stack.length + 1 + value.depth ≤ 128 →
      Stands serde (frame.afterMember :: stack)
        ((Observer.running (frame :: stack) none costs).feed serde text)
        (tally serde (relevant (frame.path ++ [keyText raw.1])) value
          (clear (frame.path ++ [keyText raw.1]) costs))
  | .elements elements, text =>
    ∀ (frame : Frame) (stack : List Frame) (costs : Fin 6 → Option F64),
      frame.object = false → frame.expect = .value ∨ frame.expect = .valueOrEnd →
      stack.length + 1 + Value.depthElements elements ≤ 128 →
      Stands serde (frame.afterElement :: stack)
        ((Observer.running (frame :: stack) none costs).feed serde text)
        (tallyElements serde frame.path elements costs)
  | .members members, text =>
    ∀ (frame : Frame) (stack : List Frame) (costs : Fin 6 → Option F64),
      frame.takesKey → stack.length + 1 + Value.depthMembers members ≤ 128 →
      Stands serde (frame.afterMember :: stack)
        ((Observer.running (frame :: stack) none costs).feed serde text)
        (tallyMembers serde frame.path members costs)

/-- A container around content that is accepted. -/
theorem accepts_container {serde : Serde F64} {object : Bool} {content : List UInt8}
    {costs total : Fin 6 → Option F64} {frame frame' inner : Frame} {stack : List Frame}
    {path : Path} (htake : frame.take = some (path, frame')) (hdepth : stack.length + 1 < 128)
    (hcontent : Stands serde (inner :: frame' :: stack)
      ((Observer.running (Frame.new object (relevant path) :: frame' :: stack) none
        (clear path costs)).feed serde content) total)
    (hends : inner.ends) (hobject : inner.object = object) :
    Stands serde (frame' :: stack)
      ((Observer.running (frame :: stack) none costs).feed serde
        (Frame.openByte object :: (content ++ [Frame.closeByte object]))) total := by
  have hbyte : Observer.endsScalar (Frame.closeByte object) := by
    cases object <;> rfl
  have hclose := @Observer.Step.closed F64 inner (frame' :: stack) total hends
  rw [hobject] at hclose
  rw [feed_step (.opened object htake hdepth), Observer.feed_append, hcontent.feed hbyte,
    Observer.structural_of_step hclose]
  exact .between

theorem take_of_array {frame : Frame} (hobject : frame.object = false)
    (hexpect : frame.expect = .value ∨ frame.expect = .valueOrEnd) :
    frame.take = some (frame.path ++ [[]], frame.afterElement) := by
  rw [Frame.take, if_pos hexpect, if_neg (by rw [hobject]; exact Bool.false_ne_true)]
  rfl

/-- Assumes: the laws of the parser. Every text of the grammar is accepted where it may stand. -/
theorem derives_accepted {serde : Serde F64} (hserde : serde.Lawful) {symbol : Symbol}
    {text : List UInt8} (htext : Derives symbol text) : Accepts serde symbol text := by
  induction htext with
  | nullWord => exact fun _ _ _ _ _ htake _ ↦ ScalarText.nullWord.stands hserde htake
  | trueWord => exact fun _ _ _ _ _ htake _ ↦ ScalarText.trueWord.stands hserde htake
  | falseWord => exact fun _ _ _ _ _ htake _ ↦ ScalarText.falseWord.stands hserde htake
  | number literal => exact fun _ _ _ _ _ htake _ ↦ (ScalarText.number literal).stands hserde htake
  | string raw =>
    intro frame frame' stack path costs htake _
    rw [feed_step (.string htake), feed_string, tally]
    exact .between
  | @emptyArray gap hgap =>
    intro frame frame' stack path costs htake hdepth
    refine accepts_container htake (by rw [Value.depth] at hdepth; omega) ?_
      (show (Frame.new false (relevant path)).ends from .inr (.inl rfl)) rfl
    rw [feed_gap hgap, tally, tallyElements]
    exact .between
  | @array elements content _ ih =>
    intro frame frame' stack path costs htake hdepth
    rw [Value.depth] at hdepth
    rw [tally]
    exact accepts_container htake (by omega)
      (ih (Frame.new false (relevant path)) (frame' :: stack) _ rfl (.inr rfl)
        (by rw [List.length_cons]; omega)) (.inr (.inr rfl)) rfl
  | @emptyObject gap hgap =>
    intro frame frame' stack path costs htake hdepth
    refine accepts_container htake (by rw [Value.depth] at hdepth; omega) ?_
      (show (Frame.new true (relevant path)).ends from .inl rfl) rfl
    rw [feed_gap hgap, tally, tallyMembers]
    exact .between
  | @object members content _ ih =>
    intro frame frame' stack path costs htake hdepth
    rw [Value.depth] at hdepth
    rw [tally]
    exact accepts_container htake (by omega)
      (ih (Frame.new true (relevant path)) (frame' :: stack) _ ⟨rfl, .inr rfl⟩
        (by rw [List.length_cons]; omega)) (.inr (.inr rfl)) rfl
  | element hbefore _ hafter ih =>
    intro frame frame' stack path costs htake hdepth
    rw [Observer.feed_append, Observer.feed_append, feed_gap hbefore]
    exact (ih frame frame' stack path costs htake hdepth).gap hafter
  | @member raw value before between content hbefore hbetween _ ih =>
    intro frame stack costs hkey hdepth
    have hcolon := @Observer.Step.colon F64
      { frame with key := some (keyText raw.1), expect := .colon } stack costs hkey.1 rfl
    rw [Observer.feed_append, feed_gap hbefore, feed_step (.key hkey),
      show raw.1 ++ quote :: (between ++ colon :: content) =
        (raw.1 ++ [quote]) ++ (between ++ colon :: content) by simp,
      Observer.feed_append, feed_key hserde, Observer.feed_append, feed_gap hbetween,
      feed_step hcolon]
    refine ih _ _ stack _ costs ?_ hdepth
    rw [Frame.take, if_pos (.inl rfl), if_pos hkey.1]
    rfl
  | @firstElement value content _ ih =>
    intro frame stack costs hobject hexpect hdepth
    rw [tallyElements, tallyElements]
    refine ih frame frame.afterElement stack _ costs (take_of_array hobject hexpect) ?_
    simpa [Value.depthElements] using hdepth
  | @nextElement elements value content next _ _ ih ihnext =>
    intro frame stack costs hobject hexpect hdepth
    rw [Value.depthElements_snoc] at hdepth
    have hbefore := ih frame stack costs hobject hexpect (by omega)
    have hcomma := @Observer.Step.comma F64 frame.afterElement stack
      (tallyElements serde frame.path elements costs) rfl
    rw [Observer.feed_append, hbefore.feed (by decide), Observer.structural_of_step hcomma,
      tallyElements_snoc]
    refine ihnext frame.afterElement.afterComma _ stack _ _ ?_ (by omega)
    have hnext : frame.afterElement.afterComma.expect = .value := by
      simp [Frame.afterComma, Frame.afterElement, hobject]
    exact take_of_array hobject (.inl hnext)
  | @firstMember raw value content _ ih =>
    intro frame stack costs hkey hdepth
    rw [tallyMembers, tallyMembers]
    refine ih frame stack costs hkey ?_
    simpa [Value.depthMembers] using hdepth
  | @nextMember members raw value content next _ _ ih ihnext =>
    intro frame stack costs hkey hdepth
    rw [Value.depthMembers_snoc] at hdepth
    have hbefore := ih frame stack costs hkey (by omega)
    have hcomma := @Observer.Step.comma F64 frame.afterMember stack
      (tallyMembers serde frame.path members costs) rfl
    rw [Observer.feed_append, hbefore.feed (by decide), Observer.structural_of_step hcomma,
      tallyMembers_snoc]
    have hnext : frame.afterMember.afterComma.expect = .key := by
      simp [Frame.afterComma, Frame.afterMember, hkey.1]
    exact ihnext frame.afterMember.afterComma stack _ ⟨hkey.1, .inl hnext⟩ (by omega)

/-! ### Whole bodies -/

theorem feed_new_gap {serde : Serde F64} {gap : List UInt8} (hgap : Skip gap) :
    (Observer.new : Observer F64).feed serde gap = Observer.new := by
  induction gap with
  | nil => rfl
  | cons byte gap ih =>
    rw [Observer.feed_cons rfl, Observer.advance_new, if_pos (hgap byte List.mem_cons_self)]
    exact ih fun other hother ↦ hgap other (List.mem_cons_of_mem _ hother)

theorem feed_finished_gap {serde : Serde F64} {gap : List UInt8} (hgap : Skip gap)
    (costs : Fin 6 → Option F64) :
    (Observer.finished costs).feed serde gap = Observer.finished costs := by
  induction gap with
  | nil => rfl
  | cons byte gap ih =>
    rw [Observer.feed_cons rfl, Observer.advance_finished, if_pos (hgap byte List.mem_cons_self)]
    exact ih fun other hother ↦ hgap other (List.mem_cons_of_mem _ hother)

/-- The closing brace of the root. -/
theorem feed_root {serde : Serde F64} {frame : Frame} {content : List UInt8}
    {total : Fin 6 → Option F64}
    (hcontent : Stands serde [frame]
      ((Observer.running [Frame.new true []] none fun _ ↦ none).feed serde content) total)
    (hends : frame.ends) (hobject : frame.object = true) :
    (Observer.new : Observer F64).feed serde (openBrace :: (content ++ [closeBrace])) =
      Observer.finished total := by
  have hclose := @Observer.Step.closed F64 frame [] total hends
  rw [hobject] at hclose
  rw [Observer.feed_cons rfl, Observer.advance_new, if_neg (by decide), if_neg (by decide),
    Observer.feed_append, hcontent.feed (by decide),
    show closeBrace = Frame.closeByte true from rfl, Observer.structural_of_step hclose]
  rfl

/-- Assumes: the laws of the parser. An object within the depth bound is read to its end. -/
theorem document_feed {serde : Serde F64} (hserde : serde.Lawful) {value : Value}
    {text : List UInt8} (hdocument : Document value text) (hobject : value.isObject)
    (hdepth : value.depth ≤ 128) :
    (Observer.new : Observer F64).feed serde text =
      Observer.finished (tally serde [] value fun _ ↦ none) := by
  cases hdocument with
  | element hbefore htext hafter =>
    rw [Observer.feed_append, Observer.feed_append, feed_new_gap hbefore]
    cases htext with
    | emptyObject hgap =>
      rw [@feed_root F64 serde (Frame.new true []) _ _ (by rw [feed_gap hgap]; exact .between)
        (.inl rfl) rfl, feed_finished_gap hafter, tally, tallyMembers]
    | object hmembers =>
      rw [Value.depth] at hdepth
      have hcontent := derives_accepted hserde hmembers (Frame.new true []) [] (fun _ ↦ none)
        ⟨rfl, .inr rfl⟩ (by simpa using hdepth)
      rw [feed_root hcontent (.inr (.inr rfl)) rfl, feed_finished_gap hafter, tally]
      rfl
    | _ => cases hobject

/-- The cost of a document: that of the first path that leads to a number which is a cost. -/
def firstCost (serde : Serde F64) (value : Value) : Option F64 :=
  (List.finRange 6).findSome? fun index ↦ costAt serde (costPaths index) value

theorem finish_finished (serde : Serde F64) (costs : Fin 6 → Option F64) :
    (Observer.finished costs).finish serde = Observer.finished costs :=
  rfl

theorem Observer.finish_failed {serde : Serde F64} {observer : Observer F64}
    (hfailed : observer.failed = true) : (observer.finish serde).failed = true := by
  unfold finish
  split
  · next value path htoken =>
    simp only [finishScalar, htoken]
    split_ifs <;> simp [hfailed]
  · simp [hfailed]

/-- Assumes: the laws of the parser. The observer at the end of a body that is an object within the
depth bound. -/
theorem observe_document {serde : Serde F64} (hserde : serde.Lawful) {chunks : List (List UInt8)}
    {value : Value} (hdocument : Document value chunks.flatten) (hobject : value.isObject)
    (hdepth : value.depth ≤ 128) :
    Observer.observe serde chunks = Observer.finished (documentCosts serde value) := by
  rw [Observer.observe, Observer.foldl_feed, document_feed hserde hdocument hobject hdepth,
    finish_finished, tally_document]

theorem cost_document {serde : Serde F64} (hserde : serde.Lawful) {chunks : List (List UInt8)}
    {value : Value} (hdocument : Document value chunks.flatten) (hobject : value.isObject)
    (hdepth : value.depth ≤ 128) :
    (Observer.observe serde chunks).cost = firstCost serde value := by
  rw [observe_document hserde hdocument hobject hdepth]
  rfl

/-- Assumes: the laws of the parser. A body that is not refused is an object within the depth
bound. -/
theorem document_of_observe {serde : Serde F64} (hserde : serde.Lawful)
    {chunks : List (List UInt8)} (hfailed : (Observer.observe serde chunks).failed = false) :
    ∃ value, Document value chunks.flatten ∧ value.isObject ∧ value.depth ≤ 128 := by
  rw [Observer.observe, Observer.foldl_feed] at hfailed
  have hfeed : ((Observer.new : Observer F64).feed serde chunks.flatten).failed = false := by
    cases hcase : ((Observer.new : Observer F64).feed serde chunks.flatten).failed with
    | false => rfl
    | true =>
      rw [Observer.finish_failed hcase] at hfailed
      cases hfailed
  have hreached := reached_feed hserde chunks.flatten (Reached.fresh Skip.nil) hfeed
  obtain ⟨value, hdocument, hobject, hdepth, -⟩ := hreached.document hfailed
  exact ⟨value, hdocument, hobject, hdepth⟩

/-- Assumes: the laws of the parser. For every body and every way of splitting it into chunks, the
observer ends without a failure and done exactly when the body is the text of one object with at
most 128 nested containers, and for every such object the cost that it reports is that of the first
path which leads to a number that is a cost. -/
theorem observer_accepts_grammar (serde : Serde F64) (hserde : serde.Lawful)
    (chunks : List (List UInt8)) :
    ((Observer.observe serde chunks).failed = false ∧ (Observer.observe serde chunks).done = true ↔
        ∃ value, Document value chunks.flatten ∧ value.isObject ∧ value.depth ≤ 128) ∧
      ∀ value, Document value chunks.flatten → value.isObject → value.depth ≤ 128 →
        (Observer.observe serde chunks).cost = firstCost serde value := by
  refine ⟨⟨fun haccepted ↦ document_of_observe hserde haccepted.1, ?_⟩, ?_⟩
  · rintro ⟨value, hdocument, hobject, hdepth⟩
    rw [observe_document hserde hdocument hobject hdepth]
    exact ⟨rfl, rfl⟩
  · intro value hdocument hobject hdepth
    exact cost_document hserde hdocument hobject hdepth

/-! ### A parser that keeps the laws -/

/-- The parser that accepts what it must, over a conversion of literals. -/
noncomputable def Serde.reference (convert : List UInt8 → Option F64) (isPositive : F64 → Bool) :
    Serde F64 where
  fromSlice text := by
    classical
    exact if haccepted : ∃ value, Document value text ∧ value.depth ≤ 127 ∧
        ∀ literal ∈ value.literals, (convert literal.1).isSome then some haccepted.choose
      else none
  fromSliceString text := some (decode text.tail.dropLast)
  convert
  parse := convert
  isFinite _ := true
  isPositive

theorem Serde.reference_lawful (convert : List UInt8 → Option F64) (isPositive : F64 → Bool) :
    (Serde.reference convert isPositive).Lawful where
  fromSlice_sound text value hparse := by
    unfold reference at hparse
    simp only at hparse
    split_ifs at hparse with haccepted
    obtain rfl := Option.some.inj hparse
    exact haccepted.choose_spec
  fromSlice_complete text value hdocument hdepth hrange := by
    unfold reference
    simp only
    rw [dif_pos ⟨value, hdocument, hdepth, hrange⟩]
    rfl
  fromSliceString_body raw hraw := by
    unfold reference
    simp

/-- The conversion of a literal that is a natural number. -/
def naturalNumber (literal : List UInt8) : Option ℕ :=
  if literal.all isDigit then some (decimal literal) else none

theorem body_estimatedCost : Body (ascii "estimated_cost") :=
  body_of_plain (by decide +kernel)

theorem number_one : Number [49] :=
  .mantissa (.integer (.positive (.many rfl (by decide) fun _ hbyte ↦
    absurd hbyte List.not_mem_nil)))

/-- The object of the body `{"estimated_cost":1}`, in two chunks. -/
theorem document_estimatedCost :
    Document (.object [(⟨_, body_estimatedCost⟩, .number ⟨_, number_one⟩)])
      [ascii "\x7b\"estim", ascii "ated_cost\":1\x7d"].flatten := by
  have hdocument := Derives.tight_document
    (.firstMember (.tight_member ⟨_, body_estimatedCost⟩ (.number ⟨_, number_one⟩)))
  have htext : openBrace :: (quote :: (ascii "estimated_cost" ++ quote :: colon :: [49]) ++
      [closeBrace]) = [ascii "\x7b\"estim", ascii "ated_cost\":1\x7d"].flatten := by
    decide +kernel
  rw [← htext]
  exact hdocument

theorem observer_accepts_grammar_split :
    (Observer.observe (Serde.reference naturalNumber fun number ↦ 0 < number)
      [ascii "\x7b\"estim", ascii "ated_cost\":1\x7d"]).cost = some 1 := by
  refine ((observer_accepts_grammar _ (Serde.reference_lawful _ _) _).2 _ document_estimatedCost rfl
    (by decide)).trans ?_
  decide +kernel

end Relayna.ResponseCost

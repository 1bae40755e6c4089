import Relayna.ResponseCost.Tally

/-!
# What the observer has read

The invariant of the observer over the bytes that it was fed. `Held` is the content of a container
that is still open, one case for each thing the container waits for; `Enclosed` is the text before a
value begins, through all containers that are open around it; `Reached` is the whole state. A byte
that does not fail keeps the invariant (`Reached.advance`), so a state that is reached without a
failure stands for a text that is read so far (`reached_feed`), and one that is done for a document
(`Reached.document`).
-/

set_option autoImplicit false
set_option relaxedAutoImplicit false

namespace Relayna.ResponseCost

open Relayna.Library
open Relayna.Library.Json

variable {F64 : Type}

/-! ### Steps between tokens -/

namespace Observer

/-- The observer inside a document. -/
def running (stack : List Frame) (token : Option Token) (costs : Fin 6 → Option F64) :
    Observer F64 where
  stack
  token
  costs
  started := true
  done := false
  failed := false

/-- The observer after a document. -/
def finished (costs : Fin 6 → Option F64) : Observer F64 where
  stack := []
  token := none
  costs
  started := true
  done := true
  failed := false

theorem valuePath_running (frame : Frame) (stack : List Frame) (token : Option Token)
    (costs : Fin 6 → Option F64) :
    (running (frame :: stack) token costs).valuePath =
      frame.take.map fun taken ↦
        (relevant taken.1, running (taken.2 :: stack) token (clear taken.1 costs)) :=
  rfl

end Observer

namespace Frame

/-- A frame that takes the next string as a key. -/
def takesKey (frame : Frame) : Prop :=
  frame.object ∧ (frame.expect = .key ∨ frame.expect = .keyOrEnd)

/-- A frame that can end here. -/
def ends (frame : Frame) : Prop :=
  frame.expect = .keyOrEnd ∨ frame.expect = .valueOrEnd ∨ frame.expect = .commaOrEnd

def openByte (object : Bool) : UInt8 :=
  if object then openBrace else openBracket

/-- The byte that closes a container. -/
def closeByte (object : Bool) : UInt8 :=
  if object then closeBrace else closeBracket

def afterComma (frame : Frame) : Frame :=
  { frame with expect := if frame.object then .key else .value }

theorem not_takesKey_of_take {frame frame' : Frame} {path : Path}
    (htake : frame.take = some (path, frame')) : ¬frame.takesKey := by
  rintro ⟨-, hexpect⟩
  unfold take at htake
  rcases hexpect with hexpect | hexpect <;> rw [hexpect] at htake <;> simp at htake

end Frame

namespace Observer

/-- What a byte between tokens can do inside a document without a failure. -/
inductive Step (frame : Frame) (stack : List Frame) (costs : Fin 6 → Option F64) :
    UInt8 → Observer F64 → Prop
  | gap {byte : UInt8} (hbyte : isWhitespace byte) :
      Step frame stack costs byte (running (frame :: stack) none costs)
  | key (hkey : frame.takesKey) :
      Step frame stack costs quote (running (frame :: stack) (some (.string (.new true))) costs)
  | string {path : Path} {frame' : Frame} (htake : frame.take = some (path, frame')) :
      Step frame stack costs quote
        (running (frame' :: stack) (some (.string (.new false))) (clear path costs))
  | opened {path : Path} {frame' : Frame} (object : Bool)
      (htake : frame.take = some (path, frame')) (hdepth : stack.length + 1 < 128) :
      Step frame stack costs (Frame.openByte object)
        (running (Frame.new object (relevant path) :: frame' :: stack) none (clear path costs))
  | closed (hends : frame.ends) :
      Step frame stack costs (Frame.closeByte frame.object)
        ⟨stack, none, costs, true, stack.isEmpty, false⟩
  | colon (hobject : frame.object) (hexpect : frame.expect = .colon) :
      Step frame stack costs colon
        (running ({ frame with expect := .value } :: stack) none costs)
  | comma (hexpect : frame.expect = .commaOrEnd) :
      Step frame stack costs comma (running (frame.afterComma :: stack) none costs)
  | scalar {byte : UInt8} {path : Path} {frame' : Frame} (hbyte : beginsScalar byte)
      (htake : frame.take = some (path, frame')) :
      Step frame stack costs byte
        (running (frame' :: stack) (some (.scalar (.new byte) (relevant path))) (clear path costs))

/-- `structural` inside a document. -/
theorem structural_running (frame : Frame) (stack : List Frame) (costs : Fin 6 → Option F64)
    (byte : UInt8) :
    (running (frame :: stack) none costs).structural byte =
      if isWhitespace byte then running (frame :: stack) none costs
      else if byte = quote then
        if frame.object ∧ (frame.expect = .key ∨ frame.expect = .keyOrEnd) then
          running (frame :: stack) (some (.string (.new true))) costs
        else
          match frame.take with
          | none => (running (frame :: stack) none costs).fail
          | some (path, frame') =>
            running (frame' :: stack) (some (.string (.new false))) (clear path costs)
      else if byte = openBrace ∨ byte = openBracket then
        match frame.take with
        | none => (running (frame :: stack) none costs).fail
        | some (path, frame') =>
          if 128 ≤ (frame' :: stack).length then
            (running (frame' :: stack) none (clear path costs)).fail
          else
            running (Frame.new (byte = openBrace) (relevant path) :: frame' :: stack) none
              (clear path costs)
      else if byte = closeBrace ∨ byte = closeBracket then
        if frame.object ≠ decide (byte = closeBrace) ∨
            ¬(frame.expect = .keyOrEnd ∨ frame.expect = .valueOrEnd ∨
              frame.expect = .commaOrEnd) then
          (running (frame :: stack) none costs).fail
        else ⟨stack, none, costs, true, stack.isEmpty, false⟩
      else if byte = Json.colon ∧ frame.object ∧ frame.expect = .colon then
        running ({ frame with expect := .value } :: stack) none costs
      else if byte = Json.comma ∧ frame.expect = .commaOrEnd then
        running (frame.afterComma :: stack) none costs
      else if beginsScalar byte then
        match frame.take with
        | none => (running (frame :: stack) none costs).fail
        | some (path, frame') =>
          running (frame' :: stack) (some (.scalar (.new byte) (relevant path))) (clear path costs)
      else (running (frame :: stack) none costs).fail := by
  unfold structural
  simp only [valuePath_running]
  cases frame.take <;> rfl

/-- A byte between tokens that does not fail makes one of the steps. -/
theorem structural_step {frame : Frame} {stack : List Frame} {costs : Fin 6 → Option F64}
    {byte : UInt8}
    (hfailed : ((running (frame :: stack) none costs).structural byte).failed = false) :
    Step frame stack costs byte ((running (frame :: stack) none costs).structural byte) := by
  revert hfailed
  rw [structural_running]
  split_ifs with hgap hquote hkey hopen hclose hmismatch hcolon hcomma hscalar
  · exact fun _ ↦ .gap hgap
  · exact fun _ ↦ hquote ▸ .key hkey
  · cases htake : frame.take with
    | none => exact fun hfailed ↦ by cases hfailed
    | some taken => exact fun _ ↦ hquote ▸ .string htake
  · cases htake : frame.take with
    | none => exact fun hfailed ↦ by cases hfailed
    | some taken =>
      simp only
      split_ifs with hfull
      · exact fun hfailed ↦ by cases hfailed
      · intro _
        rw [List.length_cons, Nat.not_le] at hfull
        have hstep := @Step.opened F64 frame stack costs _ _ (decide (byte = openBrace)) htake hfull
        rcases hopen with rfl | rfl
        · exact hstep
        · exact hstep
  · exact fun hfailed ↦ by cases hfailed
  · intro _
    rw [not_or, not_not, not_not] at hmismatch
    have hstep := @Step.closed F64 frame stack costs hmismatch.2
    rw [Frame.closeByte, hmismatch.1] at hstep
    rcases hclose with rfl | rfl
    · exact hstep
    · exact hstep
  · exact fun _ ↦ hcolon.1 ▸ .colon hcolon.2.1 hcolon.2.2
  · exact fun _ ↦ hcomma.1 ▸ .comma hcomma.2
  · cases htake : frame.take with
    | none => exact fun hfailed ↦ by cases hfailed
    | some taken => exact fun _ ↦ .scalar hscalar htake
  · exact fun hfailed ↦ by cases hfailed

/-- Every step is made. -/
theorem structural_of_step {frame : Frame} {stack : List Frame} {costs : Fin 6 → Option F64}
    {byte : UInt8} {observer : Observer F64} (hstep : Step frame stack costs byte observer) :
    (running (frame :: stack) none costs).structural byte = observer := by
  rw [structural_running]
  cases hstep with
  | gap hbyte => rw [if_pos hbyte]
  | key hkey =>
    unfold Frame.takesKey at hkey
    rw [if_neg (by decide), if_pos rfl, if_pos hkey]
  | string htake =>
    have hkey := Frame.not_takesKey_of_take htake
    unfold Frame.takesKey at hkey
    rw [if_neg (by decide), if_pos rfl, if_neg hkey, htake]
  | @opened path frame' object htake hdepth =>
    rw [htake]
    simp only
    rw [if_neg (by cases object <;> decide), if_neg (by cases object <;> decide),
      if_pos (by cases object <;> decide), if_neg (by rw [List.length_cons]; omega)]
    cases object <;> rfl
  | closed hends =>
    have hall : ∀ object : Bool, ¬isWhitespace (Frame.closeByte object) ∧
        Frame.closeByte object ≠ quote ∧
        ¬(Frame.closeByte object = openBrace ∨ Frame.closeByte object = openBracket) ∧
        (Frame.closeByte object = closeBrace ∨ Frame.closeByte object = closeBracket) ∧
        object = decide (Frame.closeByte object = closeBrace) := by
      decide
    obtain ⟨hgap, hquote, hopen, hclose, hobject⟩ := hall frame.object
    rw [if_neg hgap, if_neg hquote, if_neg hopen, if_pos hclose, if_neg]
    rw [not_or, not_not, not_not]
    exact ⟨hobject, hends⟩
  | colon hobject hexpect =>
    rw [if_neg (by decide), if_neg (by decide), if_neg (by decide), if_neg (by decide),
      if_pos ⟨rfl, hobject, hexpect⟩]
  | comma hexpect =>
    rw [if_neg (by decide), if_neg (by decide), if_neg (by decide), if_neg (by decide),
      if_neg (fun hcolon ↦ absurd hcolon.1 (by decide)), if_pos ⟨rfl, hexpect⟩]
  | @scalar byte path frame' hbyte htake =>
    have hall : ∀ byte : UInt8, beginsScalar byte → isWhitespace byte = false ∧ byte ≠ quote ∧
        ¬(byte = openBrace ∨ byte = openBracket) ∧ ¬(byte = closeBrace ∨ byte = closeBracket) ∧
        byte ≠ Json.colon ∧ byte ≠ Json.comma := by
      intro byte hbyte
      refine ⟨?_, ?_, ?_, ?_, ?_, ?_⟩
      · grind [beginsScalar, isDigit, isWhitespace]
      all_goals grind [beginsScalar, isDigit]
    obtain ⟨hgap, hquote, hopen, hclose, hcolon, hcomma⟩ := hall byte hbyte
    rw [if_neg (by rw [hgap]; decide), if_neg hquote, if_neg hopen, if_neg hclose,
      if_neg (fun hcase ↦ hcolon hcase.1), if_neg (fun hcase ↦ hcomma hcase.1), if_pos hbyte, htake]

end Observer

/-! ### The content of an open container -/

/-- The text before a member: white space, or members and a comma. -/
inductive BeforeMember : List (StringBody × Value) → List UInt8 → Prop
  | first {gap : List UInt8} (hgap : Skip gap) : BeforeMember [] gap
  | next {members : List (StringBody × Value)} {text gap : List UInt8}
      (htext : Derives (.members members) text) (hgap : Skip gap) :
      BeforeMember members (text ++ comma :: gap)

/-- The value that an open container is so far, and the text of its content. -/
inductive Held : Frame → Value → List UInt8 → Prop
  | arrayOpen {path : Path} {gap : List UInt8} (hgap : Skip gap) :
      Held ⟨false, .valueOrEnd, path, none⟩ (.array []) gap
  | arrayNext {path : Path} {elements : List Value} {text gap : List UInt8}
      (htext : Derives (.elements elements) text) (hgap : Skip gap) :
      Held ⟨false, .value, path, none⟩ (.array elements) (text ++ comma :: gap)
  | arrayMore {path : Path} {elements : List Value} {text : List UInt8}
      (htext : Derives (.elements elements) text) :
      Held ⟨false, .commaOrEnd, path, none⟩ (.array elements) text
  | objectOpen {path : Path} {gap : List UInt8} (hgap : Skip gap) :
      Held ⟨true, .keyOrEnd, path, none⟩ (.object []) gap
  | objectNext {path : Path} {members : List (StringBody × Value)} {text gap : List UInt8}
      (htext : Derives (.members members) text) (hgap : Skip gap) :
      Held ⟨true, .key, path, none⟩ (.object members) (text ++ comma :: gap)
  | objectColon {path : Path} {members : List (StringBody × Value)} {raw : StringBody}
      {before gap : List UInt8} (hbefore : BeforeMember members before) (hgap : Skip gap) :
      Held ⟨true, .colon, path, some (keyText raw.1)⟩ (.object members)
        (before ++ quote :: (raw.1 ++ quote :: gap))
  | objectValue {path : Path} {members : List (StringBody × Value)} {raw : StringBody}
      {before between gap : List UInt8} (hbefore : BeforeMember members before)
      (hbetween : Skip between) (hgap : Skip gap) :
      Held ⟨true, .value, path, some (keyText raw.1)⟩ (.object members)
        (before ++ quote :: (raw.1 ++ quote :: (between ++ colon :: gap)))
  | objectMore {path : Path} {members : List (StringBody × Value)} {text : List UInt8}
      (htext : Derives (.members members) text) :
      Held ⟨true, .commaOrEnd, path, none⟩ (.object members) text

theorem BeforeMember.snoc {members : List (StringBody × Value)} {raw : StringBody} {value : Value}
    {before between gap text : List UInt8} (hbefore : BeforeMember members before)
    (hbetween : Skip between) (hgap : Skip gap) (htext : Derives (.value value) text) :
    Derives (.members (members ++ [(raw, value)]))
      (before ++ quote :: (raw.1 ++ quote :: (between ++ colon :: gap)) ++ text) := by
  have helement := Derives.element hgap htext Skip.nil
  rw [List.append_nil] at helement
  cases hbefore with
  | first hfirst =>
    have hmember := @Derives.member raw value _ _ _ hfirst hbetween helement
    simpa using Derives.firstMember hmember
  | next hmembers hnext =>
    have hmember := @Derives.member raw value _ _ _ hnext hbetween helement
    simpa using Derives.nextMember hmembers hmember

/-- White space goes on with the content. -/
theorem Held.gap {frame : Frame} {value : Value} {text : List UInt8} (hheld : Held frame value text)
    {byte : UInt8} (hbyte : isWhitespace byte) : Held frame value (text ++ [byte]) := by
  cases hheld with
  | arrayOpen hgap => exact .arrayOpen (hgap.snoc hbyte)
  | arrayNext htext hgap => simpa using Held.arrayNext htext (hgap.snoc hbyte)
  | arrayMore htext => exact .arrayMore (htext.elements_snoc hbyte)
  | objectOpen hgap => exact .objectOpen (hgap.snoc hbyte)
  | objectNext htext hgap => simpa using Held.objectNext htext (hgap.snoc hbyte)
  | @objectColon _ _ raw _ _ hbefore hgap =>
    simpa using @Held.objectColon _ _ raw _ _ hbefore (hgap.snoc hbyte)
  | @objectValue _ _ raw _ _ _ hbefore hbetween hgap =>
    simpa using @Held.objectValue _ _ raw _ _ _ hbefore hbetween (hgap.snoc hbyte)
  | objectMore htext => exact .objectMore (htext.members_snoc hbyte)

theorem Held.comma {frame : Frame} {value : Value} {text : List UInt8}
    (hheld : Held frame value text) (hexpect : frame.expect = .commaOrEnd) :
    Held frame.afterComma value (text ++ [Json.comma]) := by
  cases hheld with
  | arrayMore htext => exact .arrayNext htext Skip.nil
  | objectMore htext => exact .objectNext htext Skip.nil
  | _ => cases hexpect

theorem Held.colon {frame : Frame} {value : Value} {text : List UInt8}
    (hheld : Held frame value text) (hexpect : frame.expect = .colon) :
    Held { frame with expect := .value } value (text ++ [Json.colon]) := by
  cases hheld with
  | @objectColon _ _ raw _ _ hbefore hgap =>
    simpa using @Held.objectValue _ _ raw _ _ _ hbefore hgap Skip.nil
  | _ => cases hexpect

/-- A key and its closing quote. -/
theorem Held.key {frame : Frame} {value : Value} {text : List UInt8} (hheld : Held frame value text)
    (hkey : frame.takesKey) (raw : StringBody) :
    Held { frame with key := some (keyText raw.1), expect := .colon } value
      (text ++ quote :: (raw.1 ++ [quote])) := by
  cases hheld with
  | objectOpen hgap => exact .objectColon (.first hgap) Skip.nil
  | objectNext htext hgap => exact .objectColon (.next htext hgap) Skip.nil
  | _ => simp [Frame.takesKey] at hkey

/-- The closing bracket or brace ends the value. -/
theorem Held.close {frame : Frame} {value : Value} {text : List UInt8}
    (hheld : Held frame value text) (hends : frame.ends) :
    Derives (.value value)
      (Frame.openByte frame.object :: (text ++ [Frame.closeByte frame.object])) := by
  cases hheld with
  | arrayOpen hgap => exact .emptyArray hgap
  | arrayMore htext => exact .array htext
  | objectOpen hgap => exact .emptyObject hgap
  | objectMore htext => exact .object htext
  | _ => simp [Frame.ends] at hends

theorem Held.isObject {frame : Frame} {value : Value} {text : List UInt8}
    (hheld : Held frame value text) (hobject : frame.object) : value.isObject := by
  cases hheld <;> first | rfl | cases hobject

/-- The container with one more value: its text, its costs and its depth. -/
structure Grows (serde : Serde F64) (frame frame' : Frame) (path : Path) (value : Value)
    (text : List UInt8) (grown : Value → Value) : Prop where
  held : ∀ {child : Value} {childText : List UInt8}, Derives (.value child) childText →
    Held frame' (grown child) (text ++ childText)
  tally_eq : ∀ (child : Value) (costs : Fin 6 → Option F64),
    tally serde frame.path (grown child) costs =
      tally serde (relevant path) child (clear path (tally serde frame.path value costs))
  depth_eq : ∀ child : Value, (grown child).depth = max value.depth (1 + child.depth)
  frame_eq : frame'.path = frame.path ∧ frame'.object = frame.object

/-- A container that takes a value grows by it. -/
theorem Held.take (serde : Serde F64) {frame frame' : Frame} {path : Path} {value : Value}
    {text : List UInt8} (hheld : Held frame value text)
    (htake : frame.take = some (path, frame')) :
    ∃ grown, Grows serde frame frame' path value text grown := by
  have harray {path : Path} {elements : List Value} {text : List UInt8}
      (helements : ∀ {child : Value} {childText : List UInt8}, Derives (.value child) childText →
        Derives (.elements (elements ++ [child])) (text ++ childText)) (expect : Expect) :
      Grows serde ⟨false, expect, path, none⟩ ⟨false, .commaOrEnd, path, none⟩ (path ++ [[]])
        (.array elements) text (fun child ↦ .array (elements ++ [child])) := by
    refine ⟨fun hchild ↦ .arrayMore (helements hchild), fun child costs ↦ ?_, fun child ↦ ?_,
      rfl, rfl⟩
    · rw [tally, tally, tallyElements_snoc]
    · rw [Value.depth, Value.depth, Value.depthElements_snoc]
      omega
  cases hheld with
  | @arrayOpen _ gap hgap =>
    obtain ⟨rfl, rfl⟩ : _ = path ∧ _ = frame' := by simpa [Frame.take] using htake
    refine ⟨_, harray (fun hchild ↦ ?_) _⟩
    have helement := Derives.element hgap hchild Skip.nil
    rw [List.append_nil] at helement
    exact .firstElement helement
  | @arrayNext _ elements text gap htext hgap =>
    obtain ⟨rfl, rfl⟩ : _ = path ∧ _ = frame' := by simpa [Frame.take] using htake
    refine ⟨_, harray (fun hchild ↦ ?_) _⟩
    have helement := Derives.element hgap hchild Skip.nil
    rw [List.append_nil] at helement
    simpa using Derives.nextElement htext helement
  | @objectValue _ members raw before between gap hbefore hbetween hgap =>
    obtain ⟨rfl, rfl⟩ : _ = path ∧ _ = frame' := by simpa [Frame.take] using htake
    refine ⟨fun child ↦ .object (members ++ [(raw, child)]),
      fun hchild ↦ .objectMore (hbefore.snoc hbetween hgap hchild), fun child costs ↦ ?_,
      fun child ↦ ?_, rfl, rfl⟩
    · rw [tally, tally, tallyMembers_snoc]
    · rw [Value.depth, Value.depth, Value.depthMembers_snoc]
      omega
  | _ => simp [Frame.take] at htake

/-! ### The whole state -/

/-- The text before a value that begins inside the containers of the stack, with the path and the
costs there. The frames have taken the value already, and the outermost one is an object. -/
inductive Enclosed (serde : Serde F64) :
    List Frame → Path → List UInt8 → (Fin 6 → Option F64) → Prop
  | root {gap : List UInt8} (hgap : Skip gap) : Enclosed serde [] [] gap (fun _ ↦ none)
  | inner {stack : List Frame} {frame frame' : Frame} {path : Path} {value : Value}
      {text inside : List UInt8} {costs : Fin 6 → Option F64}
      (houter : Enclosed serde stack frame.path text costs) (hheld : Held frame value inside)
      (htake : frame.take = some (path, frame')) (hdepth : stack.length + value.depth ≤ 128)
      (hroot : stack = [] → frame.object) :
      Enclosed serde (frame' :: stack) (relevant path)
        (text ++ Frame.openByte frame.object :: inside)
        (clear path (tally serde frame.path value costs))

/-- The text inside an open container, between two tokens. -/
inductive Opened (serde : Serde F64) (frame : Frame) (stack : List Frame) :
    List UInt8 → (Fin 6 → Option F64) → Prop
  | mk {value : Value} {text inside : List UInt8} {costs : Fin 6 → Option F64}
      (houter : Enclosed serde stack frame.path text costs) (hheld : Held frame value inside)
      (hdepth : stack.length + value.depth ≤ 128) (hroot : stack = [] → frame.object) :
      Opened serde frame stack (text ++ Frame.openByte frame.object :: inside)
        (tally serde frame.path value costs)

/-- The text that was read and the state that it leads to. -/
inductive Reached (serde : Serde F64) : List UInt8 → Observer F64 → Prop
  | fresh {gap : List UInt8} (hgap : Skip gap) : Reached serde gap Observer.new
  | between {frame : Frame} {stack : List Frame} {text : List UInt8}
      {costs : Fin 6 → Option F64} (hopened : Opened serde frame stack text costs) :
      Reached serde text (Observer.running (frame :: stack) none costs)
  | key {frame : Frame} {stack : List Frame} {text raw : List UInt8} {costs : Fin 6 → Option F64}
      {scan : Scan} (hopened : Opened serde frame stack text costs) (hkey : frame.takesKey)
      (hraw : Within scan raw) :
      Reached serde (text ++ quote :: raw)
        (Observer.running (frame :: stack) (some (.string ⟨true, captured raw, scan⟩)) costs)
  | string {frame : Frame} {stack : List Frame} {path : Path} {text raw : List UInt8}
      {costs : Fin 6 → Option F64} {scan : Scan}
      (henclosed : Enclosed serde (frame :: stack) path text costs) (hraw : Within scan raw) :
      Reached serde (text ++ quote :: raw)
        (Observer.running (frame :: stack) (some (.string ⟨false, none, scan⟩)) costs)
  | scalar {frame : Frame} {stack : List Frame} {path : Path} {text rest : List UInt8}
      {first : UInt8} {costs : Fin 6 → Option F64}
      (henclosed : Enclosed serde (frame :: stack) path text costs)
      (hfirst : Observer.beginsScalar first) :
      Reached serde (text ++ first :: rest)
        (Observer.running (frame :: stack)
          (some (.scalar (Scalar.after (first :: rest)) path)) costs)
  | finished {value : Value} {text : List UInt8} (hdocument : Document value text)
      (hobject : value.isObject) (hdepth : value.depth ≤ 128) :
      Reached serde text (Observer.finished (tally serde [] value fun _ ↦ none))

/-- The containers are within the bound. -/
theorem Enclosed.length_le {serde : Serde F64} {stack : List Frame} {path : Path}
    {text : List UInt8} {costs : Fin 6 → Option F64}
    (henclosed : Enclosed serde stack path text costs) : stack.length ≤ 128 := by
  cases henclosed with
  | root => exact Nat.zero_le _
  | @inner stack frame frame' path value text inside costs houter hheld htake hdepth hroot =>
    have hone : 1 ≤ value.depth := by
      cases hheld <;> rw [Value.depth] <;> omega
    rw [List.length_cons]
    omega

/-- A value that ends leaves its container open. -/
theorem Enclosed.opened {serde : Serde F64} {frame : Frame} {stack : List Frame} {path : Path}
    {text childText : List UInt8} {costs : Fin 6 → Option F64} {child : Value}
    (henclosed : Enclosed serde (frame :: stack) path text costs)
    (hchild : Derives (.value child) childText)
    (hdepth : (frame :: stack).length + child.depth ≤ 128) :
    Opened serde frame stack (text ++ childText) (tally serde path child costs) := by
  cases henclosed with
  | @inner _ outer _ taken value before inside costs houter hheld htake hbound hroot =>
    obtain ⟨grown, hgrown⟩ := hheld.take serde htake
    obtain ⟨hpath, hobject⟩ := hgrown.frame_eq
    rw [List.length_cons] at hdepth
    rw [← hgrown.tally_eq child costs, ← hpath, ← hobject]
    have hopened : Opened serde frame stack
        (before ++ Frame.openByte frame.object :: (inside ++ childText))
        (tally serde frame.path (grown child) costs) := by
      refine .mk (hpath ▸ houter) (hgrown.held hchild) ?_ (fun hempty ↦ hobject ▸ hroot hempty)
      rw [hgrown.depth_eq]
      omega
    simpa using hopened

/-- A root value that ends is a document. -/
theorem Enclosed.document {serde : Serde F64} {path : Path} {text childText : List UInt8}
    {costs : Fin 6 → Option F64} {child : Value} (henclosed : Enclosed serde [] path text costs)
    (hchild : Derives (.value child) childText) :
    Document child (text ++ childText) ∧ path = [] ∧ costs = fun _ ↦ none := by
  cases henclosed with
  | root hgap =>
    have helement := Derives.element hgap hchild Skip.nil
    rw [List.append_nil] at helement
    exact ⟨helement, rfl, rfl⟩

theorem Opened.enclosed {serde : Serde F64} {frame frame' : Frame} {stack : List Frame}
    {path : Path} {text : List UInt8} {costs : Fin 6 → Option F64}
    (hopened : Opened serde frame stack text costs) (htake : frame.take = some (path, frame')) :
    Enclosed serde (frame' :: stack) (relevant path) text (clear path costs) := by
  cases hopened with
  | mk houter hheld hdepth hroot => exact .inner houter hheld htake hdepth hroot

/-- Content that goes on without a new value. -/
theorem Opened.extend {serde : Serde F64} {frame frame' : Frame} {stack : List Frame}
    {text more : List UInt8} {costs : Fin 6 → Option F64}
    (hopened : Opened serde frame stack text costs)
    (hheld : ∀ {value : Value} {inside : List UInt8}, Held frame value inside →
      Held frame' value (inside ++ more))
    (hpath : frame'.path = frame.path) (hobject : frame'.object = frame.object) :
    Opened serde frame' stack (text ++ more) costs := by
  cases hopened with
  | @mk value text inside costs houter hinside hdepth hroot =>
    have hextended : Opened serde frame' stack
        (text ++ Frame.openByte frame'.object :: (inside ++ more))
        (tally serde frame'.path value costs) :=
      .mk (hpath ▸ houter) (hheld hinside) hdepth (fun hempty ↦ hobject ▸ hroot hempty)
    rw [hpath, hobject] at hextended
    simpa using hextended

theorem held_new (object : Bool) (path : Path) :
    ∃ value, Held (Frame.new object path) value [] ∧ value.depth = 1 ∧
      ∀ (serde : Serde F64) (costs : Fin 6 → Option F64), tally serde path value costs = costs := by
  cases object with
  | false => exact ⟨.array [], .arrayOpen Skip.nil, rfl, fun _ _ ↦ by rw [tally, tallyElements]⟩
  | true => exact ⟨.object [], .objectOpen Skip.nil, rfl, fun _ _ ↦ by rw [tally, tallyMembers]⟩

/-- A container that opens where a value begins. -/
theorem Enclosed.open {serde : Serde F64} {stack : List Frame} {path : Path} {text : List UInt8}
    {costs : Fin 6 → Option F64} (henclosed : Enclosed serde stack path text costs)
    {object : Bool} (hdepth : stack.length < 128) (hroot : stack = [] → object) :
    Opened serde (Frame.new object path) stack (text ++ [Frame.openByte object]) costs := by
  obtain ⟨value, hheld, hone, htally⟩ := @held_new F64 object path
  have hopened : Opened serde (Frame.new object path) stack
      (text ++ Frame.openByte object :: []) (tally serde path value costs) :=
    .mk henclosed hheld (by omega) hroot
  rwa [htally] at hopened

/-- One byte between tokens. -/
theorem Opened.step {serde : Serde F64} {frame : Frame} {stack : List Frame} {text : List UInt8}
    {costs : Fin 6 → Option F64} {byte : UInt8} {observer : Observer F64}
    (hopened : Opened serde frame stack text costs)
    (hstep : Observer.Step frame stack costs byte observer) :
    Reached serde (text ++ [byte]) observer := by
  cases hstep with
  | gap hbyte => exact .between (hopened.extend (fun hheld ↦ hheld.gap hbyte) rfl rfl)
  | key hkey => exact .key hopened hkey within_base
  | string htake => exact .string (hopened.enclosed htake) within_base
  | opened object htake hdepth =>
    exact .between ((hopened.enclosed htake).open hdepth (fun hempty ↦ by cases hempty))
  | colon hobject hexpect =>
    exact .between (hopened.extend (fun hheld ↦ hheld.colon hexpect) rfl rfl)
  | comma hexpect => exact .between (hopened.extend (fun hheld ↦ hheld.comma hexpect) rfl rfl)
  | scalar hbyte htake => exact .scalar (hopened.enclosed htake) hbyte
  | closed hends =>
    cases hopened with
    | @mk value text inside costs houter hheld hdepth hroot =>
      have hvalue := hheld.close hends
      cases stack with
      | nil =>
        obtain ⟨hdocument, hpath, rfl⟩ := houter.document hvalue
        rw [hpath]
        have hreached := @Reached.finished F64 serde _ _ hdocument (hheld.isObject (hroot rfl))
          (by simpa using hdepth)
        rw [List.append_assoc, List.cons_append]
        exact hreached
      | cons below stack =>
        rw [List.append_assoc, List.cons_append]
        exact .between (houter.opened hvalue hdepth)

/-! ### One byte -/

namespace Observer

/-- Assumes: two observers that have failed. So has the one that is chosen. -/
theorem failed_ite {condition : Prop} [Decidable condition] {chosen other : Observer F64}
    (hchosen : chosen.failed = true) (hother : other.failed = true) :
    (if condition then chosen else other).failed = true := by
  split
  · exact hchosen
  · exact hother

/-- A failure is final. -/
theorem structural_failed {observer : Observer F64} (hfailed : observer.failed = true)
    (byte : UInt8) : (observer.structural byte).failed = true := by
  have hpath {taken : Path × Observer F64} (htaken : observer.valuePath = some taken) :
      taken.2.failed = true := by
    unfold valuePath at htaken
    split at htaken
    · cases htaken
    · obtain ⟨step, -, rfl⟩ := Option.map_eq_some_iff.mp htaken
      exact hfailed
  unfold structural
  -- white space, the start of the document and its end
  refine failed_ite hfailed (failed_ite (failed_ite rfl hfailed) (failed_ite rfl ?_))
  rcases observer.stack with _ | ⟨frame, stack⟩
  · rfl
  rcases htaken : observer.valuePath with _ | taken
  · refine failed_ite (failed_ite hfailed rfl) (failed_ite rfl ?_)
    refine failed_ite (failed_ite rfl hfailed) (failed_ite hfailed (failed_ite hfailed ?_))
    exact failed_ite rfl rfl
  · have hnext := hpath htaken
    refine failed_ite (failed_ite hfailed hnext) (failed_ite (failed_ite rfl hnext) ?_)
    refine failed_ite (failed_ite rfl hfailed) (failed_ite hfailed (failed_ite hfailed ?_))
    exact failed_ite hnext rfl

theorem advance_new (serde : Serde F64) (byte : UInt8) :
    new.advance serde byte =
      if isWhitespace byte then new
      else if byte ≠ openBrace then { new with started := true, failed := true }
      else running [Frame.new true []] none fun _ ↦ none :=
  rfl

theorem advance_running_none (stack : List Frame) (costs : Fin 6 → Option F64) (serde : Serde F64)
    (byte : UInt8) :
    (running stack none costs).advance serde byte = (running stack none costs).structural byte :=
  rfl

theorem advance_finished (costs : Fin 6 → Option F64) (serde : Serde F64) (byte : UInt8) :
    (finished costs).advance serde byte =
      if isWhitespace byte then finished costs else (finished costs).fail :=
  rfl

/-- A byte of a string that does not close it. -/
theorem advance_string {serde : Serde F64} {stack : List Frame} {costs : Fin 6 → Option F64}
    {token : StringToken} {byte : UInt8} {scan : Scan} {failed : Bool}
    (hfeed : token.scan.feed byte = some (scan, failed)) :
    (running stack (some (.string token)) costs).advance serde byte =
      { running stack (some (.string ⟨token.key, StringToken.capture token.raw byte, scan⟩)) costs
        with failed } := by
  simp only [advance, consumeToken, running, hfeed, Bool.false_or]

/-- The byte that closes a string. -/
theorem advance_close {serde : Serde F64} {stack : List Frame} {costs : Fin 6 → Option F64}
    {token : StringToken} {byte : UInt8} (hfeed : token.scan.feed byte = none) :
    (running stack (some (.string token)) costs).advance serde byte =
      (running stack (some (.string token)) costs).closeString serde
        { token with raw := StringToken.capture token.raw byte } := by
  simp only [advance, consumeToken, running, hfeed]

/-- A byte of a scalar that does not end it. -/
theorem advance_scalar {serde : Serde F64} {stack : List Frame} {costs : Fin 6 → Option F64}
    {scalar : Scalar} {path : Path} {byte : UInt8} (hbyte : endsScalar byte = false) :
    (running stack (some (.scalar scalar path)) costs).advance serde byte =
      { running stack (some (.scalar (scalar.feed byte) path)) costs
        with failed := (scalar.feed byte).state = .invalid } := by
  simp only [advance, consumeToken, running, hbyte, Bool.false_eq_true, if_false, Bool.false_or]

/-- The byte after a valid scalar meets the observer with the scalar recorded. -/
theorem advance_endScalar {serde : Serde F64} {stack : List Frame} {costs : Fin 6 → Option F64}
    {scalar : Scalar} {path : Path} {byte : UInt8} (hbyte : endsScalar byte)
    (hvalid : scalar.valid) :
    (running stack (some (.scalar scalar path)) costs).advance serde byte =
      (running stack none (record path (scalar.cost serde) costs)).structural byte := by
  simp only [advance, consumeToken, running, hbyte, if_true, finishScalar, hvalid]

theorem advance_badScalar {serde : Serde F64} {stack : List Frame} {costs : Fin 6 → Option F64}
    {scalar : Scalar} {path : Path} {byte : UInt8} (hbyte : endsScalar byte)
    (hvalid : ¬scalar.valid) :
    ((running stack (some (.scalar scalar path)) costs).advance serde byte).failed = true := by
  simp only [advance, consumeToken, running, hbyte, if_true, finishScalar, hvalid]
  exact structural_failed rfl byte

end Observer

/-- A byte that does not fail keeps the invariant. -/
theorem Reached.advance {serde : Serde F64} (hserde : serde.Lawful) {text : List UInt8}
    {observer : Observer F64} (hreached : Reached serde text observer) {byte : UInt8}
    (hfailed : (observer.advance serde byte).failed = false) :
    Reached serde (text ++ [byte]) (observer.advance serde byte) := by
  cases hreached with
  | fresh hgap =>
    rw [Observer.advance_new] at hfailed ⊢
    split_ifs at hfailed ⊢ with hspace hbrace
    · exact .fresh (hgap.snoc hspace)
    · rw [not_not] at hbrace
      subst hbrace
      exact .between ((Enclosed.root hgap).open (by decide) fun _ ↦ rfl)
  | between hopened => exact hopened.step (Observer.structural_step hfailed)
  | @key frame stack text raw costs scan hopened hkey hraw =>
    rw [List.append_assoc, List.cons_append]
    cases hfeed : scan.feed byte with
    | some next =>
      obtain ⟨scan', failed⟩ := next
      rw [Observer.advance_string hfeed] at hfailed ⊢
      obtain rfl : failed = false := hfailed
      have hreached := Reached.key hopened hkey (hraw.feed hfeed)
      rwa [← capture_captured] at hreached
    | none =>
      obtain ⟨rfl, hbody⟩ := hraw.close hfeed
      rw [Observer.advance_close hfeed]
      have hclose : (Observer.running (frame :: stack) (some (.string ⟨true, captured raw, scan⟩))
          costs).closeString serde ⟨true, StringToken.capture (captured raw) quote, scan⟩ =
          Observer.running ({ frame with key := some (keyText raw), expect := .colon } :: stack)
            none costs := by
        rw [capture_captured, Observer.closeString, if_pos rfl, captured_key hserde hbody]
        rfl
      rw [hclose]
      exact .between (hopened.extend (fun hheld ↦ hheld.key hkey ⟨raw, hbody⟩) rfl rfl)
  | @string frame stack path text raw costs scan henclosed hraw =>
    rw [List.append_assoc, List.cons_append]
    cases hfeed : scan.feed byte with
    | some next =>
      obtain ⟨scan', failed⟩ := next
      rw [Observer.advance_string hfeed] at hfailed ⊢
      obtain rfl : failed = false := hfailed
      exact .string henclosed (hraw.feed hfeed)
    | none =>
      obtain ⟨rfl, hbody⟩ := hraw.close hfeed
      rw [Observer.advance_close hfeed]
      have hopened := henclosed.opened (.string ⟨raw, hbody⟩) henclosed.length_le
      rw [tally] at hopened
      exact .between hopened
  | @scalar frame stack path text rest first costs henclosed hfirst =>
    cases hends : Observer.endsScalar byte with
    | false =>
      rw [Observer.advance_scalar hends] at hfailed ⊢
      rw [show (decide (((Scalar.after (first :: rest)).feed byte).state = .invalid)) = false from
        hfailed, ← Scalar.after_snoc (List.cons_ne_nil _ _), List.append_assoc, List.cons_append]
      exact .scalar henclosed hfirst
    | true =>
      by_cases hvalid : (Scalar.after (first :: rest)).valid
      · obtain ⟨value, hvalue⟩ := Scalar.valid_after hfirst hvalid
        rw [Observer.advance_endScalar hends hvalid, hvalue.cost_after hserde,
          ← tally_scalar serde path hvalue] at hfailed ⊢
        have hopened := henclosed.opened hvalue.derives (by
          rw [hvalue.depth_eq]
          exact henclosed.length_le)
        exact hopened.step (Observer.structural_step hfailed)
      · rw [Observer.advance_badScalar hends hvalid] at hfailed
        cases hfailed
  | @finished value text hdocument hobject hdepth =>
    rw [Observer.advance_finished] at hfailed ⊢
    split_ifs at hfailed ⊢ with hspace
    · exact .finished (hdocument.element_snoc hspace) hobject hdepth
    · cases hfailed

/-! ### Every byte -/

theorem Observer.feed_failed {serde : Serde F64} {observer : Observer F64}
    (hfailed : observer.failed = true) (bytes : List UInt8) :
    observer.feed serde bytes = observer := by
  cases bytes with
  | nil => rfl
  | cons byte bytes => rw [Observer.feed, if_pos hfailed]

theorem Observer.feed_cons {serde : Serde F64} {observer : Observer F64}
    (hfailed : observer.failed = false) (byte : UInt8) (bytes : List UInt8) :
    observer.feed serde (byte :: bytes) = (observer.advance serde byte).feed serde bytes := by
  rw [Observer.feed, if_neg (by rw [hfailed]; exact Bool.false_ne_true)]

theorem Observer.feed_append (serde : Serde F64) (observer : Observer F64)
    (first second : List UInt8) :
    observer.feed serde (first ++ second) = (observer.feed serde first).feed serde second := by
  induction first generalizing observer with
  | nil => rfl
  | cons byte first ih =>
    cases hfailed : observer.failed with
    | true => rw [feed_failed hfailed, feed_failed hfailed, feed_failed hfailed]
    | false => rw [List.cons_append, feed_cons hfailed, feed_cons hfailed, ih]

/-- How a body is split into chunks does not matter. -/
theorem Observer.foldl_feed (serde : Serde F64) (chunks : List (List UInt8))
    (observer : Observer F64) :
    chunks.foldl (feed serde) observer = observer.feed serde chunks.flatten := by
  induction chunks generalizing observer with
  | nil => rfl
  | cons chunk chunks ih => rw [List.foldl_cons, ih, List.flatten_cons, feed_append]

theorem Reached.not_failed {serde : Serde F64} {text : List UInt8} {observer : Observer F64}
    (hreached : Reached serde text observer) : observer.failed = false := by
  cases hreached <;> rfl

/-- Assumes: the laws of the parser. Bytes that do not fail keep the invariant. -/
theorem reached_feed {serde : Serde F64} (hserde : serde.Lawful) (bytes : List UInt8) :
    ∀ {text : List UInt8} {observer : Observer F64}, Reached serde text observer →
      (observer.feed serde bytes).failed = false →
      Reached serde (text ++ bytes) (observer.feed serde bytes) := by
  induction bytes with
  | nil =>
    intro text observer hreached _
    rwa [List.append_nil]
  | cons byte bytes ih =>
    intro text observer hreached hfailed
    rw [Observer.feed_cons hreached.not_failed] at hfailed ⊢
    have hadvance : (observer.advance serde byte).failed = false := by
      cases hstep : (observer.advance serde byte).failed with
      | false => rfl
      | true =>
        rw [Observer.feed_failed hstep, hstep] at hfailed
        cases hfailed
    have hmore := ih (hreached.advance hserde hadvance) hfailed
    rwa [List.append_assoc, List.singleton_append] at hmore

/-- The body is accepted at its end only after a document. -/
theorem Reached.document {serde : Serde F64} {text : List UInt8} {observer : Observer F64}
    (hreached : Reached serde text observer) (hfailed : (observer.finish serde).failed = false) :
    ∃ value, Document value text ∧ value.isObject ∧ value.depth ≤ 128 ∧
      observer = Observer.finished (tally serde [] value fun _ ↦ none) := by
  have hdone : (observer.finish serde).done = observer.done := by
    unfold Observer.finish
    split
    · next value path htoken =>
      simp only [Observer.finishScalar, htoken]
      split_ifs <;> rfl
    · rfl
  have htrue : (observer.finish serde).done = true := by
    cases hcase : (observer.finish serde).done with
    | true => rfl
    | false =>
      rw [Observer.finish] at hfailed hcase
      simp only at hfailed hcase
      rw [hcase] at hfailed
      simp at hfailed
  rw [hdone] at htrue
  cases hreached with
  | finished hdocument hobject hdepth => exact ⟨_, hdocument, hobject, hdepth, rfl⟩
  | _ => cases htrue

end Relayna.ResponseCost

import Mathlib.Data.List.Forall2
import Relayna.ResponseCost.Acceptance
import Relayna.ResponseCost.Bounds

/-!
# The paths of the open containers

Which containers a text leaves open and which keys lead to each is a matter of the grammar
(`Nesting`): a container is open if its content is unfinished, and a container opens where another
one awaits a value. The observer keeps, for each open container, the path of keys to it as long as
the path leads to a cost, and a mark otherwise (`Recorded`). `observer_bounded` says that in every
state the frames are the open containers of the text that was read, and that the memory is bounded.

A byte that fails may still have closed a container, and never opens one, so after a failure the
frames are those of a shorter text.
-/

set_option autoImplicit false
set_option relaxedAutoImplicit false

namespace Relayna.ResponseCost

open Relayna.Library
open Relayna.Library.Json

variable {F64 : Type}

/-! ### Open containers of a text -/

/-- The steps from the root of a document to a value: the text of a key, or none for an element of
an array. -/
abbrev KeyPath := List (Option (List UInt8))

/-- The content of an open container. -/
def Content (object : Bool) (inside : List UInt8) : Prop :=
  ∃ frame value, Held frame value inside ∧ frame.object = object

/-- The content of an open container where its next value begins, and the step to that value. -/
inductive Awaits : Bool → Option (List UInt8) → List UInt8 → Prop
  | firstElement {gap : List UInt8} (hgap : Skip gap) : Awaits false none gap
  | nextElement {elements : List Value} {text gap : List UInt8}
      (htext : Derives (.elements elements) text) (hgap : Skip gap) :
      Awaits false none (text ++ comma :: gap)
  | member {members : List (StringBody × Value)} {raw : StringBody}
      {before between gap : List UInt8} (hbefore : BeforeMember members before)
      (hbetween : Skip between) (hgap : Skip gap) :
      Awaits true (some (decode raw.1))
        (before ++ quote :: (raw.1 ++ quote :: (between ++ colon :: gap)))

/-- The text before a value, with the path to the value and the paths to the containers around it,
the innermost one first. -/
inductive Leads : KeyPath → List KeyPath → List UInt8 → Prop
  | root {gap : List UInt8} (hgap : Skip gap) : Leads [] [] gap
  | inner {path : KeyPath} {paths : List KeyPath} {text inside : List UInt8} {object : Bool}
      {key : Option (List UInt8)} (houter : Leads path paths text)
      (hinside : Awaits object key inside) :
      Leads (path ++ [key]) (path :: paths) (text ++ Frame.openByte object :: inside)

/-- The bytes of numbers and of the words `true`, `false` and `null`. -/
def isScalarByte (byte : UInt8) : Bool :=
  isNumberByte byte || (97 ≤ byte && byte ≤ 122)

/-- A string or a scalar that has begun and may go on, or nothing. -/
inductive Unfinished : List UInt8 → Prop
  | string {scan : Scan} {raw : List UInt8} (hraw : Within scan raw) : Unfinished (quote :: raw)
  | scalar {text : List UInt8} (htext : ∀ byte ∈ text, isScalarByte byte) : Unfinished text

/-- The paths to the containers that a text leaves open, the innermost one first. -/
inductive Nesting : List KeyPath → List UInt8 → Prop
  | before {gap : List UInt8} (hgap : Skip gap) : Nesting [] gap
  | inside {path : KeyPath} {paths : List KeyPath} {text inside token : List UInt8} {object : Bool}
      (houter : Leads path paths text) (hinside : Content object inside)
      (htoken : Unfinished token) :
      Nesting (path :: paths) (text ++ Frame.openByte object :: (inside ++ token))
  | after {value : Value} {text : List UInt8} (hdocument : Document value text) : Nesting [] text

theorem unfinished_nil : Unfinished [] :=
  .scalar fun _ hbyte ↦ absurd hbyte List.not_mem_nil

theorem Awaits.content {object : Bool} {key : Option (List UInt8)} {inside : List UInt8}
    (hinside : Awaits object key inside) : Content object inside := by
  cases hinside with
  | firstElement hgap => exact ⟨_, _, @Held.arrayOpen [] _ hgap, rfl⟩
  | nextElement htext hgap => exact ⟨_, _, @Held.arrayNext [] _ _ _ htext hgap, rfl⟩
  | @member _ raw _ _ _ hbefore hbetween hgap =>
    exact ⟨_, _, @Held.objectValue [] _ raw _ _ _ hbefore hbetween hgap, rfl⟩

/-- The containers around a value are open before it. -/
theorem Leads.nesting {path : KeyPath} {paths : List KeyPath} {text : List UInt8}
    (hleads : Leads path paths text) : Nesting paths text := by
  cases hleads with
  | root hgap => exact .before hgap
  | inner houter hinside =>
    have hnesting := Nesting.inside houter hinside.content unfinished_nil
    rwa [List.append_nil] at hnesting

/-- Before the innermost container opened, the others were open. -/
theorem Nesting.pop {path : KeyPath} {paths : List KeyPath} {text : List UInt8}
    (hnesting : Nesting (path :: paths) text) :
    ∃ before, before <+: text ∧ Nesting paths before := by
  cases hnesting with
  | inside houter hinside htoken => exact ⟨_, List.prefix_append _ _, houter.nesting⟩

/-! ### Recorded paths -/

/-- A path that goes along one of the cost paths. -/
def LeadsToCost (actual : KeyPath) : Prop :=
  ∃ index, actual <+: (costPaths index).map some

/-- What is recorded for the path to a container: the path if it leads to a cost, otherwise the
mark. -/
def Recorded (actual : KeyPath) (path : Path) : Prop :=
  (LeadsToCost actual ∧ actual = path.map some) ∨ (¬LeadsToCost actual ∧ path = [[]])

/-- The key that is recorded for a step: an element of an array and a long key count as empty. -/
inductive KeyOf : Option (List UInt8) → List UInt8 → Prop
  | element : KeyOf none []
  | member (raw : StringBody) : KeyOf (some (decode raw.1)) (keyText raw.1)

theorem recorded_root : Recorded [] [] :=
  .inl ⟨⟨0, List.nil_prefix⟩, rfl⟩

/-- A recorded key is one of a cost path only if the step is. -/
theorem KeyOf.eq_iff {key : Option (List UInt8)} {stored : List UInt8} (hkey : KeyOf key stored)
    {index : Fin 6} {target : List UInt8} (htarget : target ∈ costPaths index) :
    stored = target ↔ key = some target := by
  cases hkey with
  | element =>
    refine iff_of_false (fun hempty ↦ ?_) (Option.some_ne_none target).symm
    exact (costPaths_key index target htarget).1 hempty.symm
  | member raw => rw [keyText_eq_iff htarget raw, Option.some.injEq]

/-- The step to a value inside a container keeps the record. -/
theorem Recorded.step {actual : KeyPath} {path : Path} (hrecorded : Recorded actual path)
    {key : Option (List UInt8)} {stored : List UInt8} (hkey : KeyOf key stored) :
    Recorded (actual ++ [key]) (relevant (path ++ [stored])) := by
  have hforward {index : Fin 6} (hleads : path ++ [stored] <+: costPaths index) :
      actual ++ [key] = (path ++ [stored]).map some := by
    rcases hrecorded with ⟨-, rfl⟩ | ⟨-, rfl⟩
    · have hmem : stored ∈ costPaths index := hleads.subset (by simp)
      rw [(hkey.eq_iff hmem).mp rfl, List.map_append, List.map_singleton]
    · exact absurd rfl (costPaths_key index [] (hleads.subset (by simp))).1
  have hbackward (hleads : LeadsToCost (actual ++ [key])) :
      ∃ index, path ++ [stored] <+: costPaths index := by
    obtain ⟨index, hleads⟩ := hleads
    refine ⟨index, ?_⟩
    rcases hrecorded with ⟨-, rfl⟩ | ⟨hnone, -⟩
    · have hmem : key ∈ (costPaths index).map some := hleads.subset (by simp)
      obtain ⟨target, htarget, rfl⟩ := List.mem_map.mp hmem
      obtain rfl := (hkey.eq_iff htarget).mpr rfl
      rw [← List.map_singleton, ← List.map_append] at hleads
      obtain ⟨initial, hinitial, heq⟩ := List.prefix_map_iff.mp hleads
      rwa [List.map_injective_iff.mpr (Option.some_injective _) heq]
    · exact absurd ⟨index, (List.prefix_append _ _).trans hleads⟩ hnone
  unfold relevant
  split_ifs with hsome
  · obtain ⟨index, hleads⟩ := hsome
    rw [leadsTo_iff] at hleads
    refine .inl ⟨⟨index, ?_⟩, hforward hleads⟩
    rw [hforward hleads]
    exact hleads.map some
  · refine .inr ⟨fun hleads ↦ hsome ?_, rfl⟩
    obtain ⟨index, hleads⟩ := hbackward hleads
    exact ⟨index, (leadsTo_iff _ _).mpr hleads⟩

/-! ### The frames are the open containers -/

/-- The frames are the containers that the text leaves open. -/
def Matched (text : List UInt8) (paths : List Path) : Prop :=
  ∃ actual, Nesting actual text ∧ List.Forall₂ Recorded actual paths

/-- A container that takes a value awaits it. -/
theorem Held.awaits {frame frame' : Frame} {value : Value} {inside : List UInt8} {path : Path}
    (hheld : Held frame value inside) (htake : frame.take = some (path, frame')) :
    ∃ key stored, Awaits frame.object key inside ∧ KeyOf key stored ∧
      path = frame.path ++ [stored] ∧ frame'.path = frame.path ∧
      frame'.object = frame.object := by
  cases hheld with
  | arrayOpen hgap =>
    obtain ⟨rfl, rfl⟩ : _ = path ∧ _ = frame' := by simpa [Frame.take] using htake
    exact ⟨none, [], .firstElement hgap, .element, rfl, rfl, rfl⟩
  | arrayNext htext hgap =>
    obtain ⟨rfl, rfl⟩ : _ = path ∧ _ = frame' := by simpa [Frame.take] using htake
    exact ⟨none, [], .nextElement htext hgap, .element, rfl, rfl, rfl⟩
  | @objectValue _ _ raw _ _ _ hbefore hbetween hgap =>
    obtain ⟨rfl, rfl⟩ : _ = path ∧ _ = frame' := by simpa [Frame.take] using htake
    exact ⟨_, _, .member hbefore hbetween hgap, .member raw, rfl, rfl, rfl⟩
  | _ => simp [Frame.take] at htake

/-- The containers around a value that the observer has entered. -/
theorem Enclosed.leads {serde : Serde F64} {stack : List Frame} {path : Path} {text : List UInt8}
    {costs : Fin 6 → Option F64} (henclosed : Enclosed serde stack path text costs) :
    ∃ actual paths, Leads actual paths text ∧ Recorded actual path ∧
      List.Forall₂ Recorded paths (stack.map Frame.path) := by
  induction henclosed with
  | root hgap => exact ⟨[], [], .root hgap, recorded_root, .nil⟩
  | inner houter hheld htake hdepth hroot ih =>
    obtain ⟨actual, paths, hleads, hrecorded, hpaths⟩ := ih
    obtain ⟨key, stored, hawaits, hkey, rfl, hpath, -⟩ := hheld.awaits htake
    refine ⟨actual ++ [key], actual :: paths, hleads.inner hawaits, hrecorded.step hkey, ?_⟩
    rw [List.map_cons, hpath]
    exact .cons hrecorded hpaths

/-- Assumes: a container with its content and a token that has begun in it. -/
theorem Enclosed.matched {serde : Serde F64} {frame : Frame} {stack : List Frame}
    {text inside token : List UInt8} {costs : Fin 6 → Option F64} {value : Value}
    (houter : Enclosed serde stack frame.path text costs) (hheld : Held frame value inside)
    (htoken : Unfinished token) :
    Matched (text ++ Frame.openByte frame.object :: inside ++ token)
      (frame.path :: stack.map Frame.path) := by
  obtain ⟨actual, paths, hleads, hrecorded, hpaths⟩ := houter.leads
  refine ⟨actual :: paths, ?_, .cons hrecorded hpaths⟩
  rw [List.append_assoc, List.cons_append]
  exact .inside hleads ⟨frame, value, hheld, rfl⟩ htoken

theorem Opened.matched {serde : Serde F64} {frame : Frame} {stack : List Frame}
    {text token : List UInt8} {costs : Fin 6 → Option F64}
    (hopened : Opened serde frame stack text costs) (htoken : Unfinished token) :
    Matched (text ++ token) (frame.path :: stack.map Frame.path) := by
  cases hopened with
  | mk houter hheld hdepth hroot => exact houter.matched hheld htoken

/-- The frame on top has taken the value whose token has begun. -/
theorem Enclosed.matched_token {serde : Serde F64} {frame : Frame} {stack : List Frame}
    {path : Path} {text token : List UInt8} {costs : Fin 6 → Option F64}
    (henclosed : Enclosed serde (frame :: stack) path text costs) (htoken : Unfinished token) :
    Matched (text ++ token) (frame.path :: stack.map Frame.path) := by
  cases henclosed with
  | inner houter hheld htake hdepth hroot =>
    obtain ⟨-, -, -, -, -, hpath, -⟩ := hheld.awaits htake
    rw [hpath]
    exact houter.matched hheld htoken

/-! ### Scalars that have not failed -/

theorem Scalar.bytes_of_foldl {text : List UInt8}
    (hvalid : text.foldl ScalarState.next .start ≠ .invalid) :
    ∀ byte ∈ text, isNumberByte byte := by
  induction text using List.reverseRecOn with
  | nil => exact fun _ hbyte ↦ absurd hbyte List.not_mem_nil
  | append_singleton text last ih =>
    rw [List.foldl_append, List.foldl_cons, List.foldl_nil] at hvalid
    have hbefore : text.foldl ScalarState.next .start ≠ .invalid := by
      intro hinvalid
      rw [hinvalid] at hvalid
      exact hvalid rfl
    rw [List.forall_mem_append]
    refine ⟨ih hbefore, fun byte hbyte ↦ ?_⟩
    rw [List.mem_singleton.mp hbyte]
    rcases next_cases _ last hvalid with ⟨hdigit, -⟩ | ⟨rfl, -⟩ | ⟨hmark, -⟩ |
      ⟨rfl | rfl, -⟩ | ⟨rfl, -⟩
    · exact isNumberByte_of_isDigit hdigit
    · rfl
    · exact isNumberByte_of_isExponentMark hmark
    · rfl
    · rfl
    · rfl

/-- A scalar that has not failed has read bytes of scalars. -/
theorem Scalar.bytes_after {first : UInt8} {rest : List UInt8}
    (hvalid : (after (first :: rest)).state ≠ .invalid) :
    ∀ byte ∈ first :: rest, isScalarByte byte := by
  intro byte hbyte
  change ((first :: rest).foldl feed (blank first)).state ≠ _ at hvalid
  by_cases hliteral : literalOf first = []
  · rw [(foldl_fixed hliteral (first :: rest)).2.1] at hvalid
    unfold isScalarByte
    rw [bytes_of_foldl hvalid byte hbyte, Bool.true_or]
  · have hword := ((foldl_word hliteral (first :: rest)).2.2 hvalid).subset hbyte
    have hall : (literalOf first).all isScalarByte = true := by
      unfold literalOf
      split_ifs <;> rfl
    exact List.all_eq_true.mp hall byte hword

/-- The scalar that is being read has not failed. -/
def Observer.Alive (observer : Observer F64) : Prop :=
  ∀ value path, observer.token = some (.scalar value path) → value.state ≠ .invalid

theorem Observer.alive_of_none {observer : Observer F64} (htoken : observer.token = none) :
    observer.Alive := by
  intro value path hscalar
  rw [htoken] at hscalar
  cases hscalar

theorem Observer.alive_structural {observer : Observer F64} (htoken : observer.token = none)
    (byte : UInt8) : (observer.structural byte).Alive := by
  have hnew : ∀ byte : UInt8, beginsScalar byte → (Scalar.new byte).state ≠ .invalid := by
    decide +kernel
  rcases (structural_moves observer byte).token with hkept | ⟨key, hstring⟩ |
    ⟨hbegins, path, hscalar⟩
  · exact alive_of_none (hkept.trans htoken)
  · intro value path hvalue
    rw [hstring] at hvalue
    cases hvalue
  · intro value path hvalue
    rw [hscalar] at hvalue
    obtain ⟨rfl, -⟩ := Token.scalar.inj (Option.some.inj hvalue)
    exact hnew byte hbegins

/-- A byte that does not fail leaves the scalar unfailed. -/
theorem Observer.alive_advance {serde : Serde F64} {observer : Observer F64} {byte : UInt8}
    (hfailed : (observer.advance serde byte).failed = false) :
    (observer.advance serde byte).Alive := by
  rcases htoken : observer.token with _ | token | ⟨scalar, path⟩
  · have hadvance : observer.advance serde byte = observer.structural byte := by
      unfold advance consumeToken
      rw [htoken]
    rw [hadvance]
    exact alive_structural htoken byte
  · cases hfeed : token.scan.feed byte with
    | none =>
      have hadvance : observer.advance serde byte = observer.closeString serde
          { token with raw := StringToken.capture token.raw byte } := by
        simp only [advance, consumeToken, htoken, hfeed]
      rw [hadvance]
      exact alive_of_none (closeString_closes serde observer _).token
    | some next =>
      intro value path hvalue
      simp only [advance, consumeToken, htoken, hfeed] at hvalue
      cases hvalue
  · cases hends : endsScalar byte with
    | true =>
      have hadvance : observer.advance serde byte =
          (observer.finishScalar serde).structural byte := by
        simp only [advance, consumeToken, htoken, hends, if_true]
      rw [hadvance]
      exact alive_structural (finishScalar_closes serde observer).token byte
    | false =>
      have hadvance : observer.advance serde byte =
          { observer with
            token := some (.scalar (scalar.feed byte) path)
            failed := observer.failed || (scalar.feed byte).state = .invalid } := by
        simp only [advance, consumeToken, htoken, hends, Bool.false_eq_true, if_false]
      rw [hadvance] at hfailed ⊢
      intro value _ hvalue
      obtain ⟨rfl, -⟩ := Token.scalar.inj (Option.some.inj hvalue)
      exact of_decide_eq_false (Bool.or_eq_false_iff.mp hfailed).2

/-- The frames of a state that has not failed are the open containers of what was read. -/
theorem Reached.matched {serde : Serde F64} {text : List UInt8} {observer : Observer F64}
    (hreached : Reached serde text observer) (halive : observer.Alive) :
    Matched text observer.paths := by
  cases hreached with
  | fresh hgap => exact ⟨[], .before hgap, .nil⟩
  | between hopened =>
    have hmatched := hopened.matched unfinished_nil
    rwa [List.append_nil] at hmatched
  | key hopened hkey hraw => exact hopened.matched (.string hraw)
  | string henclosed hraw => exact henclosed.matched_token (.string hraw)
  | scalar henclosed hfirst =>
    exact henclosed.matched_token (.scalar (Scalar.bytes_after (halive _ _ rfl)))
  | finished hdocument hobject hdepth => exact ⟨[], .after hdocument, .nil⟩

/-! ### Every state -/

/-- What is known of an observer that was fed these bytes: it has read them all, or it has failed
and its frames are those of a text before the failure. -/
inductive Tracked (serde : Serde F64) (bytes : List UInt8) (observer : Observer F64) : Prop
  | live (hreached : Reached serde bytes observer) (halive : observer.Alive)
  | failed {text : List UInt8} (hfailed : observer.failed = true) (htext : text <+: bytes)
      (hmatched : Matched text observer.paths)

section Tracked

variable {serde : Serde F64} {bytes : List UInt8} {observer : Observer F64}

/-- The containers after the innermost one has ended were open before. -/
theorem Matched.pop {text : List UInt8} {path : Path} {paths : List Path}
    (hmatched : Matched text (path :: paths)) :
    ∃ before, before <+: text ∧ Matched before paths := by
  obtain ⟨actual, hnesting, hrecorded⟩ := hmatched
  cases hrecorded with
  | cons hfirst hrest =>
    obtain ⟨before, hbefore, hnesting⟩ := hnesting.pop
    exact ⟨before, hbefore, _, hnesting, hrest⟩

/-- Assumes: the laws of the parser. One byte. -/
theorem Tracked.advance (hserde : serde.Lawful) (hreached : Reached serde bytes observer)
    (halive : observer.Alive) (byte : UInt8) :
    Tracked serde (bytes ++ [byte]) (observer.advance serde byte) := by
  cases hfailed : (observer.advance serde byte).failed with
  | false => exact .live (hreached.advance hserde hfailed) (Observer.alive_advance hfailed)
  | true =>
    have hmatched := hreached.matched halive
    rcases Observer.advance_shift serde observer byte with hkept | ⟨path, hpopped⟩ |
      ⟨path, -, -, -, hsame⟩
    · exact .failed hfailed (List.prefix_append _ _) (hkept ▸ hmatched)
    · rw [hpopped] at hmatched
      obtain ⟨before, hbefore, hmatched⟩ := hmatched.pop
      exact .failed hfailed (hbefore.trans (List.prefix_append _ _)) hmatched
    · rw [hsame, hreached.not_failed] at hfailed
      cases hfailed

/-- Assumes: the laws of the parser. The bytes of a chunk. -/
theorem Tracked.feed (hserde : serde.Lawful) (htracked : Tracked serde bytes observer)
    (chunk : List UInt8) : Tracked serde (bytes ++ chunk) (observer.feed serde chunk) := by
  induction chunk generalizing bytes observer with
  | nil => rwa [List.append_nil]
  | cons byte chunk ih =>
    cases htracked with
    | live hreached halive =>
      rw [Observer.feed_cons hreached.not_failed]
      have hmore := ih (.advance hserde hreached halive byte)
      rwa [List.append_assoc, List.singleton_append] at hmore
    | failed hfailed htext hmatched =>
      rw [Observer.feed_failed hfailed]
      exact .failed hfailed (htext.trans (List.prefix_append _ _)) hmatched

/-- The end leaves the containers and a failure. -/
theorem Observer.finish_fixed (serde : Serde F64) (observer : Observer F64) :
    (observer.finish serde).paths = observer.paths ∧
      (observer.failed = true → (observer.finish serde).failed = true) := by
  constructor
  · unfold finish
    split
    · exact (finishScalar_closes serde observer).paths
    · rfl
  · intro hfailed
    have hscalar : (observer.finishScalar serde).failed = true := by
      unfold finishScalar
      split
      · split_ifs
        · exact hfailed
        · rfl
      · exact hfailed
    unfold finish
    split
    · exact Bool.or_eq_true_iff.mpr (.inl hscalar)
    · exact Bool.or_eq_true_iff.mpr (.inl hfailed)

theorem Tracked.finish (htracked : Tracked serde bytes observer) :
    Tracked serde bytes (observer.finish serde) := by
  obtain ⟨hpaths, hstays⟩ := Observer.finish_fixed serde observer
  cases htracked with
  | live hreached halive =>
    cases hfailed : (observer.finish serde).failed with
    | false =>
      -- only an observer that is done does not fail here, and it stays as it is
      obtain ⟨value, -, -, -, rfl⟩ := hreached.document hfailed
      exact .live hreached halive
    | true =>
      exact .failed hfailed List.prefix_rfl (hpaths ▸ hreached.matched halive)
  | failed hfailed htext hmatched =>
    exact .failed (hstays hfailed) htext (hpaths ▸ hmatched)

end Tracked

/-- Assumes: the laws of the parser. The states that calls lead to. -/
theorem tracked_run {serde : Serde F64} (hserde : serde.Lawful) (calls : List Call) :
    Tracked serde (calls.flatMap Call.bytes) (Observer.run serde calls) := by
  induction calls using List.reverseRecOn with
  | nil => exact .live (.fresh Skip.nil) (Observer.alive_of_none rfl)
  | append_singleton calls last ih =>
    rw [Observer.run_snoc, List.flatMap_append, List.flatMap_singleton]
    cases last with
    | feed chunk => exact ih.feed hserde chunk
    | finish =>
      rw [Call.bytes, List.append_nil]
      exact ih.finish

/-- Assumes: the laws of the parser. In every state that calls of `feed` and `finish` lead to, the
observer is within its bounds, and its frames are the containers that a beginning of the body
leaves open, the whole body unless the observer has failed. The path of each frame is the path of
keys from the root to its container if that leads to a cost, otherwise the mark. -/
theorem observer_bounded (serde : Serde F64) (hserde : serde.Lawful) (calls : List Call) :
    (Observer.run serde calls).Bounded ∧
      ∃ text actual, text <+: calls.flatMap Call.bytes ∧
        ((Observer.run serde calls).failed = false → text = calls.flatMap Call.bytes) ∧
        Nesting actual text ∧
        List.Forall₂ (fun path (frame : Frame) ↦ Recorded path frame.path) actual
          (Observer.run serde calls).stack := by
  refine ⟨Observer.bounded_run serde calls, ?_⟩
  cases tracked_run hserde calls with
  | live hreached halive =>
    obtain ⟨actual, hnesting, hrecorded⟩ := hreached.matched halive
    exact ⟨_, actual, List.prefix_rfl, fun _ ↦ rfl, hnesting,
      List.forall₂_map_right_iff.mp hrecorded⟩
  | @failed text hfailed htext hmatched =>
    obtain ⟨actual, hnesting, hrecorded⟩ := hmatched
    refine ⟨text, actual, htext, fun hfalse ↦ ?_, hnesting,
      List.forall₂_map_right_iff.mp hrecorded⟩
    rw [hfailed] at hfalse
    cases hfalse

/-- A body in two chunks that opens an object in an array under `usage`. -/
def detailCalls : List Call :=
  [.feed (ascii "\x7b\"usage\":\x7b\"co"), .feed (ascii "st\":1,\"details\":[\x7b")]

theorem observer_bounded_details :
    let serde := Serde.reference naturalNumber fun number ↦ 0 < number
    (Observer.run serde detailCalls).paths = [[[]], [[]], [ascii "usage"], []] ∧
      (Observer.run serde detailCalls).Bounded ∧
      ∃ text actual, text <+: detailCalls.flatMap Call.bytes ∧
        ((Observer.run serde detailCalls).failed = false →
          text = detailCalls.flatMap Call.bytes) ∧
        Nesting actual text ∧
        List.Forall₂ (fun path (frame : Frame) ↦ Recorded path frame.path) actual
          (Observer.run serde detailCalls).stack :=
  ⟨by decide +kernel, observer_bounded _ (Serde.reference_lawful _ _) detailCalls⟩

end Relayna.ResponseCost

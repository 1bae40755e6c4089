import Mathlib.Algebra.Ring.Nat
import Relayna.Guardrails.Redaction

/-!
# Redaction of streamed responses

`apply_streaming_guardrails` of `crates/gateway-proxy/src/pingora_plane.rs` redacts a streamed
response chunk by chunk. Each call appends its chunk to the text held back so far, releases all but
the last 65 characters, and redacts what it releases; the last call releases the rest. So the text
is redacted in pieces, cut at points that depend on the chunks alone (`emitted_eq`).

The pieces come out as the whole text does where no pass over the text loses an item or a number at
a cut (`streamed_redaction`). They do not in general: an address that a release point cuts is sent
in clear (`address_sent_in_clear`). A chunk that is no text on its own is dropped, and the response
is then never that of the whole text.
-/

set_option autoImplicit false
set_option relaxedAutoImplicit false

namespace Relayna.Guardrails

open Library.RunRewriting Library.Utf8

/-! ### The code -/

/-- `std::str::from_utf8`. -/
def fromUtf8 (chunk : List UInt8) : Option (List Char) :=
  decode chunk

/-- The guardrails that a plan runs during a call. `execute` is that of the executor for the
definitions of the request, on a response that is a text: it fails, or returns the context and the
response, which may be no text. -/
structure Executor (Plan Context Error : Type*) where
  execute : Plan → Context → List Char → Except Error (Context × Option (List Char))
  guardrailUnavailable : Error

/-- The guardrails of a plan leave a text unchanged. -/
def Executor.LeavesText {Plan Context Error : Type*} (executor : Executor Plan Context Error)
    (plan : Plan) : Prop :=
  ∀ context text, ∃ next, executor.execute plan context text = .ok (next, some text)

/-- What `apply_streaming_guardrails` uses of the context of a request. -/
structure PingoraContext (Plan Context Error : Type*) where
  guardrailStreamHoldback : List Char
  guardrailError : Option Error
  duringGuardrailPlan : Option Plan
  guardrailContext : Option Context

/-- `char_indices().rev().nth(count)`, as the number of the characters before it. -/
def charFromEnd (text : List Char) (count : ℕ) : Option ℕ :=
  if count < text.length then some (text.length - (count + 1)) else none

/-- The characters that a call releases. -/
def splitAt (combined : List Char) (endOfStream : Bool) : ℕ :=
  if endOfStream then combined.length
  else if (encode combined).length ≤ 64 then 0
  else (charFromEnd combined 64).getD 0

section Code

variable {Plan Context Error : Type*}

/-- `apply_streaming_guardrails`: the body that it leaves, and the context. -/
def applyStreamingGuardrails (executor : Executor Plan Context Error) (body : Option (List UInt8))
    (endOfStream : Bool) (ctx : PingoraContext Plan Context Error) :
    Option (List UInt8) × PingoraContext Plan Context Error :=
  match body with
  | none =>
    if endOfStream && !ctx.guardrailStreamHoldback.isEmpty then
      (some (encode (redactPiiText ctx.guardrailStreamHoldback)),
        { ctx with guardrailStreamHoldback := [] })
    else (none, ctx)
  | some chunk =>
    match fromUtf8 chunk with
    | none => (some [], { ctx with guardrailError := some executor.guardrailUnavailable })
    | some text =>
      let combined := ctx.guardrailStreamHoldback ++ text
      let released := splitAt combined endOfStream
      let held := { ctx with guardrailStreamHoldback := combined.drop released }
      let redacted := redactPiiText (combined.take released)
      match ctx.duringGuardrailPlan, ctx.guardrailContext with
      | some plan, some context =>
        match executor.execute plan context redacted with
        | .ok (next, response) =>
          (some (encode (response.getD [])), { held with guardrailContext := some next })
        | .error error => (some [], { held with guardrailError := some error })
      | _, _ => (some (encode redacted), held)

/-- The bodies that a run of calls emits, one after the other. -/
def emitted (executor : Executor Plan Context Error) :
    List (Option (List UInt8) × Bool) → PingoraContext Plan Context Error → List UInt8
  | [], _ => []
  | (body, endOfStream) :: calls, ctx =>
    (applyStreamingGuardrails executor body endOfStream ctx).1.getD [] ++
      emitted executor calls (applyStreamingGuardrails executor body endOfStream ctx).2

end Code

/-- Where a stream has its end-of-stream flag. -/
inductive Ending
  | onLastChunk
  | onFinalCall
  deriving DecidableEq

/-- The chunks that are not flagged. -/
def Ending.unflagged (ending : Ending) (chunks : List (List UInt8)) : List (List UInt8) :=
  match ending with
  | .onLastChunk => chunks.dropLast
  | .onFinalCall => chunks

/-- The calls for the chunks of a response. -/
def Ending.calls (ending : Ending) (chunks : List (List UInt8)) :
    List (Option (List UInt8) × Bool) :=
  (ending.unflagged chunks).map (fun chunk ↦ (some chunk, false)) ++
    match ending with
    | .onLastChunk => chunks.getLast?.toList.map fun chunk ↦ (some chunk, true)
    | .onFinalCall => [(none, true)]

/-! ### Release points -/

/-- How many characters are released after each chunk: all that have been received but 65. -/
def releasePoints (received : ℕ) : List (List UInt8) → List ℕ
  | [] => []
  | chunk :: rest =>
    let total := received + ((fromUtf8 chunk).getD []).length
    (total - 65) :: releasePoints total rest

/-- A text cut at points. `start` is the point at which it begins. -/
def cutAt (start : ℕ) : List ℕ → List Char → List (List Char)
  | [], text => [text]
  | point :: points, text =>
    text.take (point - start) :: cutAt point points (text.drop (point - start))

/-- The pieces in which a response is redacted. -/
def pieces (ending : Ending) (chunks : List (List UInt8)) (text : List Char) : List (List Char) :=
  cutAt 0 (releasePoints 0 (ending.unflagged chunks)) text

/-- The chunks of a response are texts, and its release points lose no item and no number of any
pass. A pass goes over what the passes before it have left of the pieces. -/
structure SafelyCut (ending : Ending) (chunks : List (List UInt8)) (text : List Char) : Prop where
  valid : ∀ chunk ∈ chunks, (fromUtf8 chunk).isSome
  email : (pass .email).KeepsCuts (pieces ending chunks text)
  ssn : (pass .ssn).KeepsCuts ((pieces ending chunks text).map (redactTokens .email))
  phone : (pass .phone).KeepsCuts
    (((pieces ending chunks text).map (redactTokens .email)).map (redactTokens .ssn))

theorem flatten_cutAt (points : List ℕ) (start : ℕ) (text : List Char) :
    (cutAt start points text).flatten = text := by
  induction points generalizing start text with
  | nil => exact List.flatten_singleton
  | cons point rest ih =>
    rw [cutAt, List.flatten_cons, ih, List.take_append_drop]

/-- Assumes: cuts that keep the runs and the numbers of a pass. It may be made piece by piece. -/
theorem flatten_map_redactTokens {kind : PiiKind} {pieces : List (List Char)}
    (hkeeps : (pass kind).KeepsCuts pieces) :
    (pieces.map (redactTokens kind)).flatten = redactTokens kind pieces.flatten := by
  rw [redactTokens_eq, ← flatten_map_rewrite hkeeps]
  congr 1
  apply List.map_congr_left
  intro piece _
  exact redactTokens_eq kind piece

/-- Assumes: a response that is safely cut. Its pieces are redacted to the whole. -/
theorem SafelyCut.flatten_map {ending : Ending} {chunks : List (List UInt8)} {text : List Char}
    (hsafe : SafelyCut ending chunks text) :
    ((pieces ending chunks text).map redactPiiText).flatten = redactPiiText text := by
  have hpasses : (pieces ending chunks text).map redactPiiText =
      (((pieces ending chunks text).map (redactTokens .email)).map (redactTokens .ssn)).map
        (redactTokens .phone) := by
    rw [List.map_map, List.map_map]
    rfl
  rw [hpasses, flatten_map_redactTokens hsafe.phone, flatten_map_redactTokens hsafe.ssn,
    flatten_map_redactTokens hsafe.email, pieces, flatten_cutAt]
  rfl

/-! ### Runs -/

section Runs

variable {Plan Context Error : Type*} {executor : Executor Plan Context Error} {plan : Plan}

/-- An unflagged call releases all but 65 characters. -/
theorem splitAt_unflagged (combined : List Char) : splitAt combined false =
    combined.length - 65 := by
  have hbytes : combined.length ≤ (encode combined).length := by
    induction combined with
    | nil => exact Nat.le_refl 0
    | cons character rest ih =>
      have hsize : 0 < (String.utf8EncodeChar character).length := by
        rw [String.length_utf8EncodeChar]
        exact Char.utf8Size_pos character
      have hcons : encode (character :: rest) = String.utf8EncodeChar character ++
        encode rest := rfl
      rw [hcons, List.length_append, List.length_cons]
      omega
  rw [splitAt, if_neg (by decide)]
  split_ifs with hshort
  · omega
  · rw [charFromEnd]
    split_ifs
    · rfl
    · exact (Nat.sub_eq_zero_of_le (by omega)).symm

theorem splitAt_flagged (combined : List Char) : splitAt combined true = combined.length :=
  if_pos rfl

/-- A call on a chunk that is a text. Assumes: guardrails that leave a text unchanged. -/
theorem applyStreamingGuardrails_text (hleaves : executor.LeavesText plan)
    {ctx : PingoraContext Plan Context Error} (hplan : ctx.duringGuardrailPlan = some plan)
    {chunk : List UInt8} {text : List Char} (htext : fromUtf8 chunk = some text)
    (endOfStream : Bool) {combined : List Char}
    (hcombined : combined = ctx.guardrailStreamHoldback ++ text) :
    (applyStreamingGuardrails executor (some chunk) endOfStream ctx).1 =
        some (encode (redactPiiText (combined.take (splitAt combined endOfStream)))) ∧
      (applyStreamingGuardrails executor (some chunk) endOfStream ctx).2.guardrailStreamHoldback =
        combined.drop (splitAt combined endOfStream) ∧
      (applyStreamingGuardrails executor (some chunk) endOfStream ctx).2.duringGuardrailPlan =
        some plan := by
  subst hcombined
  rw [applyStreamingGuardrails]
  dsimp only
  rw [htext]
  dsimp only
  cases hcontext : ctx.guardrailContext with
  | none =>
    rw [hplan]
    exact ⟨rfl, rfl, rfl⟩
  | some context =>
    obtain ⟨next, hnext⟩ := hleaves context
      (redactPiiText ((ctx.guardrailStreamHoldback ++ text).take
        (splitAt (ctx.guardrailStreamHoldback ++ text) endOfStream)))
    rw [hplan]
    dsimp only
    rw [hnext]
    exact ⟨rfl, rfl, rfl⟩

/-- The calls at the end of a stream release what is held back and the last characters. -/
def Closes (executor : Executor Plan Context Error) (plan : Plan)
    (calls : List (Option (List UInt8) × Bool)) (last : List Char) : Prop :=
  ∀ ctx : PingoraContext Plan Context Error, ctx.duringGuardrailPlan = some plan →
    emitted executor calls ctx = encode (redactPiiText (ctx.guardrailStreamHoldback ++ last))

theorem closes_final : Closes executor plan [(none, true)] [] := by
  intro ctx _
  rw [emitted, emitted, List.append_nil, List.append_nil, applyStreamingGuardrails]
  cases hholdback : ctx.guardrailStreamHoldback with
  | nil => rfl
  | cons character rest => rfl

theorem closes_chunk (hleaves : executor.LeavesText plan) {chunk : List UInt8} {text : List Char}
    (htext : fromUtf8 chunk = some text) : Closes executor plan [(some chunk, true)] text := by
  intro ctx hplan
  obtain ⟨hbody, -, -⟩ := applyStreamingGuardrails_text hleaves hplan htext true rfl
  rw [emitted, emitted, List.append_nil, hbody, splitAt_flagged, List.take_length]
  rfl

/-- Assumes: chunks that are texts, and a holdback of all that has been received but what has been
released. The chunks and the calls at the end emit the pieces of the text. The induction is on the
chunks, for the text that is held back. -/
theorem emitted_chunks (hleaves : executor.LeavesText plan)
    {calls : List (Option (List UInt8) × Bool)} {last : List Char}
    (hcloses : Closes executor plan calls last) {chunks : List (List UInt8)}
    (hvalid : ∀ chunk ∈ chunks, (fromUtf8 chunk).isSome)
    {ctx : PingoraContext Plan Context Error} (hplan : ctx.duringGuardrailPlan = some plan)
    {received : ℕ} (hheld : ctx.guardrailStreamHoldback.length = received - (received - 65)) :
    emitted executor (chunks.map (fun chunk ↦ (some chunk, false)) ++ calls) ctx =
      encode ((cutAt (received - 65) (releasePoints received chunks)
        (ctx.guardrailStreamHoldback ++ (chunks.map fun chunk ↦ (fromUtf8 chunk).getD []).flatten ++
          last)).map redactPiiText).flatten := by
  induction chunks generalizing ctx received with
  | nil =>
    rw [List.map_nil, List.nil_append, hcloses ctx hplan]
    simp [releasePoints, cutAt]
  | cons chunk rest ih =>
    obtain ⟨text, htext⟩ := Option.isSome_iff_exists.mp (hvalid chunk List.mem_cons_self)
    obtain ⟨combined, hcombined⟩ : ∃ combined, combined = ctx.guardrailStreamHoldback ++ text :=
      ⟨_, rfl⟩
    obtain ⟨hbody, hnext, hkept⟩ :=
      applyStreamingGuardrails_text hleaves hplan htext false hcombined
    have hlength : combined.length = received - (received - 65) + text.length := by
      rw [hcombined, List.length_append, hheld]
    have hpoint : splitAt combined false = received + text.length - 65 - (received - 65) := by
      rw [splitAt_unflagged, hlength]
      omega
    rw [hpoint] at hbody hnext
    have hle : received + text.length - 65 - (received - 65) ≤ combined.length := by
      rw [hlength]
      omega
    have hheld' : (applyStreamingGuardrails executor (some chunk) false
        ctx).2.guardrailStreamHoldback.length =
        received + text.length - (received + text.length - 65) := by
      rw [hnext, List.length_drop, hlength]
      omega
    have hrest := ih (fun other hother ↦
      hvalid other (List.mem_cons_of_mem chunk hother)) hkept hheld'
    have hsplit : ctx.guardrailStreamHoldback ++
        ((chunk :: rest).map fun chunk ↦ (fromUtf8 chunk).getD []).flatten ++ last =
        combined ++ ((rest.map fun chunk ↦ (fromUtf8 chunk).getD []).flatten ++ last) := by
      rw [hcombined, List.map_cons, htext, List.flatten_cons]
      simp only [Option.getD_some, List.append_assoc]
    rw [List.map_cons, List.cons_append, emitted, hbody, hrest, hnext, hsplit, releasePoints, htext,
      cutAt]
    dsimp only [Option.getD_some]
    rw [List.take_append_of_le_length hle, List.drop_append_of_le_length hle, List.map_cons,
      List.flatten_cons, encode_append, List.append_assoc]

/-- Chunks that are texts are the texts of the response. -/
theorem flatten_map_fromUtf8 {chunks : List (List UInt8)} {text : List Char}
    (hvalid : ∀ chunk ∈ chunks, (fromUtf8 chunk).isSome) (htext : chunks.flatten = encode text) :
    (chunks.map fun chunk ↦ (fromUtf8 chunk).getD []).flatten = text := by
  have hencode : encode (chunks.map fun chunk ↦ (fromUtf8 chunk).getD []).flatten =
      chunks.flatten := by
    clear htext
    induction chunks with
    | nil => rfl
    | cons chunk rest ih =>
      obtain ⟨part, hpart⟩ := Option.isSome_iff_exists.mp (hvalid chunk List.mem_cons_self)
      rw [List.map_cons, List.flatten_cons, List.flatten_cons, encode_append, hpart,
        Option.getD_some, ← eq_encode_of_decode hpart,
        ih fun other hother ↦ hvalid other (List.mem_cons_of_mem chunk hother)]
  have hdecode := congrArg decode (hencode.trans htext)
  rw [decode_encode, decode_encode] at hdecode
  exact Option.some.inj hdecode

/-- Assumes: chunks that are texts. A stream emits the pieces of its text, redacted one by one. -/
theorem emitted_eq (hleaves : executor.LeavesText plan) {ctx : PingoraContext Plan Context Error}
    (hplan : ctx.duringGuardrailPlan = some plan) (hholdback : ctx.guardrailStreamHoldback = [])
    (ending : Ending) {chunks : List (List UInt8)} {text : List Char}
    (hvalid : ∀ chunk ∈ chunks, (fromUtf8 chunk).isSome) (htext : chunks.flatten = encode text) :
    emitted executor (ending.calls chunks) ctx =
      encode ((pieces ending chunks text).map redactPiiText).flatten := by
  have hheld : ctx.guardrailStreamHoldback.length = 0 - (0 - 65) := by
    rw [hholdback]
    rfl
  have hwhole := flatten_map_fromUtf8 hvalid htext
  cases ending with
  | onFinalCall =>
    have hrun := emitted_chunks hleaves closes_final hvalid hplan hheld
    rw [hholdback, hwhole, List.nil_append, List.append_nil] at hrun
    exact hrun
  | onLastChunk =>
    rcases List.eq_nil_or_concat chunks with rfl | ⟨first, last, rfl⟩
    · rw [← hwhole]
      rfl
    · obtain ⟨part, hpart⟩ := Option.isSome_iff_exists.mp (hvalid last (by simp))
      have hfirst : ∀ chunk ∈ first, (fromUtf8 chunk).isSome := fun chunk hchunk ↦
        hvalid chunk (by simp [hchunk])
      have hrun := emitted_chunks hleaves (closes_chunk hleaves hpart) hfirst hplan hheld
      rw [List.concat_eq_append, List.map_append, List.flatten_append, List.map_singleton,
        List.flatten_singleton, hpart, Option.getD_some] at hwhole
      rw [hholdback, List.nil_append, hwhole] at hrun
      have hunflagged : Ending.onLastChunk.unflagged (first.concat last) = first := by
        rw [List.concat_eq_append]
        exact List.dropLast_concat
      have hcalls : Ending.onLastChunk.calls (first.concat last) =
          first.map (fun chunk ↦ (some chunk, false)) ++ [(some last, true)] := by
        rw [Ending.calls, hunflagged, List.concat_eq_append]
        simp
      rw [hcalls, hrun, pieces, hunflagged]

/-! ### Chunks that are no texts -/

/-- The bytes outside ASCII that a call takes in. -/
def takenIn : Option (List UInt8) → ℕ
  | none => 0
  | some chunk => if (fromUtf8 chunk).isSome then highBytes chunk else 0

theorem highBytes_redactPiiText (text : List Char) :
    highBytes (encode (redactPiiText text)) = highBytes (encode text) := by
  rw [highBytes_encode, redactPiiText_filter, ← highBytes_encode]

/-- No call makes up bytes outside ASCII: those that it emits and holds back have been taken in. -/
theorem highBytes_applyStreamingGuardrails (hleaves : executor.LeavesText plan)
    {ctx : PingoraContext Plan Context Error} (hplan : ctx.duringGuardrailPlan = some plan)
    (body : Option (List UInt8)) (endOfStream : Bool) :
    highBytes ((applyStreamingGuardrails executor body endOfStream ctx).1.getD []) +
          highBytes (encode
            (applyStreamingGuardrails executor body endOfStream ctx).2.guardrailStreamHoldback) =
        highBytes (encode ctx.guardrailStreamHoldback) + takenIn body ∧
      (applyStreamingGuardrails executor body endOfStream ctx).2.duringGuardrailPlan =
        some plan := by
  cases body with
  | none =>
    rw [applyStreamingGuardrails]
    split_ifs
    · exact ⟨highBytes_redactPiiText _, hplan⟩
    · exact ⟨Nat.zero_add _, hplan⟩
  | some chunk =>
    cases hdecode : fromUtf8 chunk with
    | none =>
      rw [applyStreamingGuardrails, takenIn]
      dsimp only
      rw [hdecode]
      exact ⟨Nat.zero_add _, hplan⟩
    | some text =>
      obtain ⟨hbody, hnext, hkept⟩ :=
        applyStreamingGuardrails_text hleaves hplan hdecode endOfStream rfl
      refine ⟨?_, hkept⟩
      rw [hbody, hnext, Option.getD_some, highBytes_redactPiiText, ← highBytes_append,
        ← encode_append, List.take_append_drop, encode_append, highBytes_append, takenIn, hdecode,
        if_pos Option.isSome_some, ← eq_encode_of_decode hdecode]

theorem highBytes_emitted_le (hleaves : executor.LeavesText plan)
    (calls : List (Option (List UInt8) × Bool)) {ctx : PingoraContext Plan Context Error}
    (hplan : ctx.duringGuardrailPlan = some plan) :
    highBytes (emitted executor calls ctx) ≤
      highBytes (encode ctx.guardrailStreamHoldback) + (calls.map fun call ↦
        takenIn call.1).sum := by
  induction calls generalizing ctx with
  | nil => exact Nat.zero_le _
  | cons call rest ih =>
    obtain ⟨hcall, hkept⟩ := highBytes_applyStreamingGuardrails hleaves hplan call.1 call.2
    have hrest := ih hkept
    rw [emitted, highBytes_append, List.map_cons, List.sum_cons]
    omega

theorem sum_takenIn_calls (ending : Ending) (chunks : List (List UInt8)) :
    ((ending.calls chunks).map fun call ↦ takenIn call.1).sum =
      (chunks.map fun chunk ↦ takenIn (some chunk)).sum := by
  cases ending with
  | onFinalCall =>
    rw [Ending.calls, Ending.unflagged, List.map_append, List.sum_append, List.map_map]
    rfl
  | onLastChunk =>
    rw [Ending.calls, Ending.unflagged]
    rcases List.eq_nil_or_concat chunks with rfl | ⟨first, last, rfl⟩
    · rfl
    · rw [List.concat_eq_append, List.dropLast_concat, List.getLast?_concat, List.map_append,
        List.sum_append, List.map_map, List.map_append, List.sum_append]
      rfl

theorem sum_takenIn_le (chunks : List (List UInt8)) :
    (chunks.map fun chunk ↦ takenIn (some chunk)).sum ≤ highBytes chunks.flatten ∧
      (highBytes chunks.flatten ≤ (chunks.map fun chunk ↦ takenIn (some chunk)).sum →
        ∀ chunk ∈ chunks, (fromUtf8 chunk).isSome) := by
  induction chunks with
  | nil => exact ⟨Nat.zero_le _, nofun⟩
  | cons chunk rest ih =>
    obtain ⟨hle, hvalid⟩ := ih
    have hchunk : takenIn (some chunk) ≤ highBytes chunk := by
      rw [takenIn]
      split_ifs
      · exact Nat.le_refl _
      · exact Nat.zero_le _
    rw [List.map_cons, List.sum_cons, List.flatten_cons, highBytes_append]
    refine ⟨Nat.add_le_add hchunk hle, fun hall other hother ↦ ?_⟩
    rcases List.mem_cons.mp hother with rfl | hmem
    · by_contra hinvalid
      rw [takenIn, if_neg hinvalid] at hall
      exact hinvalid (decode_of_highBytes_eq_zero (by omega))
    · exact hvalid (by omega) other hmem

/-- Assumes: the response of a stream to be that of its whole text. Every chunk is a text. -/
theorem fromUtf8_of_emitted_eq (hleaves : executor.LeavesText plan)
    {ctx : PingoraContext Plan Context Error} (hplan : ctx.duringGuardrailPlan = some plan)
    (hholdback : ctx.guardrailStreamHoldback = []) {ending : Ending} {chunks : List (List UInt8)}
    {text : List Char} (htext : chunks.flatten = encode text)
    (hemitted : emitted executor (ending.calls chunks) ctx = encode (redactPiiText text)) :
    ∀ chunk ∈ chunks, (fromUtf8 chunk).isSome := by
  apply (sum_takenIn_le chunks).2
  have hle := highBytes_emitted_le hleaves (ending.calls chunks) hplan
  rw [hemitted, highBytes_redactPiiText, ← htext, sum_takenIn_calls, hholdback, encode_nil] at hle
  have hnone : highBytes [] = 0 := rfl
  omega

end Runs

/-! ### The response of a stream -/

/-- Assumes: a response that begins with nothing held back, and guardrails that leave a text
unchanged. For every text, however its bytes are cut into chunks, the bodies that the stream emits
are the redaction of the whole text if it is safely cut; and they never are if a chunk is no text on
its own. -/
theorem streamed_redaction {Plan Context Error : Type*} (executor : Executor Plan Context Error)
    (plan : Plan) (hleaves : executor.LeavesText plan) (ctx : PingoraContext Plan Context Error)
    (hplan : ctx.duringGuardrailPlan = some plan) (hholdback : ctx.guardrailStreamHoldback = [])
    (ending : Ending) (chunks : List (List UInt8)) (text : List Char)
    (htext : chunks.flatten = encode text) :
    (SafelyCut ending chunks text →
        emitted executor (ending.calls chunks) ctx = encode (redactPiiText text)) ∧
      (emitted executor (ending.calls chunks) ctx = encode (redactPiiText text) →
        ∀ chunk ∈ chunks, (fromUtf8 chunk).isSome) := by
  constructor
  · intro hsafe
    rw [emitted_eq hleaves hplan hholdback ending hsafe.valid htext, hsafe.flatten_map]
  · intro hemitted
    exact fromUtf8_of_emitted_eq hleaves hplan hholdback htext hemitted

/-- Guardrails that leave every text unchanged. -/
def unchanged : Executor Unit Unit Unit where
  execute := fun _ context text ↦ .ok (context, some text)
  guardrailUnavailable := ()

/-- A context at the start of a response. -/
def atStart : PingoraContext Unit Unit Unit where
  guardrailStreamHoldback := []
  guardrailError := none
  duringGuardrailPlan := some ()
  guardrailContext := some ()

/-- An e-mail address. -/
def address : List Char :=
  ['a', 'l', 'i', 'c', 'e', '@', 'e', 'x', 'a', 'm', 'p', 'l', 'e', '.', 'c', 'o', 'm']

theorem unchanged_leavesText : unchanged.LeavesText () :=
  fun context _ ↦ ⟨context, rfl⟩

/-- An address with a holdback after it, in two chunks. The release point lies after the address. -/
theorem streamed_redaction_address :
    emitted unchanged (Ending.onLastChunk.calls
        [encode (address ++ List.replicate 70 ' '), encode ('é' :: List.replicate 10 ' ')])
          atStart =
      encode (redactPiiText
        (address ++ List.replicate 70 ' ' ++ 'é' :: List.replicate 10 ' ')) := by
  refine (streamed_redaction unchanged () unchanged_leavesText atStart rfl rfl _ _ _ ?_).1 ?_
  · rw [List.flatten_cons, List.flatten_singleton, encode_append (address ++ _)]
  · constructor
    · decide
    · decide
    · decide +kernel
    · decide +kernel

/-- An address that is not yet followed by a holdback is cut, and sent in clear. -/
theorem address_sent_in_clear :
    unchanged.LeavesText () ∧
      emitted unchanged (Ending.onFinalCall.calls [encode (address ++ List.replicate 53 ' ')])
          atStart = encode (address ++ List.replicate 53 ' ') ∧
      emitted unchanged (Ending.onFinalCall.calls [encode (address ++ List.replicate 53 ' ')])
          atStart ≠ encode (redactPiiText (address ++ List.replicate 53 ' ')) := by
  refine ⟨unchanged_leavesText, ?_, ?_⟩
  · decide +kernel
  · decide

end Relayna.Guardrails

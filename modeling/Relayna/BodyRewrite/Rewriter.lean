import Relayna.Library.GrowingBuffer
import Relayna.Library.MachineWord

/-!
# The bounded body buffer

`BoundedBodyRewriter` of `crates/gateway-proxy/src/body_rewrite.rs` collects the chunks of a body up
to a maximum. The expected length of the body guides the allocation: the capacity doubles, up to the
expected length, and up to the maximum once a chunk has passed it.

`next_capacity` announces the capacity of the next append, and the body admission charges memory by
it. Whatever the hint, an append succeeds exactly if the body stays within the maximum, and it
reserves what has been announced (`buffer_exact`).
-/

set_option autoImplicit false
set_option relaxedAutoImplicit false

namespace Relayna.BodyRewrite

open Library.GrowingBuffer Library.MachineWord

/-- The errors of this component. -/
inductive GatewayError
  | requestBodyTooLarge
  | responseBodyTooLarge
  | gatewayOverloaded
  | invalidGuardrailRequest
  | invalidConfiguration
  deriving DecidableEq

structure BoundedBodyRewriter where
  maxBytes : Word 64
  allocationHint : ℕ
  expectedLength : Option ℕ
  buffer : Buffer UInt8

namespace BoundedBodyRewriter

/-- `BoundedBodyRewriter::new`. -/
def new (maxBytes : Word 64) : BoundedBodyRewriter where
  maxBytes := maxBytes
  allocationHint := maxBytes.val
  expectedLength := none
  buffer := .empty

def withExpectedLength (rewriter : BoundedBodyRewriter) (expectedLength : Option (Word 64)) :
    BoundedBodyRewriter :=
  { rewriter with
    expectedLength := expectedLength.map fun length ↦ min length.val rewriter.maxBytes.val
    allocationHint :=
      min ((expectedLength.map Fin.val).getD rewriter.maxBytes.val) rewriter.maxBytes.val }

def nextCapacity (rewriter : BoundedBodyRewriter) (additionalBytes : ℕ) : Except GatewayError ℕ :=
  match (checkedAdd 64 rewriter.buffer.length additionalBytes).filter
      (· ≤ rewriter.maxBytes.val) with
  | none => .error .requestBodyTooLarge
  | some length =>
    if length ≤ rewriter.buffer.capacity then .ok rewriter.buffer.capacity
    else
      let hint := if rewriter.allocationHint < length then rewriter.maxBytes.val
        else rewriter.allocationHint
      .ok (min (max (saturatingMul 64 rewriter.buffer.capacity 2) length) hint)

/-- `append_chunk`: its result, and what it leaves, also when it fails. -/
def appendChunk (allocator : Allocator) (rewriter : BoundedBodyRewriter)
    (body : Option (List UInt8)) : Except GatewayError Unit × BoundedBodyRewriter :=
  match body with
  | none => (.ok (), rewriter)
  | some chunk =>
    match rewriter.nextCapacity chunk.length with
    | .error error => (.error error, rewriter)
    | .ok capacity =>
      let nextLen := saturatingAdd 64 rewriter.buffer.length chunk.length
      if rewriter.maxBytes.val < nextLen then (.error .requestBodyTooLarge, rewriter)
      else
        let hinted := { rewriter with
          allocationHint := if rewriter.allocationHint < nextLen then rewriter.maxBytes.val
            else rewriter.allocationHint }
        let reserved :=
          if rewriter.buffer.capacity < nextLen then
            rewriter.buffer.tryReserveExact allocator
              (wrappingSub 64 capacity rewriter.buffer.length)
          else some rewriter.buffer
        match reserved with
        | none => (.error .gatewayOverloaded, hinted)
        | some buffer => (.ok (), { hinted with buffer := buffer.extend chunk })

/-- The rewriter after a sequence of chunks, each appended if it can be. -/
def after (rewriter : BoundedBodyRewriter) (chunks : List (Option (List UInt8))) :
    BoundedBodyRewriter :=
  chunks.foldl (fun rewriter chunk ↦ (rewriter.appendChunk .exact chunk).2) rewriter

/-- The chunks of a sequence whose append succeeds. -/
def accepted (rewriter : BoundedBodyRewriter) : List (Option (List UInt8)) → List (List UInt8)
  | [] => []
  | chunk :: rest =>
    match rewriter.appendChunk .exact chunk with
    | (.ok _, next) => chunk.toList ++ next.accepted rest
    | (.error _, next) => next.accepted rest

/-! ### One append -/

/-- The capacity and the hint of a rewriter are within its maximum. -/
structure Bounded (rewriter : BoundedBodyRewriter) : Prop where
  capacity_le : rewriter.buffer.capacity ≤ rewriter.maxBytes.val
  hint_le : rewriter.allocationHint ≤ rewriter.maxBytes.val

variable {rewriter : BoundedBodyRewriter}

theorem length_le (hbounded : rewriter.Bounded) :
    rewriter.buffer.length ≤ rewriter.maxBytes.val :=
  le_trans rewriter.buffer.length_le hbounded.capacity_le

/-- The capacity that is announced for a length within the maximum. -/
def announced (rewriter : BoundedBodyRewriter) (length : ℕ) : ℕ :=
  if length ≤ rewriter.buffer.capacity then rewriter.buffer.capacity
  else min (max (saturatingMul 64 rewriter.buffer.capacity 2) length)
    (if rewriter.allocationHint < length then rewriter.maxBytes.val else rewriter.allocationHint)

/-- A capacity is announced exactly for a body within the maximum. -/
theorem nextCapacity_eq (rewriter : BoundedBodyRewriter) (additionalBytes : ℕ) :
    rewriter.nextCapacity additionalBytes =
      if rewriter.buffer.length + additionalBytes ≤ rewriter.maxBytes.val then
        .ok (rewriter.announced (rewriter.buffer.length + additionalBytes))
      else .error .requestBodyTooLarge := by
  have hmax := rewriter.maxBytes.isLt
  unfold nextCapacity announced
  by_cases hfits : rewriter.buffer.length + additionalBytes ≤ rewriter.maxBytes.val
  · have hsum : checkedAdd 64 rewriter.buffer.length additionalBytes =
        some (rewriter.buffer.length + additionalBytes) :=
      checkedAdd_eq_some.mpr ⟨rfl, by omega⟩
    rw [hsum, Option.filter_some, if_pos (decide_eq_true hfits), if_pos hfits]
    dsimp only
    split_ifs
    · rfl
    · rfl
    · rfl
  · have hnone : (checkedAdd 64 rewriter.buffer.length additionalBytes).filter
        (· ≤ rewriter.maxBytes.val) = none := by
      rw [Option.filter_eq_none_iff]
      intro length hlength
      obtain ⟨rfl, -⟩ := checkedAdd_eq_some.mp hlength
      simpa using hfits
    rw [hnone, if_neg hfits]

/-- What is announced covers the length and is within the maximum. -/
theorem announced_bounds (hbounded : rewriter.Bounded) {length : ℕ}
    (hlength : length ≤ rewriter.maxBytes.val) :
    length ≤ rewriter.announced length ∧ rewriter.buffer.capacity ≤ rewriter.announced length ∧
      rewriter.announced length ≤ rewriter.maxBytes.val := by
  have hcapacity := hbounded.capacity_le
  have hhint := hbounded.hint_le
  unfold announced
  generalize saturatingMul 64 rewriter.buffer.capacity 2 = doubled
  split_ifs with hroom hpast
  · exact ⟨hroom, le_refl _, hcapacity⟩
  · omega
  · omega

/-- An append of a chunk, in one case distinction: it succeeds exactly within the maximum, and then
has the announced capacity. -/
theorem appendChunk_some (hbounded : rewriter.Bounded) (chunk : List UInt8) :
    if rewriter.buffer.length + chunk.length ≤ rewriter.maxBytes.val then
      ∃ next, rewriter.appendChunk .exact (some chunk) = (.ok (), next) ∧
        next.maxBytes = rewriter.maxBytes ∧ next.allocationHint ≤ rewriter.maxBytes.val ∧
        next.buffer.items = rewriter.buffer.items ++ chunk ∧
        next.buffer.capacity = rewriter.announced (rewriter.buffer.length + chunk.length)
    else rewriter.appendChunk .exact (some chunk) = (.error .requestBodyTooLarge, rewriter) := by
  have hmax := rewriter.maxBytes.isLt
  split_ifs with hfits
  · obtain ⟨hcovers, hgrows, hle⟩ := announced_bounds hbounded hfits
    have hnext : saturatingAdd 64 rewriter.buffer.length chunk.length =
        rewriter.buffer.length + chunk.length := saturatingAdd_of_lt (by omega)
    have hhinted : (if rewriter.allocationHint < rewriter.buffer.length + chunk.length then
        rewriter.maxBytes.val else rewriter.allocationHint) ≤ rewriter.maxBytes.val := by
      split_ifs
      · exact le_refl _
      · exact hbounded.hint_le
    unfold appendChunk
    dsimp only
    rw [nextCapacity_eq, if_pos hfits]
    dsimp only
    rw [hnext, if_neg (Nat.not_lt.mpr hfits)]
    by_cases hroom : rewriter.buffer.length + chunk.length ≤ rewriter.buffer.capacity
    · rw [if_neg (Nat.not_lt.mpr hroom)]
      refine ⟨_, rfl, rfl, hhinted, rfl, ?_⟩
      rw [announced, if_pos hroom]
      exact capacity_extend hroom
    · have hlength : rewriter.buffer.length ≤ rewriter.buffer.capacity :=
        rewriter.buffer.length_le
      have hneeds : wrappingSub 64
          (rewriter.announced (rewriter.buffer.length + chunk.length)) rewriter.buffer.length =
          rewriter.announced (rewriter.buffer.length + chunk.length) - rewriter.buffer.length :=
        wrappingSub_of_le (by omega) (by omega)
      have hlt : rewriter.buffer.capacity <
          rewriter.announced (rewriter.buffer.length + chunk.length) := by
        omega
      obtain ⟨hle', hreserved⟩ := tryReserveExact_exact hlt
      rw [if_pos (Nat.lt_of_not_le hroom), hneeds, hreserved]
      refine ⟨_, rfl, rfl, hhinted, rfl, ?_⟩
      exact capacity_extend hcovers
  · unfold appendChunk
    dsimp only
    rw [nextCapacity_eq, if_neg hfits]

/-! ### Every sequence of appends -/

theorem bounded_new (maxBytes : Word 64) (expectedLength : Option (Word 64)) :
    ((new maxBytes).withExpectedLength expectedLength).Bounded where
  capacity_le := Nat.zero_le _
  hint_le := Nat.min_le_right _ _

theorem bounded_appendChunk (hbounded : rewriter.Bounded) (body : Option (List UInt8)) :
    (rewriter.appendChunk .exact body).2.Bounded ∧
      (rewriter.appendChunk .exact body).2.maxBytes = rewriter.maxBytes := by
  cases body with
  | none => exact ⟨hbounded, rfl⟩
  | some chunk =>
    have happend := appendChunk_some hbounded chunk
    split_ifs at happend with hfits
    · obtain ⟨next, hnext, hmax, hhint, -, hcapacity⟩ := happend
      rw [hnext]
      refine ⟨⟨?_, ?_⟩, hmax⟩
      · rw [hcapacity, hmax]
        exact (announced_bounds hbounded hfits).2.2
      · rw [hmax]
        exact hhint
    · rw [happend]
      exact ⟨hbounded, rfl⟩

theorem bounded_after (chunks : List (Option (List UInt8))) (hbounded : rewriter.Bounded) :
    (rewriter.after chunks).Bounded ∧ (rewriter.after chunks).maxBytes = rewriter.maxBytes := by
  induction chunks generalizing rewriter with
  | nil => exact ⟨hbounded, rfl⟩
  | cons chunk rest ih =>
    obtain ⟨hnext, hmax⟩ := bounded_appendChunk hbounded chunk
    obtain ⟨hrest, hsame⟩ := ih hnext
    exact ⟨hrest, hsame.trans hmax⟩

/-- The buffer holds the accepted chunks, one after the other. -/
theorem items_after (chunks : List (Option (List UInt8))) (hbounded : rewriter.Bounded) :
    (rewriter.after chunks).buffer.items =
      rewriter.buffer.items ++ (rewriter.accepted chunks).flatten := by
  induction chunks generalizing rewriter with
  | nil => exact (List.append_nil _).symm
  | cons body rest ih =>
    have hrest := ih (bounded_appendChunk hbounded body).1
    change ((rewriter.appendChunk .exact body).2.after rest).buffer.items = _
    rw [hrest, accepted]
    cases body with
    | none => rfl
    | some chunk =>
      have happend := appendChunk_some hbounded chunk
      split_ifs at happend with hfits
      · obtain ⟨next, hnext, -, -, hitems, -⟩ := happend
        rw [hnext]
        dsimp only
        rw [hitems, Option.toList_some, List.singleton_append, List.flatten_cons,
          List.append_assoc]
      · rw [happend]

end BoundedBodyRewriter

open BoundedBodyRewriter in
/-- For every maximum, every expected length and every sequence of chunks, with an allocator that
grants exactly what it is asked for: the buffer is the concatenation of the accepted chunks; the
append of a further chunk succeeds if and only if these and the chunk are within the maximum; it
then has the capacity that `next_capacity` has announced, which covers the new length and is within
the maximum; a failed append leaves the rewriter as it was; and an announced capacity is never less
than the length of the buffer. -/
theorem buffer_exact (maxBytes : Word 64) (expectedLength : Option (Word 64))
    (chunks : List (Option (List UInt8))) (chunk : List UInt8) :
    let start := (new maxBytes).withExpectedLength expectedLength
    let rewriter := start.after chunks
    rewriter.buffer.items = (start.accepted chunks).flatten ∧
      ((rewriter.appendChunk .exact (some chunk)).1 = .ok () ↔
        (start.accepted chunks).flatten.length + chunk.length ≤ maxBytes.val) ∧
      ((rewriter.appendChunk .exact (some chunk)).1 = .ok () →
        (rewriter.appendChunk .exact (some chunk)).2.buffer.items =
            rewriter.buffer.items ++ chunk ∧
          rewriter.nextCapacity chunk.length =
            .ok (rewriter.appendChunk .exact (some chunk)).2.buffer.capacity ∧
          rewriter.buffer.length + chunk.length ≤
            (rewriter.appendChunk .exact (some chunk)).2.buffer.capacity ∧
          (rewriter.appendChunk .exact (some chunk)).2.buffer.capacity ≤ maxBytes.val) ∧
      ((rewriter.appendChunk .exact (some chunk)).1 ≠ .ok () →
        (rewriter.appendChunk .exact (some chunk)).2 = rewriter) ∧
      ∀ capacity, rewriter.nextCapacity chunk.length = .ok capacity →
        rewriter.buffer.length ≤ capacity := by
  intro start rewriter
  obtain ⟨hbounded, hmax⟩ := bounded_after chunks (bounded_new maxBytes expectedLength)
  have hitems : rewriter.buffer.items = (start.accepted chunks).flatten :=
    items_after chunks (bounded_new maxBytes expectedLength)
  have hmaxBytes : rewriter.maxBytes = maxBytes := hmax
  have hlength : (start.accepted chunks).flatten.length = rewriter.buffer.length :=
    (congrArg List.length hitems).symm
  have happend := appendChunk_some hbounded chunk
  have hnextCapacity := nextCapacity_eq rewriter chunk.length
  rw [hlength, ← hmaxBytes]
  refine ⟨hitems, ?_⟩
  split_ifs at happend with hfits
  · obtain ⟨next, hnext, -, -, hextended, hcapacity⟩ := happend
    obtain ⟨hcovers, hgrows, hle⟩ := announced_bounds hbounded hfits
    rw [if_pos hfits] at hnextCapacity
    rw [hnext]
    refine ⟨⟨fun _ ↦ hfits, fun _ ↦ rfl⟩, fun _ ↦ ⟨hextended, ?_, ?_, ?_⟩,
      fun hfailed ↦ absurd rfl hfailed, fun capacity hannounced ↦ ?_⟩
    · rw [hnextCapacity, hcapacity]
    · rw [hcapacity]
      exact hcovers
    · rw [hcapacity]
      exact hle
    · rw [hnextCapacity] at hannounced
      rw [← Except.ok.inj hannounced]
      exact (Nat.le_add_right _ _).trans hcovers
  · rw [if_neg hfits] at hnextCapacity
    rw [happend]
    refine ⟨⟨nofun, fun h ↦ absurd h hfits⟩, nofun, fun _ ↦ rfl, fun capacity hannounced ↦ ?_⟩
    rw [hnextCapacity] at hannounced
    exact nomatch hannounced

end Relayna.BodyRewrite

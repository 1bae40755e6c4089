import Mathlib.Data.List.Basic

/-!
# Frames of a stream that arrives in chunks

A framer finds the first frame of a stream: how long its content is, and how long the separator
behind it. It must not change its mind when more of the stream arrives. Then the frames of a stream
do not depend on how it is cut: `frames_append` says that one may go on from what is left behind the
last frame, and `find?_frames` that the first frame of some kind in the beginning of a stream is
that of the stream, if it ends in time.
-/

set_option autoImplicit false
set_option relaxedAutoImplicit false

namespace Relayna.Library.Framing

variable {Symbol : Type*}

/-- What finds the first frame of a stream: the lengths of its content and of its separator. A frame
that has been found stays when the stream goes on, and one that is found in a longer stream is found
as soon as it has arrived. -/
structure Framer (Symbol : Type*) where
  next : List Symbol → Option (ℕ × ℕ)
  separator_pos : ∀ {stream content separator}, next stream = some (content, separator) →
    0 < separator
  fits : ∀ {stream content separator}, next stream = some (content, separator) →
    content + separator ≤ stream.length
  next_append : ∀ {stream frame} more, next stream = some frame → next (stream ++ more) = some frame
  next_of_append : ∀ {stream more content separator},
    next (stream ++ more) = some (content, separator) → content + separator ≤ stream.length →
    next stream = some (content, separator)

variable (framer : Framer Symbol)

theorem length_drop_lt {stream : List Symbol} {content separator : ℕ}
    (hnext : framer.next stream = some (content, separator)) :
    (stream.drop (content + separator)).length < stream.length := by
  have hpos := framer.separator_pos hnext
  have hfits := framer.fits hnext
  rw [List.length_drop]
  omega

/-- The frames of a stream: their contents, and where they end. -/
def frames (stream : List Symbol) : List (List Symbol × ℕ) :=
  match _hnext : framer.next stream with
  | none => []
  | some (content, separator) =>
    (stream.take content, content + separator) ::
      (frames (stream.drop (content + separator))).map fun frame ↦
        (frame.1, content + separator + frame.2)
termination_by stream.length
decreasing_by exact length_drop_lt framer _hnext

/-- Where the last frame of a stream ends. -/
def consumed (stream : List Symbol) : ℕ :=
  match _hnext : framer.next stream with
  | none => 0
  | some (content, separator) =>
    content + separator + consumed (stream.drop (content + separator))
termination_by stream.length
decreasing_by exact length_drop_lt framer _hnext

/-- Go through the frames of a stream up to one that is wanted: where it stops, and whether it has
found one. -/
def scan (wanted : List Symbol → Bool) (stream : List Symbol) : ℕ × Bool :=
  match _hnext : framer.next stream with
  | none => (0, false)
  | some (content, separator) =>
    if wanted (stream.take content) then (content + separator, true)
    else
      let following := scan wanted (stream.drop (content + separator))
      (content + separator + following.1, following.2)
termination_by stream.length
decreasing_by exact length_drop_lt framer _hnext

/-! ### One frame -/

section Equations

variable {framer}

theorem frames_of_none {stream : List Symbol} (hnext : framer.next stream = none) :
    frames framer stream = [] := by
  rw [frames]
  split
  · rfl
  · rename_i hsome
    rw [hnext] at hsome
    cases hsome

theorem frames_of_some {stream : List Symbol} {content separator : ℕ}
    (hnext : framer.next stream = some (content, separator)) :
    frames framer stream = (stream.take content, content + separator) ::
      (frames framer (stream.drop (content + separator))).map fun frame ↦
        (frame.1, content + separator + frame.2) := by
  rw [frames]
  split
  · rename_i hnone
    rw [hnext] at hnone
    cases hnone
  · rename_i hsome
    rw [hnext] at hsome
    cases hsome
    rfl

theorem consumed_of_none {stream : List Symbol} (hnext : framer.next stream = none) :
    consumed framer stream = 0 := by
  rw [consumed]
  split
  · rfl
  · rename_i hsome
    rw [hnext] at hsome
    cases hsome

theorem consumed_of_some {stream : List Symbol} {content separator : ℕ}
    (hnext : framer.next stream = some (content, separator)) :
    consumed framer stream =
      content + separator + consumed framer (stream.drop (content + separator)) := by
  rw [consumed]
  split
  · rename_i hnone
    rw [hnext] at hnone
    cases hnone
  · rename_i hsome
    rw [hnext] at hsome
    cases hsome
    rfl

theorem scan_of_none {stream : List Symbol} (hnext : framer.next stream = none)
    (wanted : List Symbol → Bool) : scan framer wanted stream = (0, false) := by
  rw [scan]
  split
  · rfl
  · rename_i hsome
    rw [hnext] at hsome
    cases hsome

theorem scan_of_some {stream : List Symbol} {content separator : ℕ}
    (hnext : framer.next stream = some (content, separator)) (wanted : List Symbol → Bool) :
    scan framer wanted stream =
      if wanted (stream.take content) then (content + separator, true)
      else
        (content + separator + (scan framer wanted (stream.drop (content + separator))).1,
          (scan framer wanted (stream.drop (content + separator))).2) := by
  rw [scan]
  split
  · rename_i hnone
    rw [hnext] at hnone
    cases hnone
  · rename_i hsome
    rw [hnext] at hsome
    cases hsome
    rfl

/-- The induction over the frames of a stream. -/
theorem frame_induction {motive : List Symbol → Prop}
    (hnone : ∀ stream, framer.next stream = none → motive stream)
    (hsome : ∀ stream content separator, framer.next stream = some (content, separator) →
      motive (stream.drop (content + separator)) → motive stream)
    (stream : List Symbol) : motive stream := by
  induction hlength : stream.length using Nat.strongRecOn generalizing stream with
  | ind length ih =>
    rcases hnext : framer.next stream with _ | ⟨content, separator⟩
    · exact hnone stream hnext
    · have hlt := length_drop_lt framer hnext
      exact hsome stream content separator hnext (ih _ (hlength ▸ hlt) _ rfl)

end Equations

/-! ### Whole streams -/

section Streams

variable {framer}

/-- The scan stops at the first frame that is wanted, or behind the last frame. -/
theorem scan_eq (wanted : List Symbol → Bool) (stream : List Symbol) :
    scan framer wanted stream =
      match (frames framer stream).find? fun frame ↦ wanted frame.1 with
      | some frame => (frame.2, true)
      | none => (consumed framer stream, false) := by
  induction stream using @frame_induction _ framer with
  | hnone stream hnext => rw [scan_of_none hnext, frames_of_none hnext, consumed_of_none hnext]; rfl
  | hsome stream content separator hnext ih =>
    rw [scan_of_some hnext, frames_of_some hnext, consumed_of_some hnext, List.find?_cons, ih,
      List.find?_map]
    by_cases hwanted : wanted (stream.take content) = true
    · rw [if_pos hwanted, hwanted]
    · rw [if_neg hwanted, (Bool.not_eq_true _).mp hwanted]
      have hcomp : (fun frame : List Symbol × ℕ ↦ wanted frame.1) ∘
          (fun frame : List Symbol × ℕ ↦ (frame.1, content + separator + frame.2)) =
            fun frame ↦ wanted frame.1 := rfl
      dsimp only
      rw [hcomp]
      cases (frames framer (stream.drop (content + separator))).find? fun frame ↦
        wanted frame.1 with
      | none => rfl
      | some frame => rfl

theorem consumed_le (stream : List Symbol) : consumed framer stream ≤ stream.length := by
  induction stream using @frame_induction _ framer with
  | hnone stream hnext => rw [consumed_of_none hnext]; exact Nat.zero_le _
  | hsome stream content separator hnext ih =>
    have hfits := framer.fits hnext
    rw [consumed_of_some hnext]
    rw [List.length_drop] at ih
    omega

theorem drop_add_consumed (first : ℕ) (stream : List Symbol) :
    stream.drop (first + consumed framer (stream.drop first)) =
      (stream.drop first).drop (consumed framer (stream.drop first)) :=
  List.drop_drop.symm

/-- Behind the last frame there is none. -/
theorem next_drop_consumed (stream : List Symbol) :
    framer.next (stream.drop (consumed framer stream)) = none := by
  induction stream using @frame_induction _ framer with
  | hnone stream hnext => rw [consumed_of_none hnext]; exact hnext
  | hsome stream content separator hnext ih =>
    rw [consumed_of_some hnext, drop_add_consumed]
    exact ih

/-- The frames of a longer stream are those of the stream, and those behind its last frame. -/
theorem frames_append (stream more : List Symbol) :
    frames framer (stream ++ more) = frames framer stream ++
      (frames framer (stream.drop (consumed framer stream) ++ more)).map fun frame ↦
        (frame.1, consumed framer stream + frame.2) := by
  induction stream using @frame_induction _ framer with
  | hnone stream hnext =>
    rw [frames_of_none hnext, consumed_of_none hnext, List.drop_zero, List.nil_append]
    simp
  | hsome stream content separator hnext ih =>
    have hfits := framer.fits hnext
    rw [frames_of_some (framer.next_append more hnext), frames_of_some hnext,
      consumed_of_some hnext, drop_add_consumed, List.take_append_of_le_length (by omega),
      List.drop_append_of_le_length hfits, ih, List.map_append, List.map_map, List.cons_append]
    congr 2
    refine List.map_congr_left fun frame _ ↦ ?_
    rw [Function.comp_apply, Nat.add_assoc (content + separator)]

theorem consumed_append (stream more : List Symbol) :
    consumed framer (stream ++ more) =
      consumed framer stream + consumed framer (stream.drop (consumed framer stream) ++ more) := by
  induction stream using @frame_induction _ framer with
  | hnone stream hnext => rw [consumed_of_none hnext, Nat.zero_add, List.drop_zero]
  | hsome stream content separator hnext ih =>
    rw [consumed_of_some (framer.next_append more hnext), consumed_of_some hnext,
      drop_add_consumed, List.drop_append_of_le_length (framer.fits hnext), ih,
      Nat.add_assoc (content + separator)]

theorem mem_frames_le {stream : List Symbol} {frame : List Symbol × ℕ}
    (hframe : frame ∈ frames framer stream) : 0 < frame.2 ∧ frame.2 ≤ stream.length := by
  induction stream using @frame_induction _ framer generalizing frame with
  | hnone stream hnext =>
    rw [frames_of_none hnext] at hframe
    cases hframe
  | hsome stream content separator hnext ih =>
    have hfits := framer.fits hnext
    have hpos := framer.separator_pos hnext
    rw [frames_of_some hnext] at hframe
    rcases List.mem_cons.mp hframe with rfl | hmem
    · exact ⟨by dsimp only; omega, hfits⟩
    · obtain ⟨other, hother, rfl⟩ := List.mem_map.mp hmem
      have hle := (ih hother).2
      rw [List.length_drop] at hle
      exact ⟨by dsimp only; omega, by dsimp only; omega⟩

/-- Assumes: the beginning of a stream without a frame. Every frame ends behind it. -/
theorem lt_of_mem_frames {stream more : List Symbol} (hnext : framer.next stream = none)
    {frame : List Symbol × ℕ} (hframe : frame ∈ frames framer (stream ++ more)) :
    stream.length < frame.2 := by
  rcases hwhole : framer.next (stream ++ more) with _ | ⟨content, separator⟩
  · rw [frames_of_none hwhole] at hframe
    cases hframe
  · have hfirst : stream.length < content + separator := by
      by_contra hle
      rw [framer.next_of_append hwhole (Nat.not_lt.mp hle)] at hnext
      cases hnext
    rw [frames_of_some hwhole] at hframe
    rcases List.mem_cons.mp hframe with rfl | hmem
    · exact hfirst
    · obtain ⟨other, -, rfl⟩ := List.mem_map.mp hmem
      exact Nat.lt_of_lt_of_le hfirst (Nat.le_add_right _ _)

/-- Going on from what is left behind the last frame. -/
theorem find?_frames_append (wanted : List Symbol → Bool) (stream more : List Symbol) :
    (frames framer (stream ++ more)).find? (fun frame ↦ wanted frame.1) =
      ((frames framer stream).find? fun frame ↦ wanted frame.1).or
        (((frames framer (stream.drop (consumed framer stream) ++ more)).find?
          fun frame ↦ wanted frame.1).map fun frame ↦
            (frame.1, consumed framer stream + frame.2)) := by
  rw [frames_append, List.find?_append, List.find?_map]
  rfl

/-- The first frame of a kind in the beginning of a stream is that of the stream, if it has ended.
-/
theorem find?_frames (wanted : List Symbol → Bool) (stream more : List Symbol) :
    (frames framer stream).find? (fun frame ↦ wanted frame.1) =
      ((frames framer (stream ++ more)).find? fun frame ↦ wanted frame.1).filter
        fun frame ↦ frame.2 ≤ stream.length := by
  rw [find?_frames_append]
  rcases hfound : (frames framer stream).find? (fun frame ↦ wanted frame.1) with _ | frame
  · rw [hfound, Option.none_or, eq_comm, Option.filter_eq_none_iff]
    intro frame hframe
    obtain ⟨other, hother, rfl⟩ := Option.map_eq_some_iff.mp hframe
    have hlt := lt_of_mem_frames (next_drop_consumed stream) (List.mem_of_find?_eq_some hother)
    have hle := @consumed_le _ framer stream
    rw [List.length_drop] at hlt
    rw [decide_eq_true_eq]
    dsimp only
    omega
  · have hle := (mem_frames_le (List.mem_of_find?_eq_some hfound)).2
    rw [hfound, Option.some_or, Option.filter_some, if_pos (decide_eq_true hle)]

end Streams

/-! ### Chunks -/

section Chunks

variable {Chunk : Type*} (content : Chunk → List Symbol)

/-- The chunk that has the symbol at a position of the stream. -/
def chunkAt : List Chunk → ℕ → Option Chunk
  | [], _ => none
  | chunk :: chunks, position =>
    if position < (content chunk).length then some chunk
    else chunkAt chunks (position - (content chunk).length)

theorem chunkAt_append_left {chunks : List Chunk} {position : ℕ}
    (hposition : position < (chunks.flatMap content).length) (more : List Chunk) :
    chunkAt content (chunks ++ more) position = chunkAt content chunks position := by
  induction chunks generalizing position with
  | nil => exact absurd hposition (Nat.not_lt_zero _)
  | cons chunk others ih =>
    rw [List.cons_append, chunkAt, chunkAt]
    rw [List.flatMap_cons, List.length_append] at hposition
    split_ifs with hchunk
    · rfl
    · exact ih (by omega)

/-- A position behind some chunks and within the next one is in that one. -/
theorem chunkAt_append_cons {chunks : List Chunk} {chunk : Chunk} {position : ℕ}
    (hbehind : (chunks.flatMap content).length ≤ position)
    (hwithin : position < (chunks.flatMap content).length + (content chunk).length)
    (more : List Chunk) : chunkAt content (chunks ++ chunk :: more) position = some chunk := by
  induction chunks generalizing position with
  | nil =>
    rw [List.nil_append, chunkAt, if_pos]
    simpa using hwithin
  | cons first others ih =>
    rw [List.flatMap_cons, List.length_append] at hbehind hwithin
    rw [List.cons_append, chunkAt, if_neg (by omega)]
    exact ih (by omega) (by omega)

end Chunks

end Relayna.Library.Framing

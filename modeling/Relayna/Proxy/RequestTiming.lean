import Mathlib.Algebra.Order.Ring.Int
import Mathlib.Data.List.Induction
import Relayna.Library.Framing
import Relayna.Library.Leaves
import Relayna.Library.MachineWord
import Relayna.Library.Utf8

/-!
# The time of the first token

`crates/gateway-proxy/src/request_timing.rs`: `RequestTimingProbe::body` sees the chunks of a
response as they arrive from the upstream. Of a streaming attempt it collects up to 64 KiB, cuts off
complete server-sent events, and notes the time of the chunk that completes the first event with
content. The reading of JSON is a parameter.

`first_token_on_chunk` says that the chunks do not matter: the event is the first one with content
in the whole stream, if it ends within the limit, and the time is that of the chunk which has the
last byte of its separator.
-/

set_option autoImplicit false
set_option relaxedAutoImplicit false

namespace Relayna.Proxy.RequestTiming

open Library.Framing Library.Leaves Library.MachineWord Library.Utf8

/-! ### Events -/

/-- `windows(n).position(..)` for a pattern of length `n`. -/
def position (pattern stream : List UInt8) : Option ℕ :=
  (List.range stream.length).find? fun index ↦ pattern.isPrefixOf (stream.drop index)

/-- Two line feeds. -/
def lineFeeds : List UInt8 := [10, 10]

/-- Two pairs of a carriage return and a line feed. -/
def lineBreaks : List UInt8 := [13, 10, 13, 10]

/-- The condition of the loop of `body`: where the first separator begins and how long it is. -/
def nextSeparator (stream : List UInt8) : Option (ℕ × ℕ) :=
  match position lineFeeds stream, position lineBreaks stream with
  | some first, some second => if first ≤ second then some (first, 2) else some (second, 4)
  | some first, none => some (first, 2)
  | none, some second => some (second, 4)
  | none, none => none

/-- `str::lines`, with the line that is being read. -/
def linesFrom (line : List Char) : List Char → List (List Char)
  | [] => if line.isEmpty then [] else [line]
  | character :: rest =>
    if character = '\n' then
      (if line.getLast? = some '\r' then line.dropLast else line) :: linesFrom [] rest
    else linesFrom (line ++ [character]) rest

/-- `strip_prefix` with the field of the data. -/
def stripData (line : List Char) : Option (List Char) :=
  if "data:".toList.isPrefixOf line then some (line.drop 5) else none

def eventData (event : List UInt8) : List Char :=
  ['\n'].intercalate (((linesFrom [] (decodeLossy event)).filterMap stripData).map
    (·.dropWhile isWhitespace))

/-- `serde_json::Value`. -/
abbrev JsonValue := Document (List Char)

/-- The closure of `has_content_delta`. -/
def nonempty (value : Option JsonValue) : Bool :=
  (value.bind Document.asStr).any (!·.isEmpty)

def choiceHasContent (choice : JsonValue) : Bool :=
  nonempty (choice.pointer ["delta".toList, "content".toList]) ||
    nonempty (choice.get "text".toList) ||
    ((choice.pointer ["delta".toList, "tool_calls".toList]).bind Document.asArray).any fun calls ↦
      calls.any fun call ↦ nonempty (call.pointer ["function".toList, "arguments".toList])

def hasContentDelta (value : JsonValue) : Bool :=
  if ((value.get "choices".toList).bind Document.asArray).any (·.any choiceHasContent) then true
  else
    match (value.get "type".toList).bind Document.asStr with
    | none => false
    | some kind =>
      if kind = "response.output_text.delta".toList ∨
          kind = "response.function_call_arguments.delta".toList then
        nonempty (value.get "delta".toList)
      else if kind = "content_block_delta".toList then
        nonempty (value.pointer ["delta".toList, "text".toList]) ||
          nonempty (value.pointer ["delta".toList, "partial_json".toList])
      else false

/-- An event carries content, as `body` decides it. -/
def carriesContent (fromStr : List Char → Option JsonValue) (event : List UInt8) : Bool :=
  (fromStr (eventData event)).any hasContentDelta

/-! ### The separators frame a stream -/

section Separators

variable {stream : List UInt8}

/-- A separator of a length begins at a position. -/
def SeparatorAt (stream : List UInt8) (index length : ℕ) : Prop :=
  (length = 2 ∧ stream[index]? = some 10 ∧ stream[index + 1]? = some 10) ∨
    (length = 4 ∧ stream[index]? = some 13 ∧ stream[index + 1]? = some 10 ∧
      stream[index + 2]? = some 13 ∧ stream[index + 3]? = some 10)

theorem isPrefixOf_iff (pattern stream : List UInt8) (index : ℕ) :
    pattern.isPrefixOf (stream.drop index) = true ↔
      ∀ offset, (hoffset : offset < pattern.length) →
        stream[index + offset]? = some (pattern.get ⟨offset, hoffset⟩) := by
  rw [List.isPrefixOf_iff_prefix, List.prefix_iff_getElem?]
  simp only [List.getElem?_drop, List.get_eq_getElem]

theorem isPrefixOf_lineFeeds (stream : List UInt8) (index : ℕ) :
    lineFeeds.isPrefixOf (stream.drop index) = true ↔ SeparatorAt stream index 2 := by
  rw [isPrefixOf_iff]
  constructor
  · intro hall
    exact Or.inl ⟨rfl, hall 0 (by decide), hall 1 (by decide)⟩
  · rintro (⟨-, hfirst, hsecond⟩ | ⟨hlength, -⟩) offset hoffset
    · match offset with
      | 0 => exact hfirst
      | 1 => exact hsecond
      | offset + 2 => exact absurd hoffset (Nat.not_lt.mpr (Nat.le_add_left _ _))
    · exact absurd hlength (by decide)

theorem isPrefixOf_lineBreaks (stream : List UInt8) (index : ℕ) :
    lineBreaks.isPrefixOf (stream.drop index) = true ↔ SeparatorAt stream index 4 := by
  rw [isPrefixOf_iff]
  constructor
  · intro hall
    exact Or.inr ⟨rfl, hall 0 (by decide), hall 1 (by decide), hall 2 (by decide),
      hall 3 (by decide)⟩
  · rintro (⟨hlength, -⟩ | ⟨-, hfirst, hsecond, hthird, hfourth⟩) offset hoffset
    · exact absurd hlength (by decide)
    · match offset with
      | 0 => exact hfirst
      | 1 => exact hsecond
      | 2 => exact hthird
      | 3 => exact hfourth
      | offset + 4 => exact absurd hoffset (Nat.not_lt.mpr (Nat.le_add_left _ _))

theorem lt_length_of_getElem? {index : ℕ} {byte : UInt8} (hbyte : stream[index]? = some byte) :
    index < stream.length :=
  (List.getElem?_eq_some_iff.mp hbyte).1

theorem SeparatorAt.length_eq {index length : ℕ} (hat : SeparatorAt stream index length) :
    length = 2 ∨ length = 4 := by
  rcases hat with ⟨hlength, -⟩ | ⟨hlength, -⟩
  · exact Or.inl hlength
  · exact Or.inr hlength

theorem SeparatorAt.le {index length : ℕ} (hat : SeparatorAt stream index length) :
    index + length ≤ stream.length := by
  rcases hat with ⟨rfl, -, hlast⟩ | ⟨rfl, -, -, -, hlast⟩
  · exact lt_length_of_getElem? hlast
  · exact lt_length_of_getElem? hlast

/-- The first byte tells the length. -/
theorem SeparatorAt.unique {index first second : ℕ} (hfirst : SeparatorAt stream index first)
    (hsecond : SeparatorAt stream index second) : first = second := by
  rcases hfirst with ⟨rfl, hfirst, -⟩ | ⟨rfl, hfirst, -⟩ <;>
    rcases hsecond with ⟨rfl, hsecond, -⟩ | ⟨rfl, hsecond, -⟩
  · rfl
  · exact absurd (hfirst.symm.trans hsecond) (by decide)
  · exact absurd (hfirst.symm.trans hsecond) (by decide)
  · rfl

/-- Within the beginning of a stream, a separator is one of the beginning. -/
theorem separatorAt_append_iff {index length : ℕ} (hle : index + length ≤ stream.length)
    (more : List UInt8) :
    SeparatorAt (stream ++ more) index length ↔ SeparatorAt stream index length := by
  have hsame : ∀ offset < length, (stream ++ more)[index + offset]? = stream[index + offset]? :=
    fun offset hoffset ↦ List.getElem?_append_left (by omega)
  unfold SeparatorAt
  constructor
  · rintro (⟨rfl, hfirst, hsecond⟩ | ⟨rfl, hfirst, hsecond, hthird, hfourth⟩)
    · exact Or.inl ⟨rfl, (hsame 0 (by decide)).symm.trans hfirst,
        (hsame 1 (by decide)).symm.trans hsecond⟩
    · exact Or.inr ⟨rfl, (hsame 0 (by decide)).symm.trans hfirst,
        (hsame 1 (by decide)).symm.trans hsecond, (hsame 2 (by decide)).symm.trans hthird,
        (hsame 3 (by decide)).symm.trans hfourth⟩
  · rintro (⟨rfl, hfirst, hsecond⟩ | ⟨rfl, hfirst, hsecond, hthird, hfourth⟩)
    · exact Or.inl ⟨rfl, (hsame 0 (by decide)).trans hfirst, (hsame 1 (by decide)).trans hsecond⟩
    · exact Or.inr ⟨rfl, (hsame 0 (by decide)).trans hfirst, (hsame 1 (by decide)).trans hsecond,
        (hsame 2 (by decide)).trans hthird, (hsame 3 (by decide)).trans hfourth⟩

/-- Assumes: a pattern for the separators of a length. The first position is that of the first one.
-/
theorem position_eq_some_iff {pattern : List UInt8} {length : ℕ}
    (hpattern : ∀ index, pattern.isPrefixOf (stream.drop index) = true ↔
      SeparatorAt stream index length) {index : ℕ} :
    position pattern stream = some index ↔
      SeparatorAt stream index length ∧ ∀ earlier < index, ¬ SeparatorAt stream earlier length := by
  rw [position, List.find?_range_eq_some, hpattern, List.mem_range]
  constructor
  · rintro ⟨hat, -, hearlier⟩
    refine ⟨hat, fun earlier hlt hbefore ↦ ?_⟩
    have hnot := hearlier earlier hlt
    rw [(hpattern earlier).mpr hbefore] at hnot
    exact Bool.noConfusion hnot
  · rintro ⟨hat, hearlier⟩
    have hle := hat.le
    have hlength := hat.length_eq
    refine ⟨hat, by omega, fun earlier hlt ↦ ?_⟩
    rw [Bool.not_eq_true', ← Bool.not_eq_true, hpattern]
    exact hearlier earlier hlt

theorem position_eq_none_iff {pattern : List UInt8} {length : ℕ}
    (hpattern : ∀ index, pattern.isPrefixOf (stream.drop index) = true ↔
      SeparatorAt stream index length) :
    position pattern stream = none ↔ ∀ index, ¬ SeparatorAt stream index length := by
  rw [position, List.find?_range_eq_none]
  constructor
  · intro hnone index hat
    have hle := hat.le
    have hlength := hat.length_eq
    have hnot := hnone index (by omega)
    rw [(hpattern index).mpr hat] at hnot
    exact Bool.noConfusion hnot
  · intro hnone index _
    rw [Bool.not_eq_true', ← Bool.not_eq_true, hpattern]
    exact hnone index

def FirstSeparator (stream : List UInt8) (index length : ℕ) : Prop :=
  SeparatorAt stream index length ∧ ∀ earlier < index, ∀ other, ¬ SeparatorAt stream earlier other

theorem FirstSeparator.unique {index length first second : ℕ}
    (hone : FirstSeparator stream index length) (htwo : FirstSeparator stream first second) :
    (index, length) = (first, second) := by
  rcases Nat.lt_trichotomy index first with hlt | rfl | hlt
  · exact absurd hone.1 (htwo.2 index hlt length)
  · rw [hone.1.unique htwo.1]
  · exact absurd htwo.1 (hone.2 first hlt second)

theorem firstSeparator_of_nextSeparator {index length : ℕ}
    (hnext : nextSeparator stream = some (index, length)) : FirstSeparator stream index length := by
  have hfeeds := isPrefixOf_lineFeeds stream
  have hbreaks := isPrefixOf_lineBreaks stream
  unfold nextSeparator at hnext
  rcases hfirst : position lineFeeds stream with _ | first <;>
    rcases hsecond : position lineBreaks stream with _ | second <;>
    rw [hfirst, hsecond] at hnext
  · cases hnext
  · cases hnext
    rw [position_eq_none_iff hfeeds] at hfirst
    rw [position_eq_some_iff hbreaks] at hsecond
    refine ⟨hsecond.1, fun earlier hlt other hat ↦ ?_⟩
    rcases hat.length_eq with rfl | rfl
    · exact hfirst earlier hat
    · exact hsecond.2 earlier hlt hat
  · cases hnext
    rw [position_eq_some_iff hfeeds] at hfirst
    rw [position_eq_none_iff hbreaks] at hsecond
    refine ⟨hfirst.1, fun earlier hlt other hat ↦ ?_⟩
    rcases hat.length_eq with rfl | rfl
    · exact hfirst.2 earlier hlt hat
    · exact hsecond earlier hat
  · rw [position_eq_some_iff hfeeds] at hfirst
    rw [position_eq_some_iff hbreaks] at hsecond
    dsimp only at hnext
    split_ifs at hnext with hle
    · cases hnext
      refine ⟨hfirst.1, fun earlier hlt other hat ↦ ?_⟩
      rcases hat.length_eq with rfl | rfl
      · exact hfirst.2 earlier hlt hat
      · exact hsecond.2 earlier (Nat.lt_of_lt_of_le hlt hle) hat
    · cases hnext
      refine ⟨hsecond.1, fun earlier hlt other hat ↦ ?_⟩
      rcases hat.length_eq with rfl | rfl
      · exact hfirst.2 earlier (Nat.lt_trans hlt (Nat.not_le.mp hle)) hat
      · exact hsecond.2 earlier hlt hat

theorem nextSeparator_ne_none {index length : ℕ} (hat : SeparatorAt stream index length) :
    nextSeparator stream ≠ none := by
  unfold nextSeparator
  rcases hfirst : position lineFeeds stream with _ | first <;>
    rcases hsecond : position lineBreaks stream with _ | second
  · rw [position_eq_none_iff (isPrefixOf_lineFeeds stream)] at hfirst
    rw [position_eq_none_iff (isPrefixOf_lineBreaks stream)] at hsecond
    rcases hat.length_eq with rfl | rfl
    · exact absurd hat (hfirst index)
    · exact absurd hat (hsecond index)
  · exact Option.some_ne_none _
  · exact Option.some_ne_none _
  · dsimp only
    split_ifs
    · exact Option.some_ne_none _
    · exact Option.some_ne_none _

/-- The loop goes on with the first separator. -/
theorem nextSeparator_eq_some_iff {index length : ℕ} :
    nextSeparator stream = some (index, length) ↔ FirstSeparator stream index length := by
  refine ⟨firstSeparator_of_nextSeparator, fun hfirst ↦ ?_⟩
  rcases hnext : nextSeparator stream with _ | ⟨other, another⟩
  · exact absurd hnext (nextSeparator_ne_none hfirst.1)
  · rw [hfirst.unique (firstSeparator_of_nextSeparator hnext)]

/-- The first separator stays the first one when the stream goes on: an earlier one could only be
cut by the end of the stream if it overlapped, and then their bytes would differ. -/
theorem FirstSeparator.append {index length : ℕ} (hfirst : FirstSeparator stream index length)
    (more : List UInt8) : FirstSeparator (stream ++ more) index length := by
  have hle := hfirst.1.le
  have hat := (separatorAt_append_iff hle more).mpr hfirst.1
  refine ⟨hat, fun earlier hlt other hother ↦ ?_⟩
  by_cases hwithin : earlier + other ≤ stream.length
  · exact hfirst.2 earlier hlt other ((separatorAt_append_iff hwithin more).mp hother)
  · rcases hat with ⟨rfl, -, hsecond⟩ | ⟨rfl, -⟩ <;>
      rcases hother with ⟨rfl, -⟩ | ⟨rfl, -, -, hthird, -⟩
    · omega
    · have hsame : earlier + 2 = index + 1 := by omega
      rw [hsame] at hthird
      exact absurd (hsecond.symm.trans hthird) (by decide)
    · omega
    · omega

def serverSentEvents : Framer UInt8 where
  next := nextSeparator
  separator_pos := fun hnext ↦ by
    rcases (nextSeparator_eq_some_iff.mp hnext).1.length_eq with rfl | rfl <;> decide
  fits := fun hnext ↦ (nextSeparator_eq_some_iff.mp hnext).1.le
  next_append := fun more hnext ↦
    nextSeparator_eq_some_iff.mpr ((nextSeparator_eq_some_iff.mp hnext).append more)
  next_of_append := fun {stream more content separator} hnext hle ↦ by
    obtain ⟨hat, hearlier⟩ := nextSeparator_eq_some_iff.mp hnext
    refine nextSeparator_eq_some_iff.mpr ⟨(separatorAt_append_iff hle more).mp hat, ?_⟩
    intro earlier hlt other hother
    exact hearlier earlier hlt other ((separatorAt_append_iff hother.le more).mpr hother)

end Separators

/-! ### The probe -/

def tokenProbeLimit : ℕ := 65536

/-- The part of `UpstreamTiming` that the body of a response has to do with. -/
structure UpstreamTiming where
  startedElapsedMs : ℤ
  firstBodyByteMs : Option ℤ
  firstTokenMs : Option ℤ
  upstreamStatus : Option ℕ
  deriving DecidableEq

/-- The part of `TrafficRequest` that the probe reads and writes. -/
structure TrafficRequest where
  streaming : Bool
  upstreamTimings : List UpstreamTiming
  deriving DecidableEq

/-- `RequestTimingProbe`, without the start of the connection. -/
structure RequestTimingProbe where
  tokenPrefix : List UInt8
  tokenProbeFinished : Bool
  tokenBytesSeen : ℕ
  deriving DecidableEq

/-- `RequestTimingProbe::default`. -/
def RequestTimingProbe.fresh : RequestTimingProbe := ⟨[], false, 0⟩

/-- What `body` collects of a chunk. -/
def RequestTimingProbe.extend (probe : RequestTimingProbe) (body : List UInt8) :
    RequestTimingProbe :=
  let remaining := tokenProbeLimit - probe.tokenBytesSeen
  { probe with
    tokenBytesSeen := probe.tokenBytesSeen + min body.length remaining
    tokenPrefix := probe.tokenPrefix ++ body.take (min body.length remaining) }

/-- `RequestTimingProbe::body`. -/
def body (fromStr : List Char → Option JsonValue) (probe : RequestTimingProbe)
    (traffic : TrafficRequest) (body : List UInt8) (elapsedMs : ℤ) :
    RequestTimingProbe × TrafficRequest :=
  match traffic.upstreamTimings.getLast? with
  | none => (probe, traffic)
  | some timing =>
    if body.isEmpty then (probe, traffic)
    else
      let sinceAttempt := saturatingSubSigned 64 elapsedMs timing.startedElapsedMs
      let begun := { timing with
        firstBodyByteMs := some (timing.firstBodyByteMs.getD sinceAttempt) }
      let put (timing : UpstreamTiming) : TrafficRequest :=
        { traffic with upstreamTimings := traffic.upstreamTimings.dropLast ++ [timing] }
      if !traffic.streaming || probe.tokenProbeFinished ||
          timing.upstreamStatus.any (fun status ↦ decide (400 ≤ status)) then (probe, put begun)
      else
        let extended := probe.extend body
        let scanned := scan serverSentEvents (carriesContent fromStr) extended.tokenPrefix
        let finished := scanned.2 || decide (extended.tokenBytesSeen = tokenProbeLimit)
        ({ extended with
            tokenProbeFinished := finished
            tokenPrefix := if finished then [] else extended.tokenPrefix.drop scanned.1 },
          put (if scanned.2 then { begun with firstTokenMs := some sinceAttempt } else begun))

/-- A chunk of a response and the time at which it arrives. -/
structure Chunk where
  bytes : List UInt8
  elapsedMs : ℤ

/-- The chunks of an attempt one after the other. -/
def run (fromStr : List Char → Option JsonValue) (traffic : TrafficRequest)
    (chunks : List Chunk) : RequestTimingProbe × TrafficRequest :=
  chunks.foldl (fun state chunk ↦ body fromStr state.1 state.2 chunk.bytes chunk.elapsedMs)
    (.fresh, traffic)

/-! ### The first event with content -/

/-- Where the first event of a stream that carries content ends, with its separator. -/
def contentEvent (fromStr : List Char → Option JsonValue) (stream : List UInt8) : Option ℕ :=
  ((frames serverSentEvents stream).find? fun frame ↦ carriesContent fromStr frame.1).map Prod.snd

/-- The bytes of chunks that the probe looks at. -/
def inspected (chunks : List Chunk) : List UInt8 :=
  (chunks.flatMap Chunk.bytes).take tokenProbeLimit

section Tracking

variable {fromStr : List Char → Option JsonValue}

theorem contentEvent_le {stream : List UInt8} {finish : ℕ}
    (hevent : contentEvent fromStr stream = some finish) : 0 < finish ∧ finish ≤ stream.length := by
  obtain ⟨frame, hframe, rfl⟩ := Option.map_eq_some_iff.mp hevent
  exact mem_frames_le (List.mem_of_find?_eq_some hframe)

/-- The event of the beginning of a stream is that of the stream, if it ends there. -/
theorem contentEvent_eq (stream more : List UInt8) :
    contentEvent fromStr stream =
      (contentEvent fromStr (stream ++ more)).filter (· ≤ stream.length) := by
  unfold contentEvent
  rw [find?_frames _ stream more, Option.filter_map]
  rfl

theorem contentEvent_append (stream more : List UInt8) :
    contentEvent fromStr (stream ++ more) =
      (contentEvent fromStr stream).or
        ((contentEvent fromStr (stream.drop (consumed serverSentEvents stream) ++ more)).map
          (consumed serverSentEvents stream + ·)) := by
  unfold contentEvent
  rw [find?_frames_append, Option.map_or, Option.map_map, Option.map_map]
  rfl

theorem scan_contentEvent (stream : List UInt8) :
    scan serverSentEvents (carriesContent fromStr) stream =
      match contentEvent fromStr stream with
      | some finish => (finish, true)
      | none => (consumed serverSentEvents stream, false) := by
  rw [scan_eq, contentEvent]
  cases (frames serverSentEvents stream).find? fun frame ↦ carriesContent fromStr frame.1 with
  | none => rfl
  | some frame => rfl

theorem inspected_append (done : List Chunk) (chunk : Chunk) :
    inspected (done ++ [chunk]) =
      inspected done ++ chunk.bytes.take (tokenProbeLimit - (inspected done).length) := by
  unfold inspected
  rw [List.flatMap_append, List.flatMap_singleton, List.take_append, List.length_take]
  congr 2
  omega

theorem length_inspected (done : List Chunk) :
    (inspected done).length = min tokenProbeLimit (done.flatMap Chunk.bytes).length :=
  List.length_take

/-- The time that the probe notes for chunks: that of the chunk which ends the event. -/
def noted (fromStr : List Char → Option JsonValue) (startedElapsedMs : ℤ) (done : List Chunk) :
    Option ℤ :=
  (contentEvent fromStr (inspected done)).bind fun finish ↦
    (chunkAt Chunk.bytes done (finish - 1)).map fun chunk ↦
      saturatingSubSigned 64 chunk.elapsedMs startedElapsedMs

/-- An event that has ended keeps its chunk. -/
theorem noted_append {done : List Chunk} {chunk : Chunk}
    (hsame : contentEvent fromStr (inspected (done ++ [chunk])) =
      contentEvent fromStr (inspected done)) (startedElapsedMs : ℤ) :
    noted fromStr startedElapsedMs (done ++ [chunk]) = noted fromStr startedElapsedMs done := by
  unfold noted
  rw [hsame]
  rcases hevent : contentEvent fromStr (inspected done) with _ | finish
  · rfl
  · obtain ⟨hpos, hle⟩ := contentEvent_le hevent
    rw [length_inspected] at hle
    rw [Option.bind_some, Option.bind_some, chunkAt_append_left Chunk.bytes (by omega)]

/-- Assumes: chunks whose event has ended, or that reach the limit. More chunks change nothing. -/
theorem contentEvent_inspected_append {done : List Chunk}
    (hfinished : (contentEvent fromStr (inspected done)).isSome ∨
      (inspected done).length = tokenProbeLimit) (chunk : Chunk) :
    contentEvent fromStr (inspected (done ++ [chunk])) =
      contentEvent fromStr (inspected done) := by
  rw [inspected_append]
  rcases hfinished with hsome | hlimit
  · obtain ⟨finish, hevent⟩ := Option.isSome_iff_exists.mp hsome
    rw [contentEvent_append, hevent]
    rfl
  · rw [hlimit, Nat.sub_self, List.take_zero, List.append_nil]

/-- What holds of a streaming attempt after some chunks. -/
structure Tracks (fromStr : List Char → Option JsonValue) (earlier : List UpstreamTiming)
    (timing : UpstreamTiming) (done : List Chunk) (state : RequestTimingProbe × TrafficRequest) :
    Prop where
  finished : state.1.tokenProbeFinished = true ↔
    (contentEvent fromStr (inspected done)).isSome ∨ (inspected done).length = tokenProbeLimit
  seen : state.1.tokenProbeFinished = false → state.1.tokenBytesSeen = (inspected done).length
  buffer : state.1.tokenPrefix = if state.1.tokenProbeFinished then []
    else (inspected done).drop (consumed serverSentEvents (inspected done))
  traffic : ∃ last, state.2 = ⟨true, earlier ++ [last]⟩ ∧
    last.startedElapsedMs = timing.startedElapsedMs ∧
    last.upstreamStatus = timing.upstreamStatus ∧
    last.firstTokenMs = noted fromStr timing.startedElapsedMs done

section Step

variable {earlier : List UpstreamTiming} {last : UpstreamTiming} {probe : RequestTimingProbe}

theorem body_of_empty (traffic : TrafficRequest) (elapsedMs : ℤ) :
    body fromStr probe traffic [] elapsedMs = (probe, traffic) := by
  unfold body
  cases traffic.upstreamTimings.getLast? with
  | none => rfl
  | some timing => rfl

/-- The timing of an attempt whose body has begun. -/
def begun (last : UpstreamTiming) (elapsedMs : ℤ) : UpstreamTiming :=
  { last with
    firstBodyByteMs :=
      some (last.firstBodyByteMs.getD (saturatingSubSigned 64 elapsedMs last.startedElapsedMs)) }

theorem body_of_finished {bytes : List UInt8} (hbytes : bytes ≠ [])
    (hfinished : probe.tokenProbeFinished = true) (elapsedMs : ℤ) :
    body fromStr probe ⟨true, earlier ++ [last]⟩ bytes elapsedMs =
      (probe, ⟨true, earlier ++ [begun last elapsedMs]⟩) := by
  have hempty : bytes.isEmpty = false := List.isEmpty_eq_false_iff.mpr hbytes
  unfold body
  dsimp only
  rw [List.getLast?_concat]
  dsimp only
  rw [hempty, if_neg Bool.false_ne_true, hfinished, Bool.or_true, Bool.true_or, if_pos rfl,
    List.dropLast_concat]
  rfl

theorem body_of_open {bytes : List UInt8} (hbytes : bytes ≠ [])
    (hfinished : probe.tokenProbeFinished = false)
    (hstatus : last.upstreamStatus.any (fun status ↦ decide (400 ≤ status)) = false)
    (elapsedMs : ℤ) :
    body fromStr probe ⟨true, earlier ++ [last]⟩ bytes elapsedMs =
      let extended := probe.extend bytes
      let scanned := scan serverSentEvents (carriesContent fromStr) extended.tokenPrefix
      let finished := scanned.2 || decide (extended.tokenBytesSeen = tokenProbeLimit)
      ({ extended with
          tokenProbeFinished := finished
          tokenPrefix := if finished then [] else extended.tokenPrefix.drop scanned.1 },
        ⟨true, earlier ++ [if scanned.2 then
          { begun last elapsedMs with
            firstTokenMs := some (saturatingSubSigned 64 elapsedMs last.startedElapsedMs) }
          else begun last elapsedMs]⟩) := by
  have hempty : bytes.isEmpty = false := List.isEmpty_eq_false_iff.mpr hbytes
  unfold body
  dsimp only
  rw [List.getLast?_concat]
  dsimp only
  rw [hempty, if_neg Bool.false_ne_true, hfinished, hstatus, Bool.or_false, Bool.or_false,
    Bool.not_true, if_neg Bool.false_ne_true, List.dropLast_concat]
  rfl

/-- The probe takes a chunk up to the limit. -/
theorem extend_eq (bytes : List UInt8) :
    (probe.extend bytes).tokenPrefix =
        probe.tokenPrefix ++ bytes.take (tokenProbeLimit - probe.tokenBytesSeen) ∧
      (probe.extend bytes).tokenBytesSeen = probe.tokenBytesSeen +
        (bytes.take (tokenProbeLimit - probe.tokenBytesSeen)).length := by
  unfold RequestTimingProbe.extend
  dsimp only
  constructor
  · rw [← List.take_take, List.take_of_length_le (List.length_take_le' _ _)]
  · rw [List.length_take, Nat.min_comm]

theorem Tracks.step_of_finished {timing : UpstreamTiming} {done : List Chunk}
    {state : RequestTimingProbe × TrafficRequest}
    (htracks : Tracks fromStr earlier timing done state)
    (hfinished : state.1.tokenProbeFinished = true) {chunk : Chunk} (hbytes : chunk.bytes ≠ []) :
    Tracks fromStr earlier timing (done ++ [chunk])
      (body fromStr state.1 state.2 chunk.bytes chunk.elapsedMs) := by
  obtain ⟨last, htraffic, hstarted, hstatus, hmark⟩ := htracks.traffic
  have hcause := htracks.finished.mp hfinished
  have hsame := contentEvent_inspected_append hcause chunk
  rw [htraffic, body_of_finished hbytes hfinished]
  refine ⟨⟨fun _ ↦ ?_, fun _ ↦ hfinished⟩, fun hopen ↦ ?_, ?_, begun last chunk.elapsedMs, rfl,
    hstarted, hstatus, ?_⟩
  · rw [hsame, inspected_append, List.length_append, List.length_take]
    rcases hcause with hsome | hlimit
    · exact Or.inl hsome
    · exact Or.inr (by omega)
  · exact absurd (hfinished.symm.trans hopen) (by decide)
  · have hbuffer := htracks.buffer
    rw [if_pos hfinished] at hbuffer ⊢
    exact hbuffer
  · rw [noted_append hsame]
    exact hmark

theorem Tracks.step_of_open {timing : UpstreamTiming} {done : List Chunk}
    {state : RequestTimingProbe × TrafficRequest}
    (htracks : Tracks fromStr earlier timing done state)
    (hopen : state.1.tokenProbeFinished = false)
    (hok : timing.upstreamStatus.any (fun status ↦ decide (400 ≤ status)) = false)
    {chunk : Chunk} (hbytes : chunk.bytes ≠ []) :
    Tracks fromStr earlier timing (done ++ [chunk])
      (body fromStr state.1 state.2 chunk.bytes chunk.elapsedMs) := by
  obtain ⟨last, htraffic, hstarted, hstatus, hmark⟩ := htracks.traffic
  have hcause : ¬ ((contentEvent fromStr (inspected done)).isSome ∨
      (inspected done).length = tokenProbeLimit) := by
    rw [← htracks.finished, hopen]
    exact Bool.false_ne_true
  rw [not_or, Option.not_isSome_iff_eq_none] at hcause
  obtain ⟨hnone, hshort⟩ := hcause
  have hseen := htracks.seen hopen
  have hbuffer := htracks.buffer
  rw [hopen, if_neg Bool.false_ne_true] at hbuffer
  have hall := length_inspected done
  -- The stream that has been inspected, and what the chunk adds to it.
  set stream := inspected done with hstream
  set taken := chunk.bytes.take (tokenProbeLimit - stream.length) with htaken
  have hnew : inspected (done ++ [chunk]) = stream ++ taken := inspected_append done chunk
  obtain ⟨hfront, hcount⟩ := @extend_eq state.1 chunk.bytes
  rw [hseen] at hfront hcount
  rw [← htaken, hbuffer] at hfront
  rw [← htaken, ← List.length_append, ← hnew] at hcount
  have hevent := @contentEvent_append fromStr stream taken
  rw [hnone, Option.none_or, ← hnew] at hevent
  rw [htraffic, body_of_open hbytes hopen (hstatus ▸ hok)]
  dsimp only
  rw [hfront, hcount, scan_contentEvent]
  rcases hfound : contentEvent fromStr (stream.drop (consumed serverSentEvents stream) ++ taken)
    with _ | finish
  · rw [hfound, Option.map_none] at hevent
    dsimp only
    rw [Bool.false_or, if_neg Bool.false_ne_true]
    refine ⟨?_, fun _ ↦ rfl, ?_, begun last chunk.elapsedMs, rfl, hstarted, hstatus, ?_⟩
    · rw [decide_eq_true_eq, hevent]
      simp
    · rw [hnew]
      split_ifs
      · rfl
      · have hconsumed := @consumed_append _ serverSentEvents stream taken
        conv_rhs => rw [hconsumed, ← List.drop_drop,
          List.drop_append_of_le_length (consumed_le stream)]
    · have hold : noted fromStr timing.startedElapsedMs done = none := by
        rw [noted, ← hstream, hnone, Option.bind_none]
      rw [noted, hevent, Option.bind_none, ← hold]
      exact hmark
  · rw [hfound, Option.map_some] at hevent
    have hlate : stream.length < consumed serverSentEvents stream + finish := by
      have hfilter := @contentEvent_eq fromStr stream taken
      rw [← hnew, hevent, hnone, Option.filter_some] at hfilter
      by_contra hle
      rw [if_pos (decide_eq_true (Nat.not_lt.mp hle))] at hfilter
      exact Option.some_ne_none _ hfilter.symm
    have hends := (contentEvent_le hevent).2
    rw [hnew, List.length_append, htaken, List.length_take] at hends
    have hchunk : chunkAt Chunk.bytes (done ++ [chunk])
        (consumed serverSentEvents stream + finish - 1) = some chunk :=
      chunkAt_append_cons Chunk.bytes (by omega) (by omega) []
    dsimp only
    rw [Bool.true_or, if_pos rfl, if_pos rfl]
    refine ⟨?_, nofun, rfl, _, rfl, hstarted, hstatus, ?_⟩
    · rw [hevent]
      simp
    · rw [noted, hevent, Option.bind_some, hchunk, Option.map_some, hstarted]

/-- The step: what holds after some chunks holds after one more. -/
theorem Tracks.step {timing : UpstreamTiming} {done : List Chunk}
    {state : RequestTimingProbe × TrafficRequest}
    (htracks : Tracks fromStr earlier timing done state)
    (hok : timing.upstreamStatus.any (fun status ↦ decide (400 ≤ status)) = false)
    (chunk : Chunk) :
    Tracks fromStr earlier timing (done ++ [chunk])
      (body fromStr state.1 state.2 chunk.bytes chunk.elapsedMs) := by
  by_cases hbytes : chunk.bytes = []
  · have hsame : inspected (done ++ [chunk]) = inspected done := by
      rw [inspected_append, hbytes, List.take_nil, List.append_nil]
    obtain ⟨last, htraffic, hstarted, hstatus, hmark⟩ := htracks.traffic
    rw [hbytes, body_of_empty]
    refine ⟨?_, ?_, ?_, last, htraffic, hstarted, hstatus, ?_⟩
    · rw [hsame]
      exact htracks.finished
    · rw [hsame]
      exact htracks.seen
    · rw [hsame]
      exact htracks.buffer
    · rw [noted_append (by rw [hsame])]
      exact hmark
  · by_cases hfinished : state.1.tokenProbeFinished = true
    · exact htracks.step_of_finished hfinished hbytes
    · exact htracks.step_of_open ((Bool.not_eq_true _).mp hfinished) hok hbytes

end Step

/-! ### Whole responses -/

section Responses

variable {earlier : List UpstreamTiming} {timing : UpstreamTiming}

theorem run_append (traffic : TrafficRequest) (done : List Chunk) (chunk : Chunk) :
    run fromStr traffic (done ++ [chunk]) =
      body fromStr (run fromStr traffic done).1 (run fromStr traffic done).2 chunk.bytes
        chunk.elapsedMs := by
  unfold run
  rw [List.foldl_append, List.foldl_cons, List.foldl_nil]

theorem Tracks.start (hmark : timing.firstTokenMs = none) :
    Tracks fromStr earlier timing [] (.fresh, ⟨true, earlier ++ [timing]⟩) := by
  have hnone : contentEvent fromStr (inspected []) = none := by
    rcases hevent : contentEvent fromStr (inspected []) with _ | finish
    · rfl
    · obtain ⟨hpos, hle⟩ := contentEvent_le hevent
      exact absurd (Nat.lt_of_lt_of_le hpos hle) (Nat.lt_irrefl 0)
  refine ⟨?_, fun _ ↦ rfl, ?_, timing, rfl, rfl, rfl, ?_⟩
  · rw [hnone]
    exact ⟨fun hfresh ↦ absurd hfresh Bool.false_ne_true, fun hcause ↦
      hcause.elim (fun hsome ↦ absurd hsome Bool.false_ne_true) (fun hlength ↦ by cases hlength)⟩
  · exact List.drop_nil.symm
  · rw [noted, hnone, hmark, Option.bind_none]

/-- The run: what holds of the fresh attempt holds after every number of chunks. -/
theorem tracks_run (hmark : timing.firstTokenMs = none)
    (hok : timing.upstreamStatus.any (fun status ↦ decide (400 ≤ status)) = false)
    (done : List Chunk) :
    Tracks fromStr earlier timing done (run fromStr ⟨true, earlier ++ [timing]⟩ done) := by
  induction done using List.reverseRecOn with
  | nil => exact Tracks.start hmark
  | append_singleton done chunk ih =>
    rw [run_append]
    exact ih.step hok chunk

/-- What has been inspected of the response shows its event, if it has ended. -/
theorem contentEvent_inspected (done rest : List Chunk) :
    contentEvent fromStr (inspected done) =
      (contentEvent fromStr ((done ++ rest).flatMap Chunk.bytes)).filter fun finish ↦
        finish ≤ min tokenProbeLimit (done.flatMap Chunk.bytes).length := by
  have hwhole : (done ++ rest).flatMap Chunk.bytes = inspected done ++
      ((done.flatMap Chunk.bytes).drop tokenProbeLimit ++ rest.flatMap Chunk.bytes) := by
    rw [List.flatMap_append, ← List.append_assoc, inspected, List.take_append_drop]
  rw [hwhole, ← length_inspected]
  exact contentEvent_eq _ _

/-- The buffer is within the limit, also while a chunk is being looked at. -/
theorem Tracks.buffer_le {done : List Chunk} {state : RequestTimingProbe × TrafficRequest}
    (htracks : Tracks fromStr earlier timing done state) :
    state.1.tokenPrefix.length ≤ tokenProbeLimit ∧
      ∀ bytes, (state.1.extend bytes).tokenPrefix.length ≤ tokenProbeLimit := by
  have hlimit : (inspected done).length ≤ tokenProbeLimit := List.length_take_le _ _
  have hbuffer := congrArg List.length htracks.buffer
  have hextend : ∀ bytes, (state.1.extend bytes).tokenPrefix.length =
      state.1.tokenPrefix.length + min (tokenProbeLimit - state.1.tokenBytesSeen) bytes.length := by
    intro bytes
    rw [(extend_eq bytes).1, List.length_append, List.length_take]
  by_cases hfinished : state.1.tokenProbeFinished = true
  · rw [if_pos hfinished, List.length_nil] at hbuffer
    exact ⟨by omega, fun bytes ↦ by rw [hextend]; omega⟩
  · have hseen := htracks.seen ((Bool.not_eq_true _).mp hfinished)
    rw [if_neg hfinished, List.length_drop] at hbuffer
    exact ⟨by omega, fun bytes ↦ by rw [hextend]; omega⟩

end Responses

end Tracking

/-- The mark of the attempt that is under way. -/
def TrafficRequest.firstToken (traffic : TrafficRequest) : Option ℤ :=
  traffic.upstreamTimings.getLast?.bind UpstreamTiming.firstTokenMs

/-- A chunk of a response has the last byte of the separator of the first event with content, which
ends within the limit. -/
def CompletesEvent (fromStr : List Char → Option JsonValue) (before : List Chunk) (chunk : Chunk)
    (after : List Chunk) : Prop :=
  ∃ finish, contentEvent fromStr ((before ++ chunk :: after).flatMap Chunk.bytes) = some finish ∧
    finish ≤ tokenProbeLimit ∧ (before.flatMap Chunk.bytes).length < finish ∧
    finish ≤ (before.flatMap Chunk.bytes).length + chunk.bytes.length

theorem Tracks.firstToken {fromStr : List Char → Option JsonValue}
    {earlier : List UpstreamTiming} {timing : UpstreamTiming} {done : List Chunk}
    {state : RequestTimingProbe × TrafficRequest}
    (htracks : Tracks fromStr earlier timing done state) :
    state.2.firstToken = noted fromStr timing.startedElapsedMs done := by
  obtain ⟨last, htraffic, -, -, hmark⟩ := htracks.traffic
  rw [TrafficRequest.firstToken, htraffic, List.getLast?_concat, Option.bind_some, hmark]

/-- The chunk that completes the event is the one whose time is noted. -/
theorem noted_of_completes {fromStr : List Char → Option JsonValue} {before after : List Chunk}
    {chunk : Chunk} (hcompletes : CompletesEvent fromStr before chunk after)
    (startedElapsedMs : ℤ) :
    noted fromStr startedElapsedMs before = none ∧
      noted fromStr startedElapsedMs (before ++ [chunk]) =
        some (saturatingSubSigned 64 chunk.elapsedMs startedElapsedMs) := by
  obtain ⟨finish, hevent, hlimit, hbehind, hwithin⟩ := hcompletes
  have hbefore := @contentEvent_inspected fromStr before (chunk :: after)
  have hafter := @contentEvent_inspected fromStr (before ++ [chunk]) after
  rw [List.append_assoc, List.singleton_append, List.flatMap_append, List.flatMap_singleton,
    List.length_append] at hafter
  rw [hevent, Option.filter_some, if_neg (by rw [decide_eq_true_eq]; omega)] at hbefore
  rw [hevent, Option.filter_some, if_pos (by rw [decide_eq_true_eq]; omega)] at hafter
  constructor
  · rw [noted, hbefore, Option.bind_none]
  · rw [noted, hafter, Option.bind_some,
      chunkAt_append_cons Chunk.bytes (by omega) (by omega) [], Option.map_some]

/-- Every other chunk leaves what is noted as it is. -/
theorem noted_of_not_completes {fromStr : List Char → Option JsonValue}
    {before after : List Chunk} {chunk : Chunk}
    (hcompletes : ¬ CompletesEvent fromStr before chunk after) (startedElapsedMs : ℤ) :
    noted fromStr startedElapsedMs (before ++ [chunk]) =
      noted fromStr startedElapsedMs before := by
  refine noted_append ?_ startedElapsedMs
  have hafter := @contentEvent_inspected fromStr (before ++ [chunk]) after
  rw [List.append_assoc, List.singleton_append, List.flatMap_append, List.flatMap_singleton,
    List.length_append] at hafter
  rw [hafter, @contentEvent_inspected fromStr before (chunk :: after)]
  rcases hevent : contentEvent fromStr ((before ++ chunk :: after).flatMap Chunk.bytes)
    with _ | finish
  · rfl
  · have hnot : ¬ (finish ≤ tokenProbeLimit ∧ (before.flatMap Chunk.bytes).length < finish ∧
        finish ≤ (before.flatMap Chunk.bytes).length + chunk.bytes.length) :=
      fun hall ↦ hcompletes ⟨finish, hevent, hall⟩
    have hsame : (finish ≤ min tokenProbeLimit
          ((before.flatMap Chunk.bytes).length + chunk.bytes.length)) ↔
        finish ≤ min tokenProbeLimit (before.flatMap Chunk.bytes).length := by omega
    rw [Option.filter_some, Option.filter_some]
    simp only [hsame]

/-- Assumes: a streaming attempt without a mark, whose status is below 400 where it is known. For
every response and every way to cut it, the mark is set by the chunk that completes the first event
with content, with the time of the chunk, and by no other; the earlier attempts keep theirs; and the
buffer is within the limit before, while and after the chunk is looked at. -/
theorem first_token_on_chunk (fromStr : List Char → Option JsonValue)
    (earlier : List UpstreamTiming) (timing : UpstreamTiming)
    (hmark : timing.firstTokenMs = none)
    (hstatus : ∀ status, timing.upstreamStatus = some status → status < 400)
    (before : List Chunk) (chunk : Chunk) (after : List Chunk) :
    let start : TrafficRequest := ⟨true, earlier ++ [timing]⟩
    let old := run fromStr start before
    let new := run fromStr start (before ++ [chunk])
    (CompletesEvent fromStr before chunk after →
        old.2.firstToken = none ∧
        new.2.firstToken = some (saturatingSubSigned 64 chunk.elapsedMs timing.startedElapsedMs)) ∧
      (¬ CompletesEvent fromStr before chunk after → new.2.firstToken = old.2.firstToken) ∧
      start.firstToken = none ∧
      new.2.upstreamTimings.dropLast = earlier ∧
      old.1.tokenPrefix.length ≤ tokenProbeLimit ∧
      (old.1.extend chunk.bytes).tokenPrefix.length ≤ tokenProbeLimit ∧
      new.1.tokenPrefix.length ≤ tokenProbeLimit := by
  intro start old new
  have hok : timing.upstreamStatus.any (fun status ↦ decide (400 ≤ status)) = false := by
    rcases hvalue : timing.upstreamStatus with _ | status
    · rfl
    · exact decide_eq_false (Nat.not_le.mpr (hstatus status hvalue))
  have hold : Tracks fromStr earlier timing before old := tracks_run hmark hok before
  have hnew : Tracks fromStr earlier timing (before ++ [chunk]) new :=
    tracks_run hmark hok (before ++ [chunk])
  refine ⟨fun hcompletes ↦ ?_, fun hcompletes ↦ ?_, ?_, ?_, hold.buffer_le.1,
    hold.buffer_le.2 chunk.bytes, hnew.buffer_le.1⟩
  · rw [hold.firstToken, hnew.firstToken]
    exact noted_of_completes hcompletes timing.startedElapsedMs
  · rw [hold.firstToken, hnew.firstToken]
    exact noted_of_not_completes hcompletes timing.startedElapsedMs
  · show (earlier ++ [timing]).getLast?.bind UpstreamTiming.firstTokenMs = none
    rw [List.getLast?_concat, Option.bind_some, hmark]
  · obtain ⟨last, htraffic, -⟩ := hnew.traffic
    rw [htraffic]
    exact List.dropLast_concat

/-- The data of an event with content, and what it means. -/
def sampleData : List Char :=
  "\x7b\"type\":\"response.output_text.delta\",\"delta\":\"hi\"\x7d".toList

def sampleFromStr (text : List Char) : Option JsonValue :=
  if text = sampleData then
    some (.object [("type".toList, .string "response.output_text.delta".toList),
      ("delta".toList, .string "hi".toList)])
  else none

/-- A comment, and the event but for the last byte of its separator. -/
def sampleChunk : Chunk :=
  ⟨(": ok\n\ndata: ".toList ++ sampleData ++ ['\r', '\n', '\r']).map
    fun character ↦ UInt8.ofNat character.toNat, 30⟩

theorem first_token_on_chunk_sample :
    CompletesEvent sampleFromStr [sampleChunk] ⟨[10], 50⟩ [⟨[10, 10], 90⟩] ∧
      (run sampleFromStr ⟨true, [] ++ [⟨10, none, none, some 200⟩]⟩
        ([sampleChunk] ++ [⟨[10], 50⟩])).2.firstToken = some 40 := by
  have hcompletes : CompletesEvent sampleFromStr [sampleChunk] ⟨[10], 50⟩ [⟨[10, 10], 90⟩] :=
    ⟨66, by decide +kernel, by decide, by decide +kernel, by decide +kernel⟩
  have hmark := (first_token_on_chunk sampleFromStr [] ⟨10, none, none, some 200⟩ rfl
    (fun status hstatus ↦ by cases hstatus; decide) [sampleChunk] ⟨[10], 50⟩
    [⟨[10, 10], 90⟩]).1 hcompletes
  exact ⟨hcompletes, hmark.2⟩

end Relayna.Proxy.RequestTiming

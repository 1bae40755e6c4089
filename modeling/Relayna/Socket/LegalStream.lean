import Relayna.Socket.FrameLimit

/-!
# Legal streams of frames

A stream of bytes is a sequence of frames, each a header and as many bytes of payload as the header
says. `headers` reads the headers that are complete in a stream, and `Faulty` says which header is
not legal after those before it. Neither knows of chunks, buffers or a remaining payload.

`frame_limit_exact` states that `FrameLimit` refuses exactly the streams with a faulty header,
counts the headers of the others, and keeps at most 14 bytes.
-/

set_option autoImplicit false
set_option relaxedAutoImplicit false

namespace Relayna.Socket

open Library.Feeding Library.MachineWord

/-! ### The headers of a stream -/

/-- The number that bytes denote, the highest first. -/
def bigEndian (bytes : List UInt8) : ℕ :=
  bytes.foldl (fun value byte ↦ value * 256 + byte.toNat) 0

/-- The size that a marker and its extension denote. -/
def sizeOf (marker : ℕ) (extension : List UInt8) : ℕ :=
  if extended marker = 0 then marker else bigEndian extension

/-- The header at the front of a stream, with the mask key that the direction calls for, and the
bytes after it. -/
def takeHeader (masked : Bool) : List UInt8 → Option (Header × List UInt8)
  | first :: second :: rest =>
    let marker := (second &&& 127).toNat
    if extended marker + keyLength masked ≤ rest.length then
      some (.ofBytes first second (sizeOf marker (rest.take (extended marker))),
        rest.drop (extended marker + keyLength masked))
    else none
  | _ => none

/-- A header takes bytes. -/
theorem length_lt_of_takeHeader {masked : Bool} {stream rest : List UInt8} {header : Header}
    (htake : takeHeader masked stream = some (header, rest)) : rest.length < stream.length := by
  unfold takeHeader at htake
  split at htake
  · dsimp only at htake
    split_ifs at htake
    obtain ⟨-, rfl⟩ := Prod.mk.inj (Option.some.inj htake)
    rw [List.length_drop, List.length_cons, List.length_cons]
    omega
  · cases htake

/-- The complete headers of a stream. -/
def headers (masked : Bool) (stream : List UInt8) : List Header :=
  match _htake : takeHeader masked stream with
  | none => []
  | some (header, rest) => header :: headers masked (rest.drop header.size)
termination_by stream.length
decreasing_by
  have hlt := length_lt_of_takeHeader _htake
  rw [List.length_drop]
  omega

theorem headers_of_none {masked : Bool} {stream : List UInt8}
    (htake : takeHeader masked stream = none) : headers masked stream = [] := by
  rw [headers]
  split
  · rfl
  · rename_i header rest hsome
    rw [htake] at hsome
    cases hsome

theorem headers_of_some {masked : Bool} {stream rest : List UInt8} {header : Header}
    (htake : takeHeader masked stream = some (header, rest)) :
    headers masked stream = header :: headers masked (rest.drop header.size) := by
  rw [headers]
  split
  · rename_i hnone
    rw [htake] at hnone
    cases hnone
  · rename_i found after hsome
    rw [htake] at hsome
    obtain ⟨rfl, rfl⟩ := Prod.mk.inj (Option.some.inj hsome)
    rfl

/-! ### What is legal -/

/-- The message that the frames so far leave open, by its bytes. -/
abbrev OpenMessage := Option ℕ

/-- The open message after one more header. -/
def OpenMessage.after (message : OpenMessage) (header : Header) : OpenMessage :=
  if header.opcode < 8 then
    if header.fin then none
    else some (if header.opcode = 0 then message.getD 0 + header.size else header.size)
  else message

/-- The size is not written in the shortest way. -/
def Header.nonMinimal (header : Header) : Prop :=
  (header.marker = 126 ∧ header.size < 126) ∨ (header.marker = 127 ∧ header.size < 65536)

/-- A header that is not legal in its direction, whatever comes before it. -/
def Misframed (masked : Bool) (header : Header) : Prop :=
  header.reserved = true ∨ header.masked ≠ masked ∨ header.nonMinimal ∨
    header.opcode ∉ [0, 1, 2, 8, 9, 10] ∨
    (header.opcode ∈ [8, 9, 10] ∧ (header.fin = false ∨ 125 < header.size))

/-- A continuation of no message, or a new message while one is open. -/
def Misplaced (message : OpenMessage) (header : Header) : Prop :=
  (header.opcode = 0 ∧ message = none) ∨ (header.opcode ∈ [1, 2] ∧ message ≠ none)

/-- A header that is not legal: misframed or misplaced, or a frame or message above the maximum. -/
def Illegal (max : ℕ) (masked : Bool) (message : OpenMessage) (header : Header) : Prop :=
  Misframed masked header ∨ Misplaced message header ∨ max < header.size ∨
    (header.opcode = 0 ∧ max < message.getD 0 + header.size)

/-- A header that is refused: as `Illegal`, but a size above `i64::MAX` is refused at every maximum,
and no message is above a maximum of `u64::MAX`. -/
def Refused (max : ℕ) (masked : Bool) (message : OpenMessage) (header : Header) : Prop :=
  Misframed masked header ∨ Misplaced message header ∨ max < header.size ∨ 2 ^ 63 ≤ header.size ∨
    (header.opcode = 0 ∧ max < message.getD 0 + header.size ∧ max < 2 ^ 64 - 1)

/-- Below `i64::MAX` the two are the same. -/
theorem refused_iff_illegal {max : ℕ} (hmax : max < 2 ^ 63) (masked : Bool) (message : OpenMessage)
    (header : Header) :
    Refused max masked message header ↔ Illegal max masked message header := by
  unfold Refused Illegal
  have hsize : 2 ^ 63 ≤ header.size → max < header.size := fun hlarge ↦ hmax.trans_le hlarge
  have hbound : max < 2 ^ 64 - 1 := hmax.trans (by decide)
  tauto

/-- A property of headers holds of one of them, after those before it. -/
def SomeHeader (bad : OpenMessage → Header → Prop) (found : List Header) : Prop :=
  ∃ before header rest, found = before ++ header :: rest ∧
    bad (before.foldl OpenMessage.after none) header

/-- A property of headers holds of one of them, when a message is open. -/
def someFrom (bad : OpenMessage → Header → Prop) : OpenMessage → List Header → Prop
  | _, [] => False
  | message, header :: found => bad message header ∨ someFrom bad (message.after header) found

theorem someFrom_iff (bad : OpenMessage → Header → Prop) (message : OpenMessage)
    (found : List Header) :
    someFrom bad message found ↔ ∃ before header rest, found = before ++ header :: rest ∧
      bad (before.foldl OpenMessage.after message) header := by
  induction found generalizing message with
  | nil =>
    refine iff_of_false id ?_
    rintro ⟨before, header, rest, hnil, -⟩
    exact List.append_ne_nil_of_right_ne_nil before (List.cons_ne_nil header rest) hnil.symm
  | cons first found ih =>
    rw [someFrom, ih]
    constructor
    · rintro (hbad | ⟨before, header, rest, rfl, hbad⟩)
      · exact ⟨[], first, found, rfl, hbad⟩
      · exact ⟨first :: before, header, rest, rfl, hbad⟩
    · rintro ⟨before, header, rest, hfound, hbad⟩
      rcases before with _ | ⟨other, before⟩
      · obtain ⟨rfl, -⟩ := List.cons.inj hfound
        exact .inl hbad
      · obtain ⟨rfl, hrest⟩ := List.cons.inj hfound
        exact .inr ⟨before, header, rest, hrest, hbad⟩

/-! ### Collecting a header -/

theorem takeHeader_append {masked : Bool} {stream rest : List UInt8} {header : Header}
    (htake : takeHeader masked stream = some (header, rest)) (more : List UInt8) :
    takeHeader masked (stream ++ more) = some (header, rest ++ more) := by
  unfold takeHeader at htake
  split at htake
  · rename_i first second tail
    dsimp only at htake
    split_ifs at htake with hcomplete
    obtain ⟨rfl, rfl⟩ := Prod.mk.inj (Option.some.inj htake)
    simp only [takeHeader, List.cons_append]
    rw [if_pos (by rw [List.length_append]; omega), List.take_append_of_le_length (by omega),
      List.drop_append_of_le_length hcomplete]
  · cases htake

/-- A header is complete at its last byte. -/
theorem takeHeader_snoc {masked : Bool} {buffer rest : List UInt8} {byte : UInt8} {header : Header}
    (hbuffer : takeHeader masked buffer = none)
    (htake : takeHeader masked (buffer ++ [byte]) = some (header, rest)) : rest = [] := by
  rcases buffer with _ | ⟨first, _ | ⟨second, tail⟩⟩
  · cases htake
  · simp only [List.cons_append, List.nil_append, takeHeader] at htake
    split_ifs at htake
    obtain ⟨-, rfl⟩ := Prod.mk.inj (Option.some.inj htake)
    exact List.drop_nil
  · simp only [List.cons_append, takeHeader, List.length_append, List.length_singleton]
      at htake hbuffer
    split_ifs at htake hbuffer
    obtain ⟨-, rfl⟩ := Prod.mk.inj (Option.some.inj htake)
    exact List.drop_eq_nil_of_le (by rw [List.length_append, List.length_singleton]; omega)

/-- The source reads a size like a number whose highest byte comes first. -/
theorem shiftOr_eq (bytes : List UInt8) (start : ℕ) :
    bytes.foldl (fun size byte ↦ (size <<< 8) ||| byte.toNat) start =
      bytes.foldl (fun value byte ↦ value * 256 + byte.toNat) start := by
  induction bytes generalizing start with
  | nil => rfl
  | cons byte bytes ih =>
    rw [List.foldl_cons, List.foldl_cons, ih]
    congr 1
    rw [← Nat.shiftLeft_add_eq_or_of_lt (UInt8.toNat_lt byte), Nat.shiftLeft_eq]

/-- The source collects a header until it is complete. -/
theorem FrameLimit.push_eq (limit : FrameLimit) (byte : UInt8) :
    limit.push byte =
      match takeHeader limit.masked (limit.header ++ [byte]) with
      | none => ({ limit with header := limit.header ++ [byte] }, none)
      | some (header, _) => { limit with header := limit.header ++ [byte] }.accept header := by
  unfold FrameLimit.push
  rcases limit.header ++ [byte] with _ | ⟨first, _ | ⟨second, tail⟩⟩
  · rfl
  · rfl
  · simp only [takeHeader, List.length_cons]
    by_cases hcomplete :
        extended (second &&& 127).toNat + keyLength limit.masked ≤ tail.length
    · rw [if_neg (by omega), if_pos hcomplete, shiftOr_eq, sizeOf]
      dsimp only
      split_ifs with hshort
      · rw [hshort]
        rfl
      · rfl
    · rw [if_pos (by omega), if_neg hcomplete]

/-- Assumes: a stream whose first header is not complete. It is kept. -/
theorem feed_of_incomplete (limit : FrameLimit) (bytes : List UInt8)
    (hremaining : limit.remaining = 0)
    (htake : takeHeader limit.masked (limit.header ++ bytes) = none) :
    feed FrameLimit.step limit bytes =
      ⟨{ limit with header := limit.header ++ bytes }, bytes.length, none⟩ := by
  induction bytes generalizing limit with
  | nil =>
    rw [List.append_nil]
    rfl
  | cons byte bytes ih =>
    have happend : limit.header ++ byte :: bytes = limit.header ++ [byte] ++ bytes :=
      List.append_cons _ _ _
    have hfront : takeHeader limit.masked (limit.header ++ [byte]) = none := by
      rcases hsome : takeHeader limit.masked (limit.header ++ [byte]) with _ | ⟨header, rest⟩
      · rfl
      · rw [happend, takeHeader_append hsome] at htake
        cases htake
    have hstep : limit.step byte = ({ limit with header := limit.header ++ [byte] }, none) := by
      rw [FrameLimit.step, if_neg (not_not.mpr hremaining), FrameLimit.push_eq, hfront]
    rw [happend] at htake
    rw [feed_cons_of_none _ hstep, ih { limit with header := limit.header ++ [byte] } hremaining
      htake, happend]
    rfl

/-- Assumes: a stream whose first header is complete. The header is taken, and then the rest. -/
theorem feed_of_complete (limit : FrameLimit) (bytes : List UInt8)
    (hremaining : limit.remaining = 0) (hbuffer : takeHeader limit.masked limit.header = none)
    {header : Header} {rest : List UInt8}
    (htake : takeHeader limit.masked (limit.header ++ bytes) = some (header, rest)) :
    ∃ used count,
      (∀ next error, { limit with header := used }.accept header = (next, some error) →
        feed FrameLimit.step limit bytes = ⟨next, count, some error⟩) ∧
      (∀ next, { limit with header := used }.accept header = (next, none) →
        feed FrameLimit.step limit bytes = (feed FrameLimit.step next rest).after count) := by
  induction bytes generalizing limit with
  | nil =>
    rw [List.append_nil, hbuffer] at htake
    cases htake
  | cons byte bytes ih =>
    have happend : limit.header ++ byte :: bytes = limit.header ++ [byte] ++ bytes :=
      List.append_cons _ _ _
    have hpush : limit.step byte = limit.push byte := if_neg (not_not.mpr hremaining)
    rw [FrameLimit.push_eq] at hpush
    rw [happend] at htake
    rcases hfront : takeHeader limit.masked (limit.header ++ [byte]) with _ | ⟨found, after⟩
    · rw [hfront] at hpush
      obtain ⟨used, count, herror, hnext⟩ :=
        ih { limit with header := limit.header ++ [byte] } hremaining hfront htake
      refine ⟨used, count + 1, fun next error haccept ↦ ?_, fun next haccept ↦ ?_⟩
      · rw [feed_cons_of_none _ hpush, herror next error haccept]
        rfl
      · rw [feed_cons_of_none _ hpush, hnext next haccept, Outcome.after_after]
    · rw [takeHeader_append hfront, Option.some.injEq, Prod.mk.injEq] at htake
      obtain ⟨rfl, hrest⟩ := htake
      rw [takeHeader_snoc hbuffer hfront, List.nil_append] at hrest
      subst hrest
      rw [hfront] at hpush
      refine ⟨limit.header ++ [byte], 1, fun next error haccept ↦ ?_, fun next haccept ↦ ?_⟩
      · exact feed_cons_of_some _ (hpush.trans haccept)
      · exact feed_cons_of_none _ (hpush.trans haccept)

/-! ### Judging a header -/

/-- The limit knows the open message, up to what a `u64` can hold. -/
structure Follows (limit : FrameLimit) (message : OpenMessage) : Prop where
  fragmented : limit.fragmented = message.isSome
  messageBytes : limit.messageBytes = min (message.getD 0) (2 ^ 64 - 1)

/-- The limit after a header that is not refused. -/
def FrameLimit.accepted (limit : FrameLimit) (message : OpenMessage) (header : Header) :
    FrameLimit :=
  { limit with
    fragmented := (message.after header).isSome
    messageBytes := min ((message.after header).getD 0) (2 ^ 64 - 1)
    frames := saturatingAdd 64 limit.frames 1
    closeSeen := limit.closeSeen || header.opcode == 8
    remaining := header.size
    header := [] }

/-- A frame has its place: its opcode is known, a control frame is whole and short, a continuation
has a message to continue, and no message begins while one is open. -/
def Placed (message : OpenMessage) (header : Header) : Prop :=
  header.opcode ∈ [0, 1, 2, 8, 9, 10] ∧
    (header.opcode ∈ [8, 9, 10] → header.fin = true ∧ header.size ≤ 125) ∧
    ¬ Misplaced message header

/-- The bytes of a message after one more frame. -/
def OpenMessage.extend (message : OpenMessage) (header : Header) : ℕ :=
  if header.opcode = 0 then message.getD 0 + header.size
  else if header.opcode < 8 then header.size
  else message.getD 0

/-- Assumes: a limit that knows the open message, and a frame that has its place. The message is
extended. -/
theorem extendMessage_of_placed {limit : FrameLimit} {message : OpenMessage} {header : Header}
    (hfollows : Follows limit message) (hplaced : Placed message header)
    (hsize : header.size < 2 ^ 63) :
    limit.extendMessage header = some (min (message.extend header) (2 ^ 64 - 1)) := by
  obtain ⟨hfragmented, hbytes⟩ := hfollows
  obtain ⟨hopcode, hcontrol, hplaced⟩ := hplaced
  unfold Misplaced at hplaced
  rw [not_or] at hplaced
  unfold FrameLimit.extendMessage OpenMessage.extend
  rw [hfragmented, hbytes]
  by_cases hcontinuation : header.opcode = 0
  · rcases message with _ | total
    · exact absurd ⟨hcontinuation, rfl⟩ hplaced.1
    · rw [if_pos ⟨hcontinuation, rfl⟩, if_pos hcontinuation, Option.getD_some, saturatingAdd]
      congr 1
      omega
  · rw [if_neg fun hzero ↦ hcontinuation hzero.1, if_neg hcontinuation]
    by_cases hdata : header.opcode < 8
    · have hlisted : header.opcode = 1 ∨ header.opcode = 2 := by
        simp only [List.mem_cons, List.not_mem_nil, or_false] at hopcode
        omega
      rcases message with _ | total
      · rw [if_pos ⟨hlisted, rfl⟩, if_pos hdata]
        congr 1
        omega
      · exact absurd ⟨by simpa using hlisted, by simp⟩ hplaced.2
    · have hlisted : header.opcode ∈ [8, 9, 10] := by
        simp only [List.mem_cons, List.not_mem_nil, or_false] at hopcode ⊢
        omega
      have hrange : 8 ≤ header.opcode ∧ header.opcode ≤ 10 := by
        simp only [List.mem_cons, List.not_mem_nil, or_false] at hlisted
        omega
      rw [if_neg (by omega), if_pos ⟨hrange, hcontrol hlisted⟩, if_neg hdata]

/-- Assumes: a limit that knows the open message, and a frame that has no place. It is found. -/
theorem extendMessage_of_not_placed {limit : FrameLimit} {message : OpenMessage} {header : Header}
    (hfollows : Follows limit message) (hplaced : ¬ Placed message header) :
    limit.extendMessage header = none := by
  unfold FrameLimit.extendMessage
  rw [hfollows.fragmented, if_neg, if_neg, if_neg]
  · rintro ⟨⟨hlow, hhigh⟩, hwhole⟩
    have hlisted : header.opcode ∈ [8, 9, 10] := by
      simp only [List.mem_cons, List.not_mem_nil, or_false]
      omega
    refine hplaced ⟨List.mem_cons_of_mem _
      (List.mem_cons_of_mem _ (List.mem_cons_of_mem _ hlisted)),
      fun _ ↦ hwhole, ?_⟩
    rintro (⟨hzero, -⟩ | ⟨hdata, -⟩)
    · omega
    · simp only [List.mem_cons, List.not_mem_nil, or_false] at hdata
      omega
  · rintro ⟨hdata, hclosed⟩
    rcases message with _ | total
    · refine hplaced ⟨?_, fun hcontrol ↦ ?_, ?_⟩
      · simp only [List.mem_cons, List.not_mem_nil, or_false]
        omega
      · simp only [List.mem_cons, List.not_mem_nil, or_false] at hcontrol
        omega
      · rintro (⟨hzero, -⟩ | ⟨-, hopen⟩)
        · omega
        · exact hopen rfl
    · cases hclosed
  · rintro ⟨hzero, hopen⟩
    refine hplaced ⟨by simp [hzero], fun hcontrol ↦ ?_, ?_⟩
    · simp [hzero] at hcontrol
    · rintro (⟨-, hclosed⟩ | ⟨hdata, -⟩)
      · rw [hclosed] at hopen
        cases hopen
      · simp [hzero] at hdata

/-- A header is refused when it is invalid, has no place, or makes its message too long. -/
theorem refused_iff {limit : FrameLimit} {message : OpenMessage} {header : Header} :
    Refused limit.max limit.masked message header ↔
      limit.invalid header ∨ ¬ Placed message header ∨
        (header.opcode < 8 ∧ limit.max < min (message.extend header) (2 ^ 64 - 1)) := by
  have hplaced : ¬ Placed message header ↔ header.opcode ∉ [0, 1, 2, 8, 9, 10] ∨
      (header.opcode ∈ [8, 9, 10] ∧ (header.fin = false ∨ 125 < header.size)) ∨
      Misplaced message header := by
    rw [Placed, not_and_or, not_and_or, not_not, Classical.not_imp, not_and_or, Bool.not_eq_true,
      not_le]
  have hlong : (header.opcode < 8 ∧ limit.max < min (message.extend header) (2 ^ 64 - 1)) ↔
      (header.opcode = 0 ∧ limit.max < message.getD 0 + header.size ∧ limit.max < 2 ^ 64 - 1) ∨
        (header.opcode ≠ 0 ∧ header.opcode < 8 ∧ limit.max < header.size ∧
          limit.max < 2 ^ 64 - 1) := by
    rw [lt_min_iff]
    unfold OpenMessage.extend
    split_ifs <;> omega
  have hsize : 2 ^ 63 - 1 < header.size ↔ 2 ^ 63 ≤ header.size := by omega
  have hshortest : header.size ≤ 65535 ↔ header.size < 65536 := by omega
  rw [hplaced, hlong]
  unfold Refused Misframed FrameLimit.invalid Header.nonMinimal
  rw [hsize, hshortest]
  constructor
  · rintro ((hbad | hbad | (hbad | hbad) | hbad | hbad) | hbad | hbad | hbad | hbad)
    all_goals simp only [hbad, true_or, or_true, ne_eq, not_false_eq_true, and_self]
  · rintro ((hbad | hbad | hbad | hbad | hbad | hbad) | (hbad | hbad | hbad) | hbad | hbad)
    all_goals simp only [hbad, true_or, or_true, ne_eq, not_false_eq_true, and_self]

/-- Assumes: a limit that knows the open message. A header that is to be refused is an error. -/
theorem accept_of_refused {limit : FrameLimit} {message : OpenMessage} {header : Header}
    (hfollows : Follows limit message)
    (hrefused : Refused limit.max limit.masked message header) :
    ∃ next error, limit.accept header = (next, some error) := by
  unfold FrameLimit.accept
  by_cases hinvalid : limit.invalid header
  · rw [if_pos hinvalid]
    exact ⟨_, _, rfl⟩
  · rw [if_neg hinvalid]
    by_cases hplaced : Placed message header
    · have hsize : header.size < 2 ^ 63 := by
        unfold FrameLimit.invalid at hinvalid
        omega
      rw [extendMessage_of_placed hfollows hplaced hsize]
      dsimp only
      rcases refused_iff.mp hrefused with hbad | hbad | hbad
      · exact absurd hbad hinvalid
      · exact absurd hplaced hbad
      · rw [if_pos hbad]
        exact ⟨_, _, rfl⟩
    · rw [extendMessage_of_not_placed hfollows hplaced]
      exact ⟨_, _, rfl⟩

/-- Assumes: a limit that knows the open message. A header that is not to be refused is accepted. -/
theorem accept_of_not_refused {limit : FrameLimit} {message : OpenMessage} {header : Header}
    (hfollows : Follows limit message)
    (hlegal : ¬ Refused limit.max limit.masked message header) :
    limit.accept header = (limit.accepted message header, none) := by
  rw [refused_iff, not_or, not_or, not_not] at hlegal
  obtain ⟨hvalid, hplaced, hshort⟩ := hlegal
  have hsize : header.size < 2 ^ 63 := by
    unfold FrameLimit.invalid at hvalid
    omega
  unfold FrameLimit.accept
  rw [if_neg hvalid, extendMessage_of_placed hfollows hplaced hsize]
  dsimp only
  rw [if_neg hshort, hfollows.fragmented]
  unfold FrameLimit.accepted OpenMessage.after OpenMessage.extend
  by_cases hdata : header.opcode < 8
  · rcases hfin : header.fin with _ | _
    · simp [hdata]
    · simp [hdata]
  · have hcontrol : header.opcode ≠ 0 := by omega
    simp [hdata, hcontrol]

/-! ### Whole streams -/

/-- What a limit that is between two frames makes of a stream. -/
structure Judged (limit : FrameLimit) (found : List Header) (message : OpenMessage)
    (outcome : Outcome FrameLimit FrameError) : Prop where
  error : outcome.error ≠ none ↔ someFrom (Refused limit.max limit.masked) message found
  frames : outcome.error = none →
    outcome.state.frames = min (limit.frames + found.length) (2 ^ 64 - 1)
  closeSeen : outcome.error = none →
    outcome.state.closeSeen = (limit.closeSeen || found.any fun header ↦ header.opcode == 8)

/-- Assumes: a header that is not refused, and the judgement of what comes after it. It is the
judgement of both. -/
theorem Judged.cons {limit : FrameLimit} {found : List Header} {message : OpenMessage}
    {header : Header} {outcome : Outcome FrameLimit FrameError} (remaining : ℕ)
    (hlegal : ¬ Refused limit.max limit.masked message header)
    (hjudged : Judged { limit.accepted message header with remaining } found
      (message.after header) outcome) (count : ℕ) :
    Judged limit (header :: found) message (outcome.after count) := by
  constructor
  · rw [Outcome.after_error, hjudged.error, someFrom]
    exact ⟨.inr, fun hsome ↦ hsome.resolve_left hlegal⟩
  · intro hnone
    rw [Outcome.after_state, hjudged.frames hnone, List.length_cons]
    simp only [FrameLimit.accepted, saturatingAdd]
    omega
  · intro hnone
    rw [Outcome.after_state, hjudged.closeSeen hnone, List.any_cons, ← Bool.or_assoc]
    rfl

/-- Nothing is in the rest of a payload. -/
theorem judged_nil (limit : FrameLimit) (message : OpenMessage)
    (hframes : limit.frames ≤ 2 ^ 64 - 1)
    (state : FrameLimit) (taken : ℕ) (hstate : state.frames = limit.frames)
    (hclose : state.closeSeen = limit.closeSeen) :
    Judged limit [] message ⟨state, taken, none⟩ := by
  refine ⟨iff_of_false (fun hsome ↦ hsome rfl) id, fun _ ↦ ?_, fun _ ↦ ?_⟩
  · exact hstate.trans (min_eq_left hframes).symm
  · exact hclose.trans (Bool.or_false _).symm

/-- Assumes: a limit between two frames that knows the open message. It judges a stream by its
headers. -/
theorem judged_feed (stream : List UInt8) (limit : FrameLimit) (message : OpenMessage)
    (hheader : limit.header = []) (hremaining : limit.remaining = 0)
    (hframes : limit.frames ≤ 2 ^ 64 - 1) (hfollows : Follows limit message) :
    Judged limit (headers limit.masked stream) message (feed FrameLimit.step limit stream) := by
  induction hlength : stream.length using Nat.strong_induction_on
    generalizing stream limit message with
  | _ length ih =>
    have hnil : takeHeader limit.masked limit.header = none := by
      rw [hheader]
      rfl
    rcases htake : takeHeader limit.masked stream with _ | ⟨header, rest⟩
    · rw [headers_of_none htake, feed_of_incomplete limit stream hremaining (by
        rw [hheader]
        exact htake)]
      exact judged_nil limit message hframes _ _ rfl rfl
    · rw [headers_of_some htake]
      obtain ⟨used, count, herror, hnext⟩ := feed_of_complete limit stream hremaining hnil (by
        rw [hheader]
        exact htake)
      have hfollows' : Follows { limit with header := used } message :=
        ⟨hfollows.fragmented, hfollows.messageBytes⟩
      by_cases hrefused : Refused limit.max limit.masked message header
      · obtain ⟨next, error, haccept⟩ := accept_of_refused hfollows' hrefused
        rw [herror next error haccept]
        refine ⟨iff_of_true (Option.some_ne_none error) (.inl hrefused), fun hnone ↦ ?_,
          fun hnone ↦ ?_⟩
        · cases hnone
        · cases hnone
      · rw [hnext _ (accept_of_not_refused hfollows' hrefused)]
        have hnextFrames : (limit.accepted message header).frames ≤ 2 ^ 64 - 1 :=
          Nat.min_le_right _ _
        by_cases hpayload : header.size ≤ rest.length
        · rw [feed_skip header.size _ rest (Nat.le_refl _) hpayload, Outcome.after_after]
          refine Judged.cons (header.size - header.size) hrefused ?_ _
          refine ih (rest.drop header.size).length ?_ (rest.drop header.size) _ _ rfl
            (Nat.sub_self _) hnextFrames ⟨rfl, rfl⟩ rfl
          have hlt := length_lt_of_takeHeader htake
          rw [List.length_drop]
          omega
        · have hrest : rest.drop header.size = [] := List.drop_eq_nil_of_le (by omega)
          rw [feed_skip rest.length _ rest (by simp only [FrameLimit.accepted]; omega)
            (Nat.le_refl _), Outcome.after_after, List.drop_length, hrest, headers_of_none rfl]
          refine Judged.cons header.size hrefused ?_ _
          exact judged_nil _ _ hnextFrames _ _ rfl rfl

/-! ### The buffer -/

/-- A header that is not complete has at most 13 bytes. -/
theorem length_lt_of_incomplete {masked : Bool} {buffer : List UInt8}
    (hbuffer : takeHeader masked buffer = none) : buffer.length < 14 := by
  unfold takeHeader at hbuffer
  split at hbuffer
  · dsimp only at hbuffer
    split_ifs at hbuffer with hcomplete
    rw [List.length_cons, List.length_cons]
    unfold extended keyLength at hcomplete
    split_ifs at hcomplete <;> omega
  · rename_i hshort
    rcases buffer with _ | ⟨first, _ | ⟨second, rest⟩⟩
    · exact Nat.zero_lt_succ _
    · rw [List.length_singleton]
      omega
    · exact absurd rfl (hshort first second rest)

/-- A complete header is dropped, or kept with an error. -/
theorem accept_header (limit : FrameLimit) (header : Header) :
    (limit.accept header).1.header = [] ∨
      ((limit.accept header).2 ≠ none ∧ (limit.accept header).1.header = limit.header) := by
  unfold FrameLimit.accept
  by_cases hinvalid : limit.invalid header
  · rw [if_pos hinvalid]
    exact .inr ⟨Option.some_ne_none _, rfl⟩
  · rw [if_neg hinvalid]
    rcases limit.extendMessage header with _ | messageBytes
    · exact .inr ⟨Option.some_ne_none _, rfl⟩
    · dsimp only
      by_cases hlong : header.opcode < 8 ∧ limit.max < messageBytes
      · rw [if_pos hlong]
        exact .inr ⟨Option.some_ne_none _, rfl⟩
      · rw [if_neg hlong]
        exact .inl rfl

/-- What a byte does to the buffer: it stays, or the byte is added and then the header may be
dropped. -/
theorem step_header (limit : FrameLimit) (byte : UInt8)
    (hbuffer : takeHeader limit.masked limit.header = none) :
    (limit.step byte).1.header.length ≤ 14 ∧
      ((limit.step byte).2 = none →
        takeHeader (limit.step byte).1.masked (limit.step byte).1.header = none) := by
  have hshort := length_lt_of_incomplete hbuffer
  unfold FrameLimit.step
  by_cases hremaining : limit.remaining ≠ 0
  · rw [if_pos hremaining]
    exact ⟨hshort.le, fun _ ↦ hbuffer⟩
  · rw [if_neg hremaining, FrameLimit.push_eq]
    have hpushed : (limit.header ++ [byte]).length ≤ 14 := by
      rw [List.length_append, List.length_singleton]
      omega
    rcases htake : takeHeader limit.masked (limit.header ++ [byte]) with _ | ⟨header, rest⟩
    · exact ⟨hpushed, fun _ ↦ htake⟩
    · dsimp only
      rcases accept_header { limit with header := limit.header ++ [byte] } header with
        hnil | ⟨herror, hkept⟩
      · rw [hnil]
        exact ⟨Nat.zero_le _, fun _ ↦ rfl⟩
      · rw [hkept]
        exact ⟨hpushed, fun hnone ↦ absurd hnone herror⟩

/-! ### Chunks -/

/-- Feeding the chunks of a stream to a new limit. -/
def FrameLimit.run (max : ℕ) (masked : Bool) (chunks : List (List UInt8)) :
    Outcome FrameLimit FrameError :=
  feedChunks FrameLimit.feed (.new max masked) chunks

/-- A new limit judges a stream by its headers, from no open message. -/
theorem judged_run (max : ℕ) (masked : Bool) (chunks : List (List UInt8)) :
    Judged (.new max masked) (headers masked chunks.flatten) none
      (FrameLimit.run max masked chunks) := by
  unfold FrameLimit.run
  rw [feedChunks_eq_feed]
  exact judged_feed chunks.flatten (.new max masked) none rfl rfl (Nat.zero_le _) ⟨rfl, rfl⟩

/-- However a stream is cut into chunks, a limit has the outcome of the stream as a whole: the
error, the byte at which it was found, and the state. It is an error exactly when a complete header
is refused after those before it; below `i64::MAX` these are the headers that are not legal.
Otherwise the complete headers were counted, and a close was seen when there is one. At most 14
bytes are kept. -/
theorem frame_limit_exact (max : ℕ) (masked : Bool) (chunks : List (List UInt8)) :
    FrameLimit.run max masked chunks = FrameLimit.feed (.new max masked) chunks.flatten ∧
    ((FrameLimit.run max masked chunks).error ≠ none ↔
      SomeHeader (Refused max masked) (headers masked chunks.flatten)) ∧
    (max < 2 ^ 63 → ((FrameLimit.run max masked chunks).error ≠ none ↔
      SomeHeader (Illegal max masked) (headers masked chunks.flatten))) ∧
    ((FrameLimit.run max masked chunks).error = none →
      (FrameLimit.run max masked chunks).state.frames =
          min (headers masked chunks.flatten).length (2 ^ 64 - 1) ∧
        ((FrameLimit.run max masked chunks).state.closeSeen = true ↔
          ∃ header ∈ headers masked chunks.flatten, header.opcode = 8)) ∧
    (FrameLimit.run max masked chunks).state.header.length ≤ 14 := by
  have hjudged := judged_run max masked chunks
  have hrefused : (FrameLimit.run max masked chunks).error ≠ none ↔
      SomeHeader (Refused max masked) (headers masked chunks.flatten) :=
    hjudged.error.trans (someFrom_iff _ _ _)
  refine ⟨?_, hrefused, fun hmax ↦ ?_, fun hnone ↦ ⟨?_, ?_⟩, ?_⟩
  · rw [FrameLimit.feed_eq]
    exact feedChunks_eq_feed _ chunks
  · have hsame : Refused max masked = Illegal max masked := by
      funext message header
      exact propext (refused_iff_illegal hmax masked message header)
    rw [hrefused, hsame]
  · rw [hjudged.frames hnone]
    exact congrArg (min · (2 ^ 64 - 1)) (Nat.zero_add _)
  · rw [hjudged.closeSeen hnone]
    simp [FrameLimit.new]
  · unfold FrameLimit.run
    rw [feedChunks_eq_feed]
    exact feed_invariant (fun limit byte hbuffer ↦ (step_header limit byte hbuffer).2)
      (fun limit byte hbuffer ↦ (step_header limit byte hbuffer).1)
      (fun _ hbuffer ↦ (length_lt_of_incomplete hbuffer).le) rfl chunks.flatten

/-- A frame of `2 ^ 63` bytes is refused at the largest maximum, and its header is legal. -/
theorem large_frame_refused :
    ¬ ((FrameLimit.run (2 ^ 64 - 1) false [[130, 127, 128, 0, 0, 0, 0, 0, 0, 0]]).error ≠ none ↔
      SomeHeader (Illegal (2 ^ 64 - 1) false)
        (headers false [130, 127, 128, 0, 0, 0, 0, 0, 0, 0])) := by
  have herror : (FrameLimit.run (2 ^ 64 - 1) false
      [[130, 127, 128, 0, 0, 0, 0, 0, 0, 0]]).error ≠ none := by
    unfold FrameLimit.run
    rw [feedChunks_eq_feed]
    decide
  have hheaders : headers false [130, 127, 128, 0, 0, 0, 0, 0, 0, 0] =
      [⟨true, false, 2, false, 127, 2 ^ 63⟩] := by
    rw [headers_of_some (show takeHeader false [130, 127, 128, 0, 0, 0, 0, 0, 0, 0] =
      some (⟨true, false, 2, false, 127, 2 ^ 63⟩, []) by decide), List.drop_nil,
      headers_of_none rfl]
  rw [hheaders, SomeHeader, ← someFrom_iff]
  intro hclaim
  rcases hclaim.mp herror with hillegal | hnone
  · revert hillegal
    unfold Illegal Misframed Misplaced Header.nonMinimal
    decide
  · exact hnone

end Relayna.Socket

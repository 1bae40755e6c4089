import Relayna.Library.Feeding
import Relayna.Library.MachineWord

/-!
# Frame limits

`FrameLimit` of `crates/gateway-proxy/src/accessa_transport.rs`: the headers of the frames of a
WebSocket stream are collected and checked, and payloads are skipped. A stream comes in chunks that
are cut anywhere; `feedChunks_eq_feed` says that the cuts make no difference.

`FrameLimit.feed` also says how many bytes of the chunk were taken, so that the byte at which a
stream is refused can be told.
-/

set_option autoImplicit false
set_option relaxedAutoImplicit false

namespace Relayna.Socket

open Library.Feeding Library.MachineWord

/-- The errors of `GatewayError` that a stream is refused with. -/
inductive FrameError
  | requestBodyTooLarge
  | invalidServicePayload
  deriving DecidableEq

structure FrameLimit where
  frames : ℕ
  closeSeen : Bool
  header : List UInt8
  remaining : ℕ
  messageBytes : ℕ
  fragmented : Bool
  max : ℕ
  masked : Bool
  deriving DecidableEq

def FrameLimit.new (max : ℕ) (masked : Bool) : FrameLimit where
  frames := 0
  closeSeen := false
  header := []
  remaining := 0
  messageBytes := 0
  fragmented := false
  max := max
  masked := masked

/-- What a complete header says. -/
structure Header where
  fin : Bool
  reserved : Bool
  opcode : ℕ
  masked : Bool
  marker : ℕ
  size : ℕ
  deriving DecidableEq

/-- How many bytes extend the size. -/
def extended (marker : ℕ) : ℕ :=
  if marker = 126 then 2 else if marker = 127 then 8 else 0

/-- The bytes of the mask key. -/
def keyLength (masked : Bool) : ℕ :=
  if masked then 4 else 0

/-- The header that two bytes and the extension of the size denote. -/
def Header.ofBytes (first second : UInt8) (size : ℕ) : Header where
  fin := first &&& 128 ≠ 0
  reserved := first &&& 112 ≠ 0
  opcode := (first &&& 15).toNat
  masked := second &&& 128 ≠ 0
  marker := (second &&& 127).toNat
  size := size

/-- The first check of a complete header. -/
def FrameLimit.invalid (limit : FrameLimit) (header : Header) : Prop :=
  header.reserved ∨ header.masked ≠ limit.masked ∨ limit.max < header.size ∨
    2 ^ 63 - 1 < header.size ∨ (header.marker = 126 ∧ header.size < 126) ∨
    (header.marker = 127 ∧ header.size ≤ 65535)

instance FrameLimit.instDecidableInvalid (limit : FrameLimit) (header : Header) :
    Decidable (limit.invalid header) :=
  inferInstanceAs (Decidable (_ ∨ _))

/-- The bytes of the message with a frame, none when its opcode has no place. -/
def FrameLimit.extendMessage (limit : FrameLimit) (header : Header) : Option ℕ :=
  if header.opcode = 0 ∧ limit.fragmented then
    some (saturatingAdd 64 limit.messageBytes header.size)
  else if (header.opcode = 1 ∨ header.opcode = 2) ∧ limit.fragmented = false then
    some header.size
  else if (8 ≤ header.opcode ∧ header.opcode ≤ 10) ∧ header.fin ∧ header.size ≤ 125 then
    some limit.messageBytes
  else none

/-- What the source does with a complete header. -/
def FrameLimit.accept (limit : FrameLimit) (header : Header) : FrameLimit × Option FrameError :=
  if limit.invalid header then (limit, some .requestBodyTooLarge)
  else
    match limit.extendMessage header with
    | none => (limit, some .invalidServicePayload)
    | some messageBytes =>
      if header.opcode < 8 ∧ limit.max < messageBytes then
        ({ limit with messageBytes }, some .requestBodyTooLarge)
      else
        ({ limit with
            fragmented := if header.opcode < 8 then !header.fin else limit.fragmented
            messageBytes := if header.opcode < 8 ∧ header.fin then 0 else messageBytes
            frames := saturatingAdd 64 limit.frames 1
            closeSeen := limit.closeSeen || header.opcode == 8
            remaining := header.size
            header := [] }, none)

/-- What the source does with a byte of a header. -/
def FrameLimit.push (limit : FrameLimit) (byte : UInt8) : FrameLimit × Option FrameError :=
  let limit := { limit with header := limit.header ++ [byte] }
  match limit.header with
  | first :: second :: rest =>
    let marker := (second &&& 127).toNat
    if limit.header.length < 2 + extended marker + keyLength limit.masked then (limit, none)
    else
      let start := if extended marker = 0 then marker else 0
      let size := (rest.take (extended marker)).foldl
        (fun size byte ↦ (size <<< 8) ||| byte.toNat) start
      limit.accept (.ofBytes first second size)
  | _ => (limit, none)

def FrameLimit.feed (limit : FrameLimit) (bytes : List UInt8) : Outcome FrameLimit FrameError :=
  match bytes with
  | [] => ⟨limit, 0, none⟩
  | byte :: rest =>
    if limit.remaining ≠ 0 then
      let skip := min limit.remaining (byte :: rest).length
      (FrameLimit.feed { limit with remaining := limit.remaining - skip }
        ((byte :: rest).drop skip)).after skip
    else
      match limit.push byte with
      | (limit, some error) => ⟨limit, 1, some error⟩
      | (limit, none) => (FrameLimit.feed limit rest).after 1
termination_by bytes.length
decreasing_by
  · rw [List.length_drop, List.length_cons]
    omega
  · exact Nat.lt_succ_self _

/-! ### One byte at a time -/

/-- The next byte, of a payload or of a header. -/
def FrameLimit.step (limit : FrameLimit) (byte : UInt8) : FrameLimit × Option FrameError :=
  if limit.remaining ≠ 0 then ({ limit with remaining := limit.remaining - 1 }, none)
  else limit.push byte

/-- Payload bytes are skipped. -/
theorem feed_skip (count : ℕ) (limit : FrameLimit) (bytes : List UInt8)
    (hremaining : count ≤ limit.remaining) (hbytes : count ≤ bytes.length) :
    feed FrameLimit.step limit bytes =
      (feed FrameLimit.step { limit with remaining := limit.remaining - count }
        (bytes.drop count)).after count := by
  induction count generalizing limit bytes with
  | zero => rfl
  | succ count ih =>
    rcases bytes with _ | ⟨byte, bytes⟩
    · exact absurd hbytes (Nat.not_succ_le_zero count)
    · have hstep : limit.step byte = ({ limit with remaining := limit.remaining - 1 }, none) :=
        if_pos (by omega)
      have hrest : limit.remaining - 1 - count = limit.remaining - (count + 1) := by omega
      rw [feed_cons_of_none _ hstep, ih { limit with remaining := limit.remaining - 1 } bytes
        (Nat.le_sub_one_of_lt hremaining) (Nat.le_of_succ_le_succ hbytes), hrest,
        Outcome.after_after, List.drop_succ_cons]

/-- The source feeds a chunk like its bytes. -/
theorem FrameLimit.feed_eq (limit : FrameLimit) (bytes : List UInt8) :
    limit.feed bytes = Library.Feeding.feed FrameLimit.step limit bytes := by
  induction limit, bytes using FrameLimit.feed.induct with
  | case1 limit =>
    rw [FrameLimit.feed]
    rfl
  | case2 limit byte rest hremaining skip ih =>
    rw [FrameLimit.feed, if_pos hremaining]
    dsimp only
    rw [ih]
    exact (feed_skip skip limit (byte :: rest) (Nat.min_le_left _ _) (Nat.min_le_right _ _)).symm
  | case3 limit byte rest hremaining next error hpush =>
    have hstep : limit.step byte = (next, some error) := (if_neg hremaining).trans hpush
    rw [FrameLimit.feed, if_neg hremaining, hpush, feed_cons_of_some _ hstep]
  | case4 limit byte rest hremaining next hpush ih =>
    have hstep : limit.step byte = (next, none) := (if_neg hremaining).trans hpush
    rw [FrameLimit.feed, if_neg hremaining, hpush, feed_cons_of_none _ hstep, ← ih]

/-- However a stream is cut into chunks, it has the outcome of its bytes. -/
theorem feedChunks_eq_feed (limit : FrameLimit) (chunks : List (List UInt8)) :
    feedChunks FrameLimit.feed limit chunks =
      Library.Feeding.feed FrameLimit.step limit chunks.flatten :=
  feedChunks_eq FrameLimit.feed_eq limit chunks

end Relayna.Socket

import Relayna.ResponseCost.Reading

/-!
# What the observer keeps

The memory of the observer is bounded whatever it is fed and whatever the parser makes of a key:
`bounded_run` is about every state that the calls of `feed` and `finish` lead to, a failed one
included. A byte changes the open containers in one of three ways (`Shift`), so a bound on them
needs to be looked at only where a container opens.
-/

set_option autoImplicit false
set_option relaxedAutoImplicit false

namespace Relayna.ResponseCost

open Relayna.Library.Json

variable {F64 : Type}

/-! ### Calls -/

inductive Call
  | feed (bytes : List UInt8)
  | finish

def Call.bytes : Call → List UInt8
  | .feed bytes => bytes
  | .finish => []

namespace Observer

/-- The observer after a call. -/
def call (serde : Serde F64) (observer : Observer F64) : Call → Observer F64
  | .feed bytes => observer.feed serde bytes
  | .finish => observer.finish serde

/-- A new observer after several calls. -/
def run (serde : Serde F64) (calls : List Call) : Observer F64 :=
  calls.foldl (call serde) new

theorem run_snoc (serde : Serde F64) (calls : List Call) (last : Call) :
    run serde (calls ++ [last]) = (run serde calls).call serde last := by
  unfold run
  rw [List.foldl_append, List.foldl_cons, List.foldl_nil]

/-! ### The open containers after a byte -/

/-- The paths of the open containers, the innermost one first. -/
def paths (observer : Observer F64) : List Path :=
  observer.stack.map Frame.path

theorem length_paths (observer : Observer F64) :
    observer.paths.length = observer.stack.length :=
  List.length_map _

/-- What a byte does to the open containers: they stay, the innermost one ends, or one opens inside
them. Only a brace or a bracket opens one, and not inside 128 others. -/
inductive Shift (observer : Observer F64) (byte : UInt8) (next : Observer F64) : Prop
  | kept (hpaths : next.paths = observer.paths)
  | popped (path : Path) (hpaths : observer.paths = path :: next.paths)
  | pushed (path : Path) (hpaths : next.paths = path :: observer.paths)
      (hroom : observer.started = false ∨ observer.stack.length < 128)
      (hbyte : byte = openBrace ∨ byte = openBracket) (hfailed : next.failed = observer.failed)

/-- What a byte between tokens does: to the containers, to the token, and that it starts the
document unless it is white space. -/
structure Moves (observer : Observer F64) (byte : UInt8) (next : Observer F64) : Prop where
  shift : Shift observer byte next
  token : next.token = observer.token ∨ (∃ key, next.token = some (.string (.new key))) ∨
    (beginsScalar byte ∧ ∃ path, next.token = some (.scalar (.new byte) path))
  started : next.started = false → observer.started = false ∧ next.stack = observer.stack

/-- A value leaves the paths of the containers around it. -/
theorem valuePath_cases {observer : Observer F64} {taken : Path × Observer F64}
    (htaken : observer.valuePath = some taken) :
    taken.2.paths = observer.paths ∧ taken.2.token = observer.token ∧
      taken.2.started = observer.started ∧ taken.2.failed = observer.failed := by
  unfold valuePath at htaken
  split at htaken
  · cases htaken
  · next frame stack hstack =>
    obtain ⟨step, htake, rfl⟩ := Option.map_eq_some_iff.mp htaken
    have hpath : step.2.path = frame.path := by
      unfold Frame.take at htake
      split_ifs at htake
      · obtain ⟨key, -, rfl⟩ := Option.map_eq_some_iff.mp htake
        rfl
      · obtain rfl := Option.some.inj htake
        rfl
    refine ⟨?_, rfl, rfl, rfl⟩
    unfold paths
    rw [hstack, List.map_cons, List.map_cons, hpath]

/-- Assumes: a byte that leaves the containers, the token and the start of the document. -/
theorem Moves.of_kept {observer next : Observer F64} {byte : UInt8}
    (hpaths : next.paths = observer.paths) (htoken : next.token = observer.token)
    (hstarted : next.started = true) : Moves observer byte next where
  shift := .kept hpaths
  token := .inl htoken
  started := fun hfalse ↦ by rw [hstarted] at hfalse; cases hfalse

theorem Moves.ite {observer chosen other : Observer F64} {byte : UInt8} {condition : Prop}
    [Decidable condition] (hchosen : condition → Moves observer byte chosen)
    (hother : ¬condition → Moves observer byte other) :
    Moves observer byte (if condition then chosen else other) := by
  split
  · next hcondition => exact hchosen hcondition
  · next hcondition => exact hother hcondition

theorem structural_moves (observer : Observer F64) (byte : UInt8) :
    Moves observer byte (observer.structural byte) := by
  unfold structural
  by_cases hspace : isWhitespace byte
  · rw [if_pos hspace]
    exact ⟨.kept rfl, .inl rfl, fun hstarted ↦ ⟨hstarted, rfl⟩⟩
  rw [if_neg hspace]
  by_cases hstarted : observer.started = false
  · rw [if_pos hstarted]
    split_ifs with hbrace
    · exact .of_kept rfl rfl rfl
    · exact ⟨.pushed [] rfl (.inl hstarted) (.inl (not_not.mp hbrace)) rfl, .inl rfl,
        fun hfalse ↦ by cases hfalse⟩
  rw [if_neg hstarted]
  have htrue : observer.started = true := Bool.not_eq_false _ ▸ hstarted
  have hfail : Moves observer byte observer.fail := .of_kept rfl rfl htrue
  by_cases hdone : observer.done = true
  · rw [if_pos hdone]
    exact hfail
  rw [if_neg hdone]
  rcases hstack : observer.stack with _ | ⟨frame, stack⟩
  · exact hfail
  have hpaths : observer.paths = frame.path :: stack.map Frame.path := by
    unfold paths
    rw [hstack, List.map_cons]
  have hsame {next : Observer F64} (hnext : next.paths = frame.path :: stack.map Frame.path)
      (htoken : next.token = observer.token) (hnextStarted : next.started = true) :
      Moves observer byte next :=
    .of_kept (hnext.trans hpaths.symm) htoken hnextStarted
  have hfresh {next : Observer F64} (hnext : next.paths = observer.paths)
      (htoken : (∃ key, next.token = some (.string (.new key))) ∨
        (beginsScalar byte ∧ ∃ path, next.token = some (.scalar (.new byte) path)))
      (hnextStarted : next.started = true) :
      Moves observer byte next :=
    ⟨.kept hnext, .inr htoken, fun hfalse ↦ by rw [hnextStarted] at hfalse; cases hfalse⟩
  have hclose : Moves observer byte { observer with stack, done := stack.isEmpty } :=
    ⟨.popped frame.path hpaths, .inl rfl, fun hfalse ↦ by rw [htrue] at hfalse; cases hfalse⟩
  -- the kinds of bytes, in the order of the source
  rcases htaken : observer.valuePath with _ | ⟨path, next⟩
  · refine .ite (fun _ ↦ .ite (fun _ ↦ hfresh hpaths.symm (.inl ⟨true, rfl⟩) htrue) fun _ ↦ hfail)
      fun _ ↦ .ite (fun _ ↦ hfail) fun _ ↦ .ite (fun _ ↦ .ite (fun _ ↦ hfail) fun _ ↦ hclose)
      fun _ ↦ .ite (fun _ ↦ hsame rfl rfl htrue) fun _ ↦ .ite (fun _ ↦ hsame rfl rfl htrue)
      fun _ ↦ .ite (fun _ ↦ hfail) fun _ ↦ hfail
  · obtain ⟨hnext, htoken, hnextStarted, hfailed⟩ := valuePath_cases htaken
    rw [htrue] at hnextStarted
    have hopen (hbyte : byte = openBrace ∨ byte = openBracket) :
        Moves observer byte
          (if 128 ≤ next.stack.length then next.fail
          else { next with stack := Frame.new (byte = openBrace) path :: next.stack }) := by
      refine .ite (fun _ ↦ .of_kept hnext htoken hnextStarted) fun hroom ↦ ?_
      rw [← length_paths, hnext, length_paths, Nat.not_le] at hroom
      refine ⟨.pushed path ?_ (.inr hroom) hbyte hfailed, .inl htoken, fun hfalse ↦ ?_⟩
      · rw [← hnext]
        rfl
      · rw [hnextStarted] at hfalse
        cases hfalse
    refine .ite (fun _ ↦ .ite (fun _ ↦ hfresh hpaths.symm (.inl ⟨true, rfl⟩) htrue)
        fun _ ↦ hfresh hnext (.inl ⟨false, rfl⟩) hnextStarted)
      fun _ ↦ .ite hopen fun _ ↦ .ite (fun _ ↦ .ite (fun _ ↦ hfail) fun _ ↦ hclose)
      fun _ ↦ .ite (fun _ ↦ hsame rfl rfl htrue) fun _ ↦ .ite (fun _ ↦ hsame rfl rfl htrue)
      fun _ ↦ .ite (fun hbegins ↦ hfresh hnext (.inr ⟨hbegins, path, rfl⟩) hnextStarted)
      fun _ ↦ hfail

/-- A byte that ends a scalar opens nothing. -/
theorem not_open_of_endsScalar {byte : UInt8} (hbyte : endsScalar byte) :
    ¬(byte = openBrace ∨ byte = openBracket) := by
  rintro (rfl | rfl)
  · exact absurd hbyte (by decide)
  · exact absurd hbyte (by decide)

/-- What the end of a token leaves: the containers, and no token. -/
structure Closes (observer next : Observer F64) : Prop where
  paths : next.paths = observer.paths
  token : next.token = none
  started : next.started = observer.started

theorem finishScalar_closes (serde : Serde F64) (observer : Observer F64) :
    Closes observer (observer.finishScalar serde) := by
  unfold finishScalar
  split
  · split
    · exact ⟨rfl, rfl, rfl⟩
    · exact ⟨rfl, rfl, rfl⟩
  · exact ⟨rfl, rfl, rfl⟩

theorem closeString_closes (serde : Serde F64) (observer : Observer F64) (token : StringToken) :
    Closes observer (observer.closeString serde token) := by
  unfold closeString
  split_ifs
  · split
    · next key frame stack _ hstack =>
      refine ⟨?_, rfl, rfl⟩
      unfold paths
      rw [hstack, List.map_cons, List.map_cons]
    · exact ⟨rfl, rfl, rfl⟩
  · exact ⟨rfl, rfl, rfl⟩

/-- A byte of a token leaves the containers open. -/
theorem consumeToken_paths (serde : Serde F64) (observer : Observer F64) (byte : UInt8) :
    (observer.consumeToken serde byte).1.paths = observer.paths := by
  unfold consumeToken
  split
  · rfl
  · split_ifs
    · exact (finishScalar_closes serde observer).paths
    · rfl
  · next token _ =>
    dsimp only
    split
    · exact (closeString_closes serde observer _).paths
    · rfl

/-- What one byte does to the open containers. -/
theorem advance_shift (serde : Serde F64) (observer : Observer F64) (byte : UInt8) :
    Shift observer byte (observer.advance serde byte) := by
  have hpaths := consumeToken_paths serde observer byte
  unfold advance
  rcases hconsumed : observer.consumeToken serde byte with ⟨next, _ | _⟩
  · rw [hconsumed] at hpaths
    show Shift observer byte (next.structural byte)
    rcases (structural_moves next byte).shift with hkept | ⟨path, hpopped⟩ |
      ⟨path, hpushed, hroom, hbyte, hfailed⟩
    · exact .kept (hkept.trans hpaths)
    · exact .popped path (hpaths.symm.trans hpopped)
    · -- only a byte outside of tokens opens a container
      obtain rfl : observer = next := by
        unfold consumeToken at hconsumed
        split at hconsumed
        · exact congrArg Prod.fst hconsumed
        · split_ifs at hconsumed with hends
          · exact absurd hbyte (not_open_of_endsScalar hends)
          · cases congrArg Prod.snd hconsumed
        · split at hconsumed <;> cases congrArg Prod.snd hconsumed
      exact .pushed path hpushed hroom hbyte hfailed
  · rw [hconsumed] at hpaths
    exact .kept hpaths

end Observer

/-! ### Bounds -/

/-- A scalar within its buffers. -/
structure Scalar.Bounded (scalar : Scalar) : Prop where
  raw : scalar.raw.length ≤ 129
  digits : scalar.digits.length ≤ 64

/-- A token within its buffers. -/
def Token.Bounded : Token → Prop
  | .string token => ∀ buffer ∈ token.raw, buffer.length ≤ 256
  | .scalar value _ => value.Bounded

/-- An observer within its bounds. Before the first byte no container is open. -/
structure Observer.Bounded (observer : Observer F64) : Prop where
  stack : observer.stack.length ≤ 128
  token : ∀ token ∈ observer.token, token.Bounded
  start : observer.started = false → observer.stack = []

theorem Scalar.bounded_blank (byte : UInt8) : (blank byte).Bounded :=
  ⟨Nat.zero_le _, Nat.zero_le _⟩

/-- A buffer that stops growing at its bound. -/
theorem length_push_le {buffer : List UInt8} {bound : ℕ} (hbuffer : buffer.length ≤ bound)
    (byte : UInt8) :
    (if buffer.length < bound then buffer ++ [byte] else buffer).length ≤ bound := by
  split_ifs with hroom
  · rwa [List.length_append, List.length_singleton]
  · exact hbuffer

/-- A digit is kept only where there is room for it. -/
theorem Scalar.count_digits (scalar : Scalar) (previous : ScalarState) (byte : UInt8) :
    (scalar.count previous byte).digits = scalar.digits ∨
      ((scalar.count previous byte).digits = scalar.digits ++ [byte] ∧
        scalar.digits.length < 64) := by
  unfold Scalar.count
  by_cases hexponent : previous.inExponent
  · rw [if_pos hexponent]
    exact .inl rfl
  · rw [if_neg hexponent]
    by_cases hcounted : byte ≠ zero ∨ scalar.digits ≠ []
    · rw [if_pos hcounted]
      by_cases hroom : scalar.digits.length < 64
      · rw [if_pos hroom]
        exact .inr ⟨rfl, hroom⟩
      · rw [if_neg hroom]
        exact .inl rfl
    · rw [if_neg hcounted]
      exact .inl rfl

theorem Scalar.Bounded.count {scalar : Scalar} (hscalar : scalar.Bounded)
    (previous : ScalarState) (byte : UInt8) : (scalar.count previous byte).Bounded := by
  constructor
  · rw [(count_fixed scalar previous byte).1]
    exact hscalar.raw
  · rcases count_digits scalar previous byte with hkept | ⟨hmore, hroom⟩
    · rw [hkept]
      exact hscalar.digits
    · rwa [hmore, List.length_append, List.length_singleton]

theorem Scalar.Bounded.feed {scalar : Scalar} (hscalar : scalar.Bounded) (byte : UInt8) :
    (scalar.feed byte).Bounded := by
  have hraw := length_push_le hscalar.raw byte
  by_cases hliteral : scalar.literal = []
  · have hread : (scalar.read byte).Bounded := ⟨hraw, hscalar.digits⟩
    rw [feed_number hliteral]
    split_ifs
    · exact hread.count scalar.state byte
    · exact ⟨hread.raw, hread.digits⟩
    · exact hread
  · unfold Scalar.feed
    rw [if_pos hliteral]
    exact ⟨hraw, hscalar.digits⟩

theorem capture_length_le {raw : Option (List UInt8)} {byte : UInt8} :
    ∀ buffer ∈ StringToken.capture raw byte, buffer.length ≤ 256 := by
  intro buffer hbuffer
  obtain ⟨before, -, hcapture⟩ := Option.bind_eq_some_iff.mp hbuffer
  split_ifs at hcapture with hroom
  obtain rfl := Option.some.inj hcapture
  rwa [List.length_append, List.length_singleton]

namespace Observer

theorem bounded_new : (new : Observer F64).Bounded where
  stack := Nat.zero_le _
  token := fun _ htoken ↦ by cases htoken
  start := fun _ ↦ rfl

/-- The end of a token keeps the bounds. -/
theorem Bounded.closes {observer next : Observer F64} (hbounded : observer.Bounded)
    (hcloses : Closes observer next) : next.Bounded := by
  refine ⟨?_, ?_, fun hstarted ↦ ?_⟩
  · rw [← length_paths, hcloses.paths, length_paths]
    exact hbounded.stack
  · rw [hcloses.token]
    exact fun _ htoken ↦ by cases htoken
  · rw [hcloses.started] at hstarted
    rw [← List.length_eq_zero_iff, ← length_paths, hcloses.paths, length_paths,
      hbounded.start hstarted]
    rfl

/-- A byte of a token. -/
theorem Bounded.consumeToken {observer : Observer F64} (hbounded : observer.Bounded)
    (serde : Serde F64) (byte : UInt8) : (observer.consumeToken serde byte).1.Bounded := by
  unfold Observer.consumeToken
  split
  · exact hbounded
  · next value path hscalar =>
    split_ifs
    · exact hbounded.closes (finishScalar_closes serde observer)
    · refine ⟨hbounded.stack, fun token hmem ↦ ?_, hbounded.start⟩
      obtain rfl := Option.some.inj hmem
      exact Scalar.Bounded.feed (hbounded.token _ hscalar) byte
  · next token hstring =>
    dsimp only
    split
    · exact hbounded.closes (closeString_closes serde observer _)
    · refine ⟨hbounded.stack, fun token hmem ↦ ?_, hbounded.start⟩
      obtain rfl := Option.some.inj hmem
      exact capture_length_le

/-- A byte between tokens. -/
theorem Bounded.structural {observer : Observer F64} (hbounded : observer.Bounded) (byte : UInt8) :
    (observer.structural byte).Bounded := by
  obtain ⟨hshift, htoken, hstarted⟩ := structural_moves observer byte
  refine ⟨?_, ?_, ?_⟩
  · rw [← length_paths]
    rcases hshift with hkept | ⟨path, hpopped⟩ | ⟨path, hpushed, hroom, -⟩
    · rw [hkept, length_paths]
      exact hbounded.stack
    · have hlength := congrArg List.length hpopped
      rw [length_paths, List.length_cons] at hlength
      have hbound := hbounded.stack
      omega
    · rw [hpushed, List.length_cons, length_paths]
      rcases hroom with hstart | hroom
      · rw [hbounded.start hstart]
        decide
      · exact hroom
  · intro token hmem
    rcases htoken with hkept | ⟨key, hstring⟩ | ⟨-, path, hscalar⟩
    · exact hbounded.token token (hkept ▸ hmem)
    · obtain rfl := Option.some.inj (hstring.symm.trans hmem)
      intro buffer hbuffer
      cases key with
      | false => cases hbuffer
      | true =>
        obtain rfl := Option.some.inj hbuffer
        decide
    · obtain rfl := Option.some.inj (hscalar.symm.trans hmem)
      exact (Scalar.bounded_blank byte).feed byte
  · intro hfalse
    obtain ⟨hbefore, hstack⟩ := hstarted hfalse
    rw [hstack]
    exact hbounded.start hbefore

/-- One byte. -/
theorem Bounded.advance {observer : Observer F64} (hbounded : observer.Bounded)
    (serde : Serde F64) (byte : UInt8) : (observer.advance serde byte).Bounded := by
  have hconsumed := hbounded.consumeToken serde byte
  unfold Observer.advance
  split
  · next next hnext =>
    rw [hnext] at hconsumed
    exact hconsumed
  · next next hnext =>
    rw [hnext] at hconsumed
    exact hconsumed.structural byte

/-- The bytes of a chunk. -/
theorem Bounded.feed (serde : Serde F64) (bytes : List UInt8) {observer : Observer F64}
    (hbounded : observer.Bounded) : (observer.feed serde bytes).Bounded := by
  induction bytes generalizing observer with
  | nil => exact hbounded
  | cons byte bytes ih =>
    rw [Observer.feed]
    split_ifs
    · exact hbounded
    · exact ih (hbounded.advance serde byte)

theorem Bounded.finish {observer : Observer F64} (hbounded : observer.Bounded)
    (serde : Serde F64) : (observer.finish serde).Bounded := by
  unfold Observer.finish
  split
  · obtain ⟨hstack, htoken, hstart⟩ := hbounded.closes (finishScalar_closes serde observer)
    exact ⟨hstack, htoken, hstart⟩
  · exact ⟨hbounded.stack, hbounded.token, hbounded.start⟩

theorem Bounded.call {observer : Observer F64} (hbounded : observer.Bounded) (serde : Serde F64)
    (next : Call) : (observer.call serde next).Bounded := by
  cases next with
  | feed bytes => exact hbounded.feed serde bytes
  | finish => exact hbounded.finish serde

/-- The memory of the observer is bounded in every state. -/
theorem bounded_run (serde : Serde F64) (calls : List Call) : (run serde calls).Bounded := by
  induction calls using List.reverseRecOn with
  | nil => exact bounded_new
  | append_singleton calls last ih =>
    rw [run_snoc]
    exact ih.call serde last

end Observer

end Relayna.ResponseCost

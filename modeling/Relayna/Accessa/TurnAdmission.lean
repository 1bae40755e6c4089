import Mathlib.Data.List.AList
import Relayna.Library.Table
import Relayna.Library.Transition

/-!
# Admission of conversation turns

The end of `admit_turn` of `crates/gateway-proxy/src/accessa_runtime.rs`, by any number of
concurrent calls: a marker in the session store is claimed, the rate limit is charged, and then the
marker is confirmed, or undone when the charge was refused. A call that finds the marker is admitted
when it is confirmed.

A turn is the key of its marker, of a session and a turn id. The operations of the store are atomic,
and a call that fails may have had its effect or not. A call may be cancelled at each point where it
waits. Markers do not expire here.

`charges` counts the charges that were allowed, and `admitted` notes for each call that returned how
many there were before it. `one_charge_per_turn` states that there is one.
-/

set_option autoImplicit false
set_option relaxedAutoImplicit false

namespace Relayna.Accessa

open Library.Table Library.Transition

/-! ### Data -/

inductive Marker
  | pending
  | accepted
  deriving DecidableEq

/-- Where a call is: about to put the marker, to charge, to confirm the marker, to undo it, or to
get the marker of another call. -/
inductive Phase
  | claiming
  | charging
  | confirming
  | undoing
  | reading
  deriving DecidableEq

/-- What became of an operation of the store: it was done; or the call failed, and the operation had
its effect or not. -/
inductive Effect
  | done
  | failed (applied : Bool)
  deriving DecidableEq

/-- What became of a charge: `RateLimitDecision`, or the call failed. -/
inductive Charge
  | allowed
  | exceeded
  | failed
  deriving DecidableEq

/-- A call of `admit_turn` that is past its checks. -/
structure Call (Turn : Type) where
  turn : Turn
  phase : Phase

/-- The store, the calls and the logs. -/
structure System (Turn : Type) where
  markers : Turn → Option Marker
  calls : AList fun _ : ℕ ↦ Call Turn
  next : ℕ
  charges : Turn → ℕ
  admitted : List (Turn × ℕ)

variable {Turn : Type}

/-- No marker and no call. -/
def System.init (Turn : Type) : System Turn :=
  ⟨fun _ ↦ none, ∅, 0, fun _ ↦ 0, []⟩

/-! ### Steps -/

/-- An operation of the store has its effect, unless it failed without. -/
def Effect.applied : Effect → Bool
  | .done => true
  | .failed applied => applied

/-- A call goes on. -/
def System.setPhase (system : System Turn) (id : ℕ) (turn : Turn) (phase : Phase) : System Turn :=
  { system with calls := system.calls.insert id ⟨turn, phase⟩ }

/-- A call ends with an error, or is cancelled. -/
def System.drop (system : System Turn) (id : ℕ) : System Turn :=
  { system with calls := system.calls.erase id }

/-- A call returns that the turn is admitted. -/
def System.admitTurn (system : System Turn) (id : ℕ) (turn : Turn) : System Turn :=
  { system.drop id with admitted := system.admitted ++ [(turn, system.charges turn)] }

section Steps

variable [DecidableEq Turn]

/-- A marker is put or deleted, when the operation has its effect. -/
def System.setMarker (system : System Turn) (turn : Turn) (marker : Option Marker)
    (effect : Effect) : System Turn :=
  if effect.applied then { system with markers := Function.update system.markers turn marker }
  else system

/-- `accessa_put` of a pending marker, only if there is none. -/
def System.claim (system : System Turn) (id : ℕ) (turn : Turn) (effect : Effect) : System Turn :=
  match system.markers turn with
  | none =>
    let put := system.setMarker turn (some .pending) effect
    if effect = .done then put.setPhase id turn .charging else put.drop id
  | some _ =>
    if effect = .done then system.setPhase id turn .reading else system.drop id

/-- `accessa_rate`. -/
def System.charge (system : System Turn) (id : ℕ) (turn : Turn) : Charge → System Turn
  | .allowed =>
    { system.setPhase id turn .confirming with
      charges := Function.update system.charges turn (system.charges turn + 1) }
  | .exceeded => system.setPhase id turn .undoing
  | .failed => system.setPhase id turn .undoing

/-- `accessa_put` of an accepted marker. -/
def System.confirm (system : System Turn) (id : ℕ) (turn : Turn) (effect : Effect) : System Turn :=
  let put := system.setMarker turn (some .accepted) effect
  if effect = .done then put.admitTurn id turn else put.drop id

/-- `accessa_delete`, after which the call returns an error. -/
def System.undo (system : System Turn) (id : ℕ) (turn : Turn) (effect : Effect) : System Turn :=
  (system.setMarker turn none effect).drop id

/-- `accessa_get`. -/
def System.read (system : System Turn) (id : ℕ) (turn : Turn) (answered : Bool) : System Turn :=
  if answered ∧ system.markers turn = some .accepted then system.admitTurn id turn
  else system.drop id

/-- What can happen: a call begins, or goes on from where it is, or is cancelled. -/
inductive Action (Turn : Type)
  | start (turn : Turn)
  | claim (id : ℕ) (effect : Effect)
  | charge (id : ℕ) (charge : Charge)
  | confirm (id : ℕ) (effect : Effect)
  | undo (id : ℕ) (effect : Effect)
  | read (id : ℕ) (answered : Bool)
  | cancel (id : ℕ)

/-- One step. What a call is not ready for leaves the system as it is. -/
def step (system : System Turn) : Action Turn → System Turn
  | .start turn => { system.setPhase system.next turn .claiming with next := system.next + 1 }
  | .claim id effect =>
    match system.calls.lookup id with
    | some ⟨turn, .claiming⟩ => system.claim id turn effect
    | _ => system
  | .charge id charge =>
    match system.calls.lookup id with
    | some ⟨turn, .charging⟩ => system.charge id turn charge
    | _ => system
  | .confirm id effect =>
    match system.calls.lookup id with
    | some ⟨turn, .confirming⟩ => system.confirm id turn effect
    | _ => system
  | .undo id effect =>
    match system.calls.lookup id with
    | some ⟨turn, .undoing⟩ => system.undo id turn effect
    | _ => system
  | .read id answered =>
    match system.calls.lookup id with
    | some ⟨turn, .reading⟩ => system.read id turn answered
    | _ => system
  | .cancel id => system.drop id

/-! ### What a step can do -/

/-- A call that has claimed the marker of its turn, and has not ended. -/
def Phase.holds : Phase → Bool
  | .charging => true
  | .confirming => true
  | .undoing => true
  | _ => false

/-- The charges of a turn while a call in a phase has its marker. -/
def Phase.charged : Phase → ℕ
  | .confirming => 1
  | _ => 0

/-- What a step can do. -/
inductive Moves (system : System Turn) : System Turn → Prop
  | stay : Moves system system
  | enter (id : ℕ) (turn : Turn) (phase : Phase) (next : ℕ) (hphase : phase.holds = false) :
      Moves system { system.setPhase id turn phase with next }
  | leave (id : ℕ) : Moves system (system.drop id)
  | claimed (id : ℕ) (turn : Turn) (hmarker : system.markers turn = none) :
      Moves system
        { system.setPhase id turn .charging with
          markers := Function.update system.markers turn (some .pending) }
  | claimLost (id : ℕ) (turn : Turn) (hmarker : system.markers turn = none) :
      Moves system
        { system.drop id with markers := Function.update system.markers turn (some .pending) }
  | charged (id : ℕ) (turn : Turn) (hcall : system.calls.lookup id = some ⟨turn, .charging⟩) :
      Moves system
        { system.setPhase id turn .confirming with
          charges := Function.update system.charges turn (system.charges turn + 1) }
  | refused (id : ℕ) (turn : Turn) (hcall : system.calls.lookup id = some ⟨turn, .charging⟩) :
      Moves system (system.setPhase id turn .undoing)
  | confirmed (id : ℕ) (turn : Turn) (hcall : system.calls.lookup id = some ⟨turn, .confirming⟩) :
      Moves system
        { system.admitTurn id turn with
          markers := Function.update system.markers turn (some .accepted) }
  | confirmLost (id : ℕ) (turn : Turn) (hcall : system.calls.lookup id = some ⟨turn, .confirming⟩) :
      Moves system
        { system.drop id with markers := Function.update system.markers turn (some .accepted) }
  | undone (id : ℕ) (turn : Turn) (hcall : system.calls.lookup id = some ⟨turn, .undoing⟩) :
      Moves system { system.drop id with markers := Function.update system.markers turn none }
  | admitted (id : ℕ) (turn : Turn) (hmarker : system.markers turn = some .accepted) :
      Moves system (system.admitTurn id turn)

theorem claim_moves (system : System Turn) (id : ℕ) (turn : Turn) (effect : Effect) :
    Moves system (system.claim id turn effect) := by
  unfold System.claim
  rcases hmarker : system.markers turn with _ | marker
  · rcases effect with _ | _ | _
    · exact .claimed id turn hmarker
    · exact .leave id
    · exact .claimLost id turn hmarker
  · dsimp only
    split_ifs
    · exact .enter id turn .reading system.next rfl
    · exact .leave id

theorem charge_moves {system : System Turn} {id : ℕ} {turn : Turn}
    (hcall : system.calls.lookup id = some ⟨turn, .charging⟩) (charge : Charge) :
    Moves system (system.charge id turn charge) := by
  cases charge with
  | allowed => exact .charged id turn hcall
  | exceeded => exact .refused id turn hcall
  | failed => exact .refused id turn hcall

theorem confirm_moves {system : System Turn} {id : ℕ} {turn : Turn}
    (hcall : system.calls.lookup id = some ⟨turn, .confirming⟩) (effect : Effect) :
    Moves system (system.confirm id turn effect) := by
  rcases effect with _ | _ | _
  · exact .confirmed id turn hcall
  · exact .leave id
  · exact .confirmLost id turn hcall

theorem undo_moves {system : System Turn} {id : ℕ} {turn : Turn}
    (hcall : system.calls.lookup id = some ⟨turn, .undoing⟩) (effect : Effect) :
    Moves system (system.undo id turn effect) := by
  rcases effect with _ | _ | _
  · exact .undone id turn hcall
  · exact .leave id
  · exact .undone id turn hcall

theorem read_moves (system : System Turn) (id : ℕ) (turn : Turn) (answered : Bool) :
    Moves system (system.read id turn answered) := by
  unfold System.read
  split_ifs with hread
  · exact .admitted id turn hread.2
  · exact .leave id

/-- Every step is one of these moves. -/
theorem step_moves (system : System Turn) (action : Action Turn) :
    Moves system (step system action) := by
  cases action with
  | start turn => exact .enter _ turn .claiming _ rfl
  | claim id effect =>
    simp only [step]
    split
    · next turn hcall => exact claim_moves system id turn effect
    · exact .stay
  | charge id charge =>
    simp only [step]
    split
    · next turn hcall => exact charge_moves hcall charge
    · exact .stay
  | confirm id effect =>
    simp only [step]
    split
    · next turn hcall => exact confirm_moves hcall effect
    · exact .stay
  | undo id effect =>
    simp only [step]
    split
    · next turn hcall => exact undo_moves hcall effect
    · exact .stay
  | read id answered =>
    simp only [step]
    split
    · next turn hcall => exact read_moves system id turn answered
    · exact .stay
  | cancel id => exact .leave id

end Steps

/-! ### Markers and charges -/

/-- What the marker of a turn says about its charges: none without a marker, one when it is
confirmed, and one at most. -/
structure Balanced (marker : Option Marker) (charges : ℕ) : Prop where
  absent : marker = none → charges = 0
  accepted : marker = some .accepted → charges = 1
  once : charges ≤ 1

theorem balanced_absent : Balanced none 0 :=
  ⟨fun _ ↦ rfl, fun haccepted ↦ (nomatch haccepted), Nat.zero_le 1⟩

theorem balanced_pending {charges : ℕ} (honce : charges ≤ 1) :
    Balanced (some .pending) charges :=
  ⟨fun habsent ↦ (nomatch habsent), fun haccepted ↦ (nomatch haccepted), honce⟩

theorem balanced_accepted : Balanced (some .accepted) 1 :=
  ⟨fun habsent ↦ (nomatch habsent), fun _ ↦ rfl, Nat.le_refl 1⟩

/-- The marker of a turn is pending while a call has claimed it, which one call has; and a call
returned after one charge. -/
structure Sound (system : System Turn) : Prop where
  balanced : ∀ turn, Balanced (system.markers turn) (system.charges turn)
  holder : ∀ id call, system.calls.lookup id = some call → call.phase.holds = true →
    system.markers call.turn = some .pending ∧ system.charges call.turn = call.phase.charged
  unique : ∀ id id' call call', system.calls.lookup id = some call →
    system.calls.lookup id' = some call' → call.phase.holds = true → call'.phase.holds = true →
    call.turn = call'.turn → id = id'
  admitted : ∀ entry ∈ system.admitted, entry.2 = 1

/-- Assumes: a step that leaves the markers and charges, and gives no call a claim. -/
theorem Sound.quiet {system moved : System Turn} (hsound : Sound system)
    (hmarkers : moved.markers = system.markers) (hcharges : moved.charges = system.charges)
    (hcalls : ∀ id call, moved.calls.lookup id = some call → call.phase.holds = true →
      system.calls.lookup id = some call)
    (hadmitted : ∀ entry ∈ moved.admitted, entry ∈ system.admitted ∨ entry.2 = 1) :
    Sound moved := by
  refine ⟨?_, fun id call hcall hholds ↦ ?_,
    fun id id' call call' hcall hcall' hholds hholds' hturn ↦ ?_, fun entry hentry ↦ ?_⟩
  · rw [hmarkers, hcharges]
    exact hsound.balanced
  · rw [hmarkers, hcharges]
    exact hsound.holder id call (hcalls id call hcall hholds) hholds
  · exact hsound.unique id id' call call' (hcalls id call hcall hholds)
      (hcalls id' call' hcall' hholds') hholds hholds' hturn
  · rcases hadmitted entry hentry with hold | hnew
    · exact hsound.admitted entry hold
    · exact hnew

/-- Assumes: a step of one turn. Its marker and charges stay balanced, and the call that has claimed
it, if any, is the owner; the other turns are as before. -/
theorem Sound.change {system moved : System Turn} (hsound : Sound system) (turn : Turn) (owner : ℕ)
    (hother : ∀ other, other ≠ turn →
      moved.markers other = system.markers other ∧ moved.charges other = system.charges other)
    (hbalanced : Balanced (moved.markers turn) (moved.charges turn))
    (hcalls : ∀ id call, moved.calls.lookup id = some call → call.phase.holds = true →
      (call.turn ≠ turn ∧ system.calls.lookup id = some call) ∨
        (call.turn = turn ∧ id = owner ∧ moved.markers turn = some .pending ∧
          moved.charges turn = call.phase.charged))
    (hadmitted : ∀ entry ∈ moved.admitted, entry ∈ system.admitted ∨ entry.2 = 1) :
    Sound moved := by
  refine ⟨fun other ↦ ?_, fun id call hcall hholds ↦ ?_,
    fun id id' call call' hcall hcall' hholds hholds' hturn ↦ ?_, fun entry hentry ↦ ?_⟩
  · by_cases hsame : other = turn
    · rw [hsame]
      exact hbalanced
    · obtain ⟨hmarker, hcharge⟩ := hother other hsame
      rw [hmarker, hcharge]
      exact hsound.balanced other
  · rcases hcalls id call hcall hholds with ⟨hne, hold⟩ | ⟨rfl, -, hmarker, hcharge⟩
    · obtain ⟨hmarker, hcharge⟩ := hother call.turn hne
      rw [hmarker, hcharge]
      exact hsound.holder id call hold hholds
    · exact ⟨hmarker, hcharge⟩
  · rcases hcalls id call hcall hholds with ⟨hne, hold⟩ | ⟨rfl, rfl, -, -⟩
    · rcases hcalls id' call' hcall' hholds' with ⟨-, hold'⟩ | ⟨rfl, -, -, -⟩
      · exact hsound.unique id id' call call' hold hold' hholds hholds' hturn
      · exact absurd hturn hne
    · rcases hcalls id' call' hcall' hholds' with ⟨hne, -⟩ | ⟨-, rfl, -, -⟩
      · exact absurd hturn.symm hne
      · rfl
  · rcases hadmitted entry hentry with hold | hnew
    · exact hsound.admitted entry hold
    · exact hnew

/-- Assumes: the call that has claimed a turn. After it has ended, no other call has. -/
theorem Sound.erase_holder {system : System Turn} (hsound : Sound system) {id : ℕ} {turn : Turn}
    {phase : Phase} (hcall : system.calls.lookup id = some ⟨turn, phase⟩)
    (hphase : phase.holds = true) {other : ℕ} {call : Call Turn}
    (hother : (system.calls.erase id).lookup other = some call) (hholds : call.phase.holds = true) :
    call.turn ≠ turn ∧ system.calls.lookup other = some call := by
  obtain ⟨hne, hold⟩ := lookup_erase_eq_some hother
  exact ⟨fun hturn ↦ hne (hsound.unique other id call _ hold hcall hholds hphase hturn), hold⟩

/-- Assumes: the call that has claimed a turn, which goes on. No other call has claimed the turn. -/
theorem Sound.insert_holder {system : System Turn} (hsound : Sound system) {id : ℕ} {turn : Turn}
    {phase next : Phase} (hcall : system.calls.lookup id = some ⟨turn, phase⟩)
    (hphase : phase.holds = true) {other : ℕ} {call : Call Turn}
    (hother : (system.calls.insert id ⟨turn, next⟩).lookup other = some call)
    (hholds : call.phase.holds = true) :
    (call.turn ≠ turn ∧ system.calls.lookup other = some call) ∨
      (other = id ∧ call = ⟨turn, next⟩) := by
  rcases lookup_insert_cases hother with hnew | ⟨hne, hold⟩
  · exact .inr hnew
  · refine .inl ⟨fun hturn ↦ hne ?_, hold⟩
    exact hsound.unique other id call _ hold hcall hholds hphase hturn

/-- Assumes: a turn without a marker. No call has claimed it. -/
theorem Sound.turn_ne_of_absent {system : System Turn} (hsound : Sound system) {turn : Turn}
    (hmarker : system.markers turn = none) {id : ℕ} {call : Call Turn}
    (hcall : system.calls.lookup id = some call) (hholds : call.phase.holds = true) :
    call.turn ≠ turn := by
  rintro rfl
  rw [(hsound.holder id call hcall hholds).1] at hmarker
  cases hmarker

/-- Assumes: the call that has claimed a turn. It may end, and leave the marker balanced. -/
theorem Sound.release [DecidableEq Turn] {system moved : System Turn} (hsound : Sound system)
    {id : ℕ} {turn : Turn} {phase : Phase} {marker : Option Marker}
    (hcall : system.calls.lookup id = some ⟨turn, phase⟩) (hphase : phase.holds = true)
    (hbalanced : Balanced marker phase.charged)
    (hmarkers : moved.markers = Function.update system.markers turn marker)
    (hcharges : moved.charges = system.charges) (hcalls : moved.calls = system.calls.erase id)
    (hadmitted : ∀ entry ∈ moved.admitted, entry ∈ system.admitted ∨ entry.2 = 1) :
    Sound moved := by
  refine hsound.change turn id (fun other hne ↦ ?_) ?_ (fun other call hother hholds ↦ ?_) hadmitted
  · rw [hmarkers, hcharges]
    exact ⟨Function.update_of_ne hne _ _, rfl⟩
  · rw [hmarkers, hcharges, Function.update_self, (hsound.holder id _ hcall hphase).2]
    exact hbalanced
  · rw [hcalls] at hother
    exact .inl (hsound.erase_holder hcall hphase hother hholds)

/-- Assumes: the call that has claimed a turn. It may go on, with the charges of its phase. -/
theorem Sound.goOn [DecidableEq Turn] {system moved : System Turn} (hsound : Sound system) {id : ℕ}
    {turn : Turn} {phase next : Phase}
    (hcall : system.calls.lookup id = some ⟨turn, phase⟩) (hphase : phase.holds = true)
    (hmarkers : moved.markers = system.markers)
    (hcharges : moved.charges = Function.update system.charges turn next.charged)
    (hcalls : moved.calls = system.calls.insert id ⟨turn, next⟩)
    (hadmitted : moved.admitted = system.admitted) : Sound moved := by
  have hpending := (hsound.holder id _ hcall hphase).1
  have honce : next.charged ≤ 1 := by cases next <;> decide
  refine hsound.change turn id (fun other hne ↦ ?_) ?_ (fun other call hother hholds ↦ ?_)
    fun entry hentry ↦ .inl (hadmitted ▸ hentry)
  · rw [hmarkers, hcharges]
    exact ⟨rfl, Function.update_of_ne hne _ _⟩
  · rw [hmarkers, hcharges, Function.update_self, hpending]
    exact balanced_pending honce
  · rw [hcalls] at hother
    rcases hsound.insert_holder hcall hphase hother hholds with hold | ⟨rfl, rfl⟩
    · exact .inl hold
    · rw [hmarkers, hcharges, Function.update_self]
      exact .inr ⟨rfl, rfl, hpending, rfl⟩

theorem sound_init : Sound (System.init Turn) := by
  refine ⟨fun turn ↦ balanced_absent, ?_, ?_, ?_⟩
  · rintro id call ⟨⟩
  · rintro id id' call call' ⟨⟩
  · rintro entry ⟨⟩

variable [DecidableEq Turn]

/-- Every move keeps the markers and charges sound. -/
theorem Sound.moves {system moved : System Turn} (hsound : Sound system)
    (hmoves : Moves system moved) : Sound moved := by
  cases hmoves with
  | stay => exact hsound
  | enter id turn phase next hphase =>
    refine hsound.quiet rfl rfl (fun other call hother hholds ↦ ?_) fun entry hentry ↦ .inl hentry
    rcases lookup_insert_cases hother with ⟨-, rfl⟩ | ⟨-, hold⟩
    · rw [hphase] at hholds
      cases hholds
    · exact hold
  | leave id =>
    exact hsound.quiet rfl rfl (fun other call hother _ ↦ (lookup_erase_eq_some hother).2)
      fun entry hentry ↦ .inl hentry
  | claimed id turn hmarker =>
    have hzero := (hsound.balanced turn).absent hmarker
    refine hsound.change turn id (fun other hne ↦ ⟨Function.update_of_ne hne _ _, rfl⟩) ?_
      (fun other call hother hholds ↦ ?_) fun entry hentry ↦ .inl hentry
    · simp only [System.setPhase, Function.update_self, hzero]
      exact balanced_pending (Nat.zero_le 1)
    · rcases lookup_insert_cases hother with ⟨rfl, rfl⟩ | ⟨-, hold⟩
      · exact .inr ⟨rfl, rfl, Function.update_self .., hzero⟩
      · exact .inl ⟨hsound.turn_ne_of_absent hmarker hold hholds, hold⟩
  | claimLost id turn hmarker =>
    have hzero := (hsound.balanced turn).absent hmarker
    refine hsound.change turn id (fun other hne ↦ ⟨Function.update_of_ne hne _ _, rfl⟩) ?_
      (fun other call hother hholds ↦ ?_) fun entry hentry ↦ .inl hentry
    · simp only [System.drop, Function.update_self, hzero]
      exact balanced_pending (Nat.zero_le 1)
    · have hold := (lookup_erase_eq_some hother).2
      exact .inl ⟨hsound.turn_ne_of_absent hmarker hold hholds, hold⟩
  | charged id turn hcall =>
    have hone : system.charges turn + 1 = Phase.confirming.charged := by
      rw [(hsound.holder id _ hcall rfl).2]
      rfl
    refine hsound.goOn hcall rfl rfl ?_ rfl rfl
    rw [← hone]
  | refused id turn hcall =>
    refine hsound.goOn hcall rfl rfl ?_ rfl rfl
    have hzero := (hsound.holder id _ hcall rfl).2
    exact (Function.update_eq_self_iff.mpr hzero.symm).symm
  | confirmed id turn hcall =>
    refine hsound.release hcall rfl balanced_accepted rfl rfl rfl fun entry hentry ↦ ?_
    rcases List.mem_append.mp hentry with hold | hnew
    · exact .inl hold
    · rw [List.mem_singleton.mp hnew]
      exact .inr (hsound.holder id _ hcall rfl).2
  | confirmLost id turn hcall =>
    exact hsound.release hcall rfl balanced_accepted rfl rfl rfl fun entry hentry ↦ .inl hentry
  | undone id turn hcall =>
    exact hsound.release hcall rfl balanced_absent rfl rfl rfl fun entry hentry ↦ .inl hentry
  | admitted id turn hmarker =>
    refine hsound.quiet rfl rfl (fun other call hother _ ↦ (lookup_erase_eq_some hother).2)
      fun entry hentry ↦ ?_
    rcases List.mem_append.mp hentry with hold | hnew
    · exact .inl hold
    · rw [List.mem_singleton.mp hnew]
      exact .inr ((hsound.balanced turn).accepted hmarker)

/-- In every run, a turn has at most one charge that was allowed, and every call that returned that
a turn is admitted did so after exactly one. -/
theorem one_charge_per_turn (actions : List (Action Turn)) :
    (∀ turn, (run step (.init Turn) actions).charges turn ≤ 1) ∧
      ∀ entry ∈ (run step (.init Turn) actions).admitted, entry.2 = 1 := by
  have hsound : Sound (run step (.init Turn) actions) :=
    run_invariant (fun system action hsystem ↦ hsystem.moves (step_moves system action)) actions _
      sound_init
  exact ⟨fun turn ↦ (hsound.balanced turn).once, hsound.admitted⟩

/-- The charge of a first call is refused and its marker undone. The reply to the confirmation of a
second call is lost, and the retries of its client find the confirmed marker. -/
def retriedTurn : List (Action String) :=
  [.start "turn", .claim 0 .done, .start "turn", .claim 1 .done, .charge 0 .exceeded,
    .undo 0 .done, .read 1 true, .start "turn", .claim 2 .done, .charge 2 .allowed,
    .confirm 2 (.failed true), .start "turn", .claim 3 .done, .read 3 true, .start "turn",
    .claim 4 .done, .read 4 true]

theorem one_charge_per_turn_retried :
    let final := run step (.init String) retriedTurn
    (final.charges "turn" = 1 ∧ final.admitted.length = 2) ∧
      (∀ turn, final.charges turn ≤ 1) ∧ ∀ entry ∈ final.admitted, entry.2 = 1 :=
  ⟨by decide, one_charge_per_turn retriedTurn⟩

end Relayna.Accessa

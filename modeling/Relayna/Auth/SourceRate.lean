import Relayna.Auth.SourceAdmission

/-!
# The rate of a source under concurrent calls

`RequestAdmission::acquire` reads the clock and then calls `check_source`, which takes the mutex:
the order in which calls get the mutex need not be that of their clock values. The state of a run is
the clock, the calls that have read it and wait for the mutex, and the ledger of those that had it.
A call with an old clock value adds nothing to its bucket but sets the instant of its last refill
back, so that the next call is credited twice for the same time.

`source_rate_le` is the rate bound, for the runs in which no call is older than the instant up to
which its bucket was credited; `source_rate_exceeded` is a run without that bound.
-/

set_option autoImplicit false
set_option relaxedAutoImplicit false

namespace Relayna.Auth.SourceAdmission

open Relayna.Library
open Relayna.Library.Transition

/-! ### Concurrent calls -/

/-- The clock, the calls that wait for the mutex, and what the calls that had it have done. -/
structure World where
  clock : ℕ
  waiting : List Call
  ledger : Ledger

/-- What can happen: time passes, a call reads the clock, a waiting call gets the mutex. -/
inductive Action where
  | advance (elapsed : ℕ)
  | acquire (peer : Option IpAddr)
  | lock (position : ℕ)

/-- A new admission, with no call. -/
def World.start (created : ℕ) : World :=
  ⟨created, [], Ledger.start created⟩

variable (admission : RequestAdmission)

/-- One step of any interleaving. -/
def World.step (world : World) : Action → World
  | .advance elapsed => { world with clock := world.clock + elapsed }
  | .acquire peer => { world with waiting := world.waiting ++ [⟨peer, world.clock⟩] }
  | .lock position =>
    match world.waiting[position]? with
    | none => world
    | some call =>
      { world with
        waiting := world.waiting.eraseIdx position
        ledger := world.ledger.check admission call }

/-- How many calls of a source with a clock value in a window have passed the check. -/
def World.passes (world : World) (source : Option IpAddr) (lo hi : ℕ) : ℕ :=
  world.ledger.log.countP fun entry ↦
    decide (entry.call.source = source) && entry.passed &&
      (decide (lo ≤ entry.call.now) && decide (entry.call.now ≤ hi))

/-- A call that gets the mutex has read the clock no earlier than the instant up to which the bucket
of its source was credited: that of its last refill, or of the prune that dropped it. -/
def InOrder (world : World) : Action → Prop
  | .lock position =>
    ∀ call ∈ world.waiting[position]?, world.ledger.credited call.source ≤ call.now
  | _ => True

instance (world : World) : ∀ action, Decidable (InOrder world action)
  | .lock position =>
    inferInstanceAs (Decidable
      (∀ call ∈ world.waiting[position]?, world.ledger.credited call.source ≤ call.now))
  | .advance _ => isTrue trivial
  | .acquire _ => isTrue trivial

/-! ### The bound -/

variable {admission}

/-- The calls of a source that pass are those of its bucket. -/
theorem passes_eq_passed {world : World} {source : Option IpAddr}
    (h : Faithful admission world.ledger source) (lo hi : ℕ) :
    world.passes source lo hi = TokenBucket.passed (admission.burst : ℚ) admission.rate none
      (fun now ↦ decide (lo ≤ now) && decide (now ≤ hi)) (world.ledger.instants source) := by
  have hserved : ∀ entry : Entry, entry.passed = true → entry.served = true := by
    rintro ⟨call, _ | _⟩ hpassed
    · cases hpassed
    · rfl
  rw [TokenBucket.passed, ← h.decided, Ledger.instants, Ledger.decisions, List.zip_map',
    List.countP_map, Ledger.served, List.countP_filter, World.passes]
  apply List.countP_congr
  intro entry _
  have := hserved entry
  simp only [Function.comp_apply, Bool.and_eq_true]
  tauto

/-- A step in order keeps the simulation of every source. -/
theorem step_faithful (admission : RequestAdmission) (world : World) (action : Action)
    (hguard : InOrder world action) (h : ∀ source, Faithful admission world.ledger source) :
    ∀ source, Faithful admission (world.step admission action).ledger source := by
  intro source
  cases action with
  | advance elapsed => exact h source
  | acquire peer => exact h source
  | lock position =>
    simp only [World.step]
    cases hcall : world.waiting[position]? with
    | none => exact h source
    | some call => exact (h source).check (hguard call hcall)

/-- Assumes: any interleaving in which no call that gets the mutex is older than the instant up to
which its bucket was credited. In every window of clock values, the calls of a source that pass are
at most the burst and the rate times the length of the window in seconds. -/
theorem source_rate_le (admission : RequestAdmission) (created : ℕ) (actions : List Action)
    (hguard : Guarded (World.step admission) InOrder (World.start created) actions)
    (peer : Option IpAddr) (lo hi : ℕ) :
    ((run (World.step admission) (World.start created) actions).passes
        (peer.map canonical) lo hi : ℚ) ≤ admission.burst + admission.rps * asSecs (hi - lo) := by
  have hfaithful := run_guarded_invariant (step_faithful admission) actions _ hguard
    (fun _ ↦ Faithful.start created) (peer.map canonical)
  rw [passes_eq_passed hfaithful, mul_comm, asSecs_mul_rps]
  exact TokenBucket.passed_le admission.burst_nonneg admission.rate_nonneg _ hfaithful.ordered
    (fun _ hnone ↦ absurd hnone (by simp))

/-- The mapped address of a source shares its bucket, and another source is not affected. -/
theorem source_rate_le_mapped :
    ((run (World.step ⟨2, 1, by decide, by decide⟩) (World.start 0)
        [.acquire (some (.v4 3221225985)), .acquire (some (.v6 281473902969345)), .acquire none,
          .lock 2, .lock 1, .lock 0]).passes (some (.v4 3221225985)) 0 0 : ℚ) ≤
      ((1 : ℕ) : ℚ) + ((2 : ℕ) : ℚ) * asSecs (0 - 0) :=
  source_rate_le ⟨2, 1, by decide, by decide⟩ 0 _ (by decide +kernel) (some (.v4 3221225985)) 0 0

/-- Two calls with the clock value of one second pass where a burst of one is allowed: between them,
a call that had read the clock at zero sets the last refill of the bucket back. -/
theorem source_rate_exceeded :
    ¬ ∀ (admission : RequestAdmission) (created : ℕ) (actions : List Action)
      (peer : Option IpAddr) (lo hi : ℕ), lo ≤ hi →
      ((run (World.step admission) (World.start created) actions).passes
          (peer.map canonical) lo hi : ℚ) ≤ admission.burst + admission.rps * asSecs (hi - lo) := by
  intro hbound
  have hpasses : (run (World.step ⟨1, 1, by decide, by decide⟩) (World.start 0)
      [.acquire none, .advance second, .acquire none, .acquire none, .lock 1, .lock 0,
        .lock 0]).passes none second second = 2 := by decide +kernel
  have hlimit := hbound ⟨1, 1, by decide, by decide⟩ 0
    [.acquire none, .advance second, .acquire none, .acquire none, .lock 1, .lock 0, .lock 0]
    none second second le_rfl
  rw [Option.map_none, hpasses, Nat.sub_self] at hlimit
  norm_num [asSecs] at hlimit

end Relayna.Auth.SourceAdmission

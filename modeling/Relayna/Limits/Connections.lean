import Mathlib.Data.Nat.Cast.Basic
import Relayna.Common
import Relayna.Library.ReferenceCounts
import Relayna.Library.Transition

/-!
# Connection limits

`ConnectionLimits` of `crates/gateway-proxy/src/accessa_transport.rs` is a mutex around a map from a
scope (a service, or `litellm:` and a route) and an identity to the number of open sockets.
`acquire` compares three sums over the map with their bounds and hands out a lease; the `Drop` of a
lease gives its entry back. Both hold the mutex throughout, so a run is a list of calls in the order
in which the tasks of the instance get the mutex. The bounds come with each call: a route may be
reconfigured while sockets are open.

The abstract limiter (`Spec`) knows the open leases and nothing else. `connection_limits_exact` says
that the map answers every call as the abstract limiter does and holds exactly the multiplicities of
the open leases, and it bounds them in every run: the instance by 4096, a scope and an identity by
the largest bound that was in force when they acquired.
-/

set_option autoImplicit false
set_option relaxedAutoImplicit false

namespace Relayna.Limits.Connections

open Relayna.Library.KeyedSum Relayna.Library.ReferenceCounts
open Relayna.Library.Transition (run run_simulation run_guarded_invariant Guarded guarded_of_forall)

/-! ### The map of counts -/

/-- The errors of `acquire`. -/
inductive GatewayError
  | rateLimitExceeded (retryAfterSeconds : Option ℕ)
  deriving DecidableEq

def instanceConnectionLimit : ℕ := 4096

/-- The key of a count: a scope and an identity. -/
abbrev Entry := String × Uuid

abbrev ConnectionLimits := AList fun _ : Entry ↦ ℕ

/-- `ConnectionLimits::acquire`. -/
def acquire (counts : ConnectionLimits) (service : String) (key : Uuid) (routeMax keyMax : ℕ) :
    Except GatewayError (Entry × ConnectionLimits) :=
  let total := Library.KeyedSum.total (fun _ count ↦ count) counts
  let route :=
    Library.KeyedSum.total (fun entry count ↦ if entry.1 = service then count else 0) counts
  let entry := (service, key)
  if instanceConnectionLimit ≤ total ∨ routeMax ≤ route ∨
      keyMax ≤ (counts.lookup entry).getD 0 then
    .error (.rateLimitExceeded (some 1))
  else .ok (entry, Library.ReferenceCounts.acquire counts entry)

/-- `ConnectionLease::drop`. -/
def dropLease (counts : ConnectionLimits) (entry : Entry) : ConnectionLimits :=
  Library.ReferenceCounts.release counts entry

/-! ### Runs -/

/-- What the tasks of an instance do. A lease is named by the number of the call that acquired it.
-/
inductive Action
  | acquire (service : String) (key : Uuid) (routeMax keyMax : ℕ)
  | drop (lease : ℕ)
  deriving DecidableEq

/-- The open leases with their names, the answers to all acquisitions, the newest first, and the map
of the instance. -/
structure Instance where
  counts : ConnectionLimits
  leases : List (ℕ × Entry)
  answers : List (Except GatewayError Entry)

/-- One call by one task. -/
def step (inst : Instance) : Action → Instance
  | .acquire service key routeMax keyMax =>
    match acquire inst.counts service key routeMax keyMax with
    | .error error => { inst with answers := .error error :: inst.answers }
    | .ok (entry, counts) =>
      ⟨counts, (inst.answers.length, entry) :: inst.leases, .ok entry :: inst.answers⟩
  | .drop lease =>
    match inst.leases.find? (·.1 = lease) with
    | none => inst
    | some (_, entry) =>
      { inst with
        counts := dropLease inst.counts entry
        leases := inst.leases.eraseP (·.1 = lease) }

def started : Instance :=
  ⟨∅, [], []⟩

/-! ### The limiter that knows the open leases -/

/-- The open leases and the answers. -/
structure Spec where
  leases : List (ℕ × Entry)
  answers : List (Except GatewayError Entry)

def openEntries (leases : List (ℕ × Entry)) : List Entry :=
  leases.map Prod.snd

/-- The number of open leases whose entry passes a test. -/
def openWhere (test : Entry → Bool) (leases : List (ℕ × Entry)) : ℕ :=
  (openEntries leases).countP test

/-- The number of open leases of a scope. -/
def openIn (service : String) (leases : List (ℕ × Entry)) : ℕ :=
  openWhere (fun entry ↦ entry.1 = service) leases

/-- The number of open leases of a scope and an identity. -/
def openAt (entry : Entry) (leases : List (ℕ × Entry)) : ℕ :=
  openWhere (fun held ↦ held = entry) leases

/-- A lease may be handed out: neither the instance nor the scope nor the entry is full. -/
def Room (leases : List (ℕ × Entry)) (service : String) (key : Uuid) (routeMax keyMax : ℕ) : Prop :=
  leases.length < instanceConnectionLimit ∧ openIn service leases < routeMax ∧
    openAt (service, key) leases < keyMax

instance (leases : List (ℕ × Entry)) (service : String) (key : Uuid) (routeMax keyMax : ℕ) :
    Decidable (Room leases service key routeMax keyMax) :=
  inferInstanceAs (Decidable (_ ∧ _ ∧ _))

/-- A lease is handed out when there is room, and is open until it is dropped. -/
def Spec.step (spec : Spec) : Action → Spec
  | .acquire service key routeMax keyMax =>
    if Room spec.leases service key routeMax keyMax then
      ⟨(spec.answers.length, (service, key)) :: spec.leases, .ok (service, key) :: spec.answers⟩
    else { spec with answers := .error (.rateLimitExceeded (some 1)) :: spec.answers }
  | .drop lease => { spec with leases := spec.leases.eraseP (·.1 = lease) }

/-- The map of an instance counts the open leases, and the rest agrees. -/
structure Refines (inst : Instance) (spec : Spec) : Prop where
  leases : inst.leases = spec.leases
  answers : inst.answers = spec.answers
  counts : Counts inst.counts (openEntries spec.leases)

/-- Assumes: a map that counts the open leases. Its sum is their number. -/
theorem total_counts {counts : ConnectionLimits} {leases : List (ℕ × Entry)}
    (hcounts : Counts counts (openEntries leases)) :
    Library.KeyedSum.total (fun _ count ↦ count) counts = leases.length := by
  have htotal := hcounts.total_eq fun _ ↦ 1
  simp only [Nat.one_mul] at htotal
  rw [htotal, List.map_const', List.sum_replicate, nsmul_one, Nat.cast_id, openEntries,
    List.length_map]

/-- Assumes: a map that counts the open leases. Its sum over a scope is the number of leases there.
-/
theorem total_route {counts : ConnectionLimits} {leases : List (ℕ × Entry)}
    (hcounts : Counts counts (openEntries leases)) (service : String) :
    Library.KeyedSum.total (fun entry count ↦ if entry.1 = service then count else 0) counts =
      openIn service leases := by
  have htotal := hcounts.total_eq fun entry ↦ if entry.1 = service then 1 else 0
  have hmeasure : (fun (entry : Entry) (count : ℕ) ↦ if entry.1 = service then count else 0) =
      fun entry count ↦ (if entry.1 = service then 1 else 0) * count := by
    ext entry count
    split_ifs <;> simp
  rw [hmeasure, htotal, openIn, openWhere]
  induction openEntries leases with
  | nil => rfl
  | cons entry rest ih =>
    rw [List.map_cons, List.sum_cons, List.countP_cons, ih, Nat.add_comm]
    simp only [decide_eq_true_eq]

/-- Assumes: a map that counts the open leases. Its value at an entry is the number of leases there.
-/
theorem lookup_counts {counts : ConnectionLimits} {leases : List (ℕ × Entry)}
    (hcounts : Counts counts (openEntries leases)) (entry : Entry) :
    counts.lookup entry = if openAt entry leases = 0 then none else some (openAt entry leases) :=
  hcounts entry

/-- Assumes: a lease that is open. The entries are its own and those that dropping it leaves. -/
theorem perm_drop {leases : List (ℕ × Entry)} {lease : ℕ} {found : ℕ × Entry}
    (hfound : leases.find? (·.1 = lease) = some found) :
    (openEntries leases).Perm (found.2 :: openEntries (leases.eraseP (·.1 = lease))) := by
  obtain ⟨hholds, before, after, rfl, hbefore⟩ := List.find?_eq_some_iff_append.mp hfound
  have herase : (before ++ found :: after).eraseP (·.1 = lease) = before ++ after := by
    rw [List.eraseP_append_right _ (by simpa using hbefore),
      List.eraseP_cons_of_pos (by exact hholds)]
  rw [herase]
  simp only [openEntries, List.map_append, List.map_cons]
  exact List.perm_middle

/-- Assumes: a map that counts the open leases. It hands out a lease exactly when there is room. -/
theorem acquire_eq {counts : ConnectionLimits} {leases : List (ℕ × Entry)}
    (hcounts : Counts counts (openEntries leases)) (service : String) (key : Uuid)
    (routeMax keyMax : ℕ) :
    acquire counts service key routeMax keyMax =
      if Room leases service key routeMax keyMax then
        .ok ((service, key), Library.ReferenceCounts.acquire counts (service, key))
      else .error (.rateLimitExceeded (some 1)) := by
  unfold Connections.acquire
  have hat : (counts.lookup (service, key)).getD 0 = openAt (service, key) leases := by
    rw [lookup_counts hcounts]
    split_ifs with hzero
    · exact hzero.symm
    · rfl
  simp only [total_counts hcounts, total_route hcounts, hat]
  by_cases hroom : Room leases service key routeMax keyMax
  · rw [if_pos hroom, if_neg]
    unfold Room at hroom
    omega
  · rw [if_neg hroom, if_pos]
    unfold Room at hroom
    omega

/-- One call keeps the refinement. -/
theorem Refines.step (inst : Instance) (spec : Spec) (action : Action)
    (hrefines : Refines inst spec) : Refines (step inst action) (spec.step action) := by
  obtain ⟨hleases, hanswers, hcounts⟩ := hrefines
  cases action with
  | acquire service key routeMax keyMax =>
    simp only [Connections.step, Spec.step, acquire_eq hcounts]
    by_cases hroom : Room spec.leases service key routeMax keyMax
    · simp only [hroom, if_true]
      refine ⟨?_, ?_, hcounts.acquire (service, key)⟩
      · rw [hanswers, hleases]
      · rw [hanswers]
    · simp only [hroom, if_false]
      exact ⟨hleases, congrArg _ hanswers, hcounts⟩
  | drop lease =>
    simp only [Connections.step, Spec.step, hleases]
    cases hfound : spec.leases.find? (·.1 = lease) with
    | none =>
      have hnone : spec.leases.eraseP (·.1 = lease) = spec.leases :=
        List.eraseP_of_forall_not fun held hheld ↦ List.find?_eq_none.mp hfound held hheld
      rw [hnone]
      exact ⟨hleases, hanswers, hcounts⟩
    | some found => exact ⟨rfl, hanswers, (hcounts.perm (perm_drop hfound)).release⟩

theorem refines_started : Refines started ⟨[], []⟩ :=
  ⟨rfl, rfl, counts_empty⟩

/-! ### The bounds -/

/-- Assumes: an acquisition that passes a test finds fewer than `bound` open leases that pass it.
The leases that pass the test stay within the bound. -/
theorem Spec.openWhere_step_le {test : Entry → Bool} {bound : ℕ} (spec : Spec) (action : Action)
    (hbound : ∀ service key routeMax keyMax, action = .acquire service key routeMax keyMax →
      test (service, key) = true → Room spec.leases service key routeMax keyMax →
      openWhere test spec.leases < bound)
    (hopen : openWhere test spec.leases ≤ bound) :
    openWhere test (spec.step action).leases ≤ bound := by
  cases action with
  | acquire service key routeMax keyMax =>
    simp only [Spec.step]
    by_cases hroom : Room spec.leases service key routeMax keyMax
    · simp only [hroom, if_true]
      unfold openWhere openEntries at *
      rw [List.map_cons, List.countP_cons]
      split_ifs with htest
      · exact hbound service key routeMax keyMax rfl htest hroom
      · exact hopen
    · simpa only [hroom, if_false] using hopen
  | drop lease =>
    have hsublist := (List.eraseP_sublist (p := (·.1 = lease)) (l := spec.leases)).map Prod.snd
    exact hsublist.countP_le.trans hopen

/-- Assumes: every acquisition of a run that passes a test has, where there is room for it, fewer
than `bound` leases that pass the test. The leases that pass the test are at most `bound` after the
run. -/
theorem Spec.openWhere_run_le {test : Entry → Bool} {bound : ℕ} (actions : List Action)
    (hbound : ∀ service key routeMax keyMax, .acquire service key routeMax keyMax ∈ actions →
      test (service, key) = true → ∀ leases, Room leases service key routeMax keyMax →
      openWhere test leases < bound) :
    openWhere test (run Spec.step ⟨[], []⟩ actions).leases ≤ bound := by
  have hguarded : Guarded Spec.step (fun _ action ↦ action ∈ actions) ⟨[], []⟩ actions :=
    guarded_of_forall actions (fun action haction _ ↦ haction) _
  have hstep : ∀ (spec : Spec) action, action ∈ actions → openWhere test spec.leases ≤ bound →
      openWhere test (spec.step action).leases ≤ bound := by
    intro spec action haction hopen
    refine Spec.openWhere_step_le spec action ?_ hopen
    rintro service key routeMax keyMax rfl htest hroom
    exact hbound service key routeMax keyMax haction htest spec.leases hroom
  exact run_guarded_invariant hstep actions _ hguarded (Nat.zero_le bound)

/-! ### Every run -/

/-- In every run of an instance, the map answers each acquisition as the limiter does that knows the
open leases, and holds for each entry the number of its open leases, or nothing where there is none:
nothing is lost when leases are dropped, and nothing stays behind. At most 4096 leases are open. The
open leases of a scope, and those of an identity in a scope, are at most the largest bound that an
acquisition of the run gave for them. -/
theorem connection_limits_exact (actions : List Action) :
    (run step started actions).answers = (run Spec.step ⟨[], []⟩ actions).answers ∧
      (∀ entry, (run step started actions).counts.lookup entry =
        if openAt entry (run step started actions).leases = 0 then none
        else some (openAt entry (run step started actions).leases)) ∧
      (run step started actions).leases.length ≤ instanceConnectionLimit ∧
      (∀ service bound, (∀ key routeMax keyMax, .acquire service key routeMax keyMax ∈ actions →
          routeMax ≤ bound) → openIn service (run step started actions).leases ≤ bound) ∧
      ∀ service key bound, (∀ routeMax keyMax, .acquire service key routeMax keyMax ∈ actions →
          keyMax ≤ bound) → openAt (service, key) (run step started actions).leases ≤ bound := by
  obtain ⟨hleases, hanswers, hcounts⟩ :=
    run_simulation Refines.step actions started ⟨[], []⟩ refines_started
  rw [hleases]
  refine ⟨hanswers, lookup_counts hcounts, ?_, ?_, ?_⟩
  · have hall : ∀ leases, openWhere (fun _ ↦ true) leases = leases.length := by
      intro leases
      rw [openWhere, List.countP_true, openEntries, List.length_map]
    rw [← hall]
    refine Spec.openWhere_run_le actions fun service key routeMax keyMax _ _ leases hroom ↦ ?_
    rw [hall]
    exact hroom.1
  · intro service bound hbound
    refine Spec.openWhere_run_le actions fun other key routeMax keyMax hmem htest leases hroom ↦ ?_
    obtain rfl : other = service := of_decide_eq_true htest
    exact hroom.2.1.trans_le (hbound key routeMax keyMax hmem)
  · intro service key bound hbound
    refine Spec.openWhere_run_le actions fun other key' routeMax keyMax hmem htest leases hroom ↦ ?_
    obtain ⟨rfl, rfl⟩ : other = service ∧ key' = key := Prod.mk.inj (of_decide_eq_true htest)
    exact hroom.2.2.trans_le (hbound routeMax keyMax hmem)

end Relayna.Limits.Connections

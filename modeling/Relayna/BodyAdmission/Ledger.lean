import Relayna.BodyAdmission.Controller
import Relayna.Library.KeyedSum
import Relayna.Library.Table
import Relayna.Library.Transition

/-!
# The body-admission counters are the sums over the live leases

A lease is live from the moment it has its slot until the last part of its drop. What it counts for
is what it has not returned yet: its working charge until the first part of the drop, its bytes
until the second, its slot until the third (`Lease.heldWorking`, `Lease.heldBytes`).

`Balanced` says that every counter is the sum of what the live leases hold, that the sums are within
the configured bounds, and that a lease classed large has a charge, without which the drop would not
return its class. `updateWorking_moves` is the one fact about a change of the working set that all
operations share: what the counters gain is what the lease gains. `balanced_run` is the invariant
for every interleaving, and `ledger_balanced` states it with the subtractions.
-/

set_option autoImplicit false
set_option relaxedAutoImplicit false

namespace Relayna.BodyAdmission

open Library.MachineWord Library.KeyedSum Library.Transition

/-! ### What a lease holds -/

/-- The lease has not returned its working charge. -/
def Phase.holdsWorking : Phase → Bool
  | .workingReturned => false
  | .bytesReturned => false
  | _ => true

/-- The lease has not returned its bytes. -/
def Phase.holdsBytes : Phase → Bool
  | .bytesReturned => false
  | _ => true

/-- The reserved bytes a lease has not returned. -/
def Lease.heldBytes (lease : Lease) : ℕ :=
  if lease.phase.holdsBytes then lease.reservedBytes else 0

/-- The working charge a lease has not returned. -/
def Lease.heldWorking (lease : Lease) : ℕ :=
  if lease.phase.holdsWorking then lease.workingBytes else 0

/-- The lease is classed large and has not returned its charge. -/
def Lease.heldLarge (lease : Lease) : Bool :=
  lease.phase.holdsWorking && lease.large

/-- The working charge of a lease classed large. -/
def Lease.heldLargeWorking (lease : Lease) : ℕ :=
  if lease.heldLarge then lease.workingBytes else 0

/-- The reserved bytes of the live leases. -/
def State.reservedBytes (state : State) : ℕ :=
  total (fun _ lease ↦ lease.heldBytes) state.leases

/-- The working charges of the live leases. -/
def State.workingBytes (state : State) : ℕ :=
  total (fun _ lease ↦ lease.heldWorking) state.leases

/-- The working charges of the live leases classed large. -/
def State.largeWorkingBytes (state : State) : ℕ :=
  total (fun _ lease ↦ lease.heldLargeWorking) state.leases

/-- The number of live leases classed large. -/
def State.largeLeases (state : State) : ℕ :=
  total (fun _ lease ↦ lease.heldLarge.toNat) state.leases

def State.liveLeases (state : State) : ℕ :=
  total (fun _ _ ↦ 1) state.leases

/-! ### The invariant -/

/-- The working set is within the bounds of the policy. -/
def WorkingSet.Bounded (controller : BodyAdmissionController) (working : WorkingSet) : Prop :=
  ∀ policy ∈ controller.sizePolicy, working.bytes ≤ policy.maxWorkingBytes.val ∧
    working.largeBytes ≤ policy.maxWorkingBytes.val - policy.smallReserve.getD 0 ∧
    working.largeRequests ≤ controller.maxRequests.val - policy.reservedSmallRequests.val

/-- A lease is classed large only with a charge, and has a charge only under a policy. -/
structure Lease.WellCharged (controller : BodyAdmissionController) (lease : Lease) : Prop where
  charged : lease.large = true → 0 < lease.workingBytes
  uncharged : controller.sizePolicy = none → lease.workingBytes = 0

/-- Every counter is the sum of what the live leases hold, within its bound. -/
structure Balanced (controller : BodyAdmissionController) (state : State) : Prop where
  requests : state.activeRequests = state.liveLeases
  requests_le : state.activeRequests ≤ controller.maxRequests.val
  bytes : state.activeBytes = state.reservedBytes
  bytes_le : state.activeBytes ≤ controller.maxBytes.val
  working : state.working.bytes = state.workingBytes
  largeBytes : state.working.largeBytes = state.largeWorkingBytes
  largeRequests : state.working.largeRequests = state.largeLeases
  bounded : state.working.Bounded controller
  wellCharged : ∀ leaseId lease, state.leases.lookup leaseId = some lease →
    lease.WellCharged controller

section Invariant

variable {controller : BodyAdmissionController} {state : State}

/-- A controller without leases is balanced. -/
theorem balanced_initial (controller : BodyAdmissionController) :
    Balanced controller State.initial where
  requests := rfl
  requests_le := Nat.zero_le _
  bytes := rfl
  bytes_le := Nat.zero_le _
  working := rfl
  largeBytes := rfl
  largeRequests := rfl
  bounded := fun _ _ ↦ ⟨Nat.zero_le _, Nat.zero_le _, Nat.zero_le _⟩
  wellCharged := fun _ _ hlookup ↦ absurd hlookup (by simp [State.initial])

/-- What a live lease holds is in the counters. -/
theorem held_le (hstate : Balanced controller state) {leaseId : ℕ} {lease : Lease}
    (hlookup : state.leases.lookup leaseId = some lease) :
    1 ≤ state.activeRequests ∧ lease.heldBytes ≤ state.activeBytes ∧
      lease.heldWorking ≤ state.working.bytes ∧
      lease.heldLargeWorking ≤ state.working.largeBytes ∧
      lease.heldLarge.toNat ≤ state.working.largeRequests := by
  rw [hstate.requests, hstate.bytes, hstate.working, hstate.largeBytes, hstate.largeRequests]
  refine ⟨?_, ?_, ?_, ?_, ?_⟩
  · exact measure_le_total (fun _ _ ↦ 1) (fun _ _ _ ↦ Nat.zero_le _) hlookup
  · exact measure_le_total (fun _ lease ↦ lease.heldBytes) (fun _ _ _ ↦ Nat.zero_le _) hlookup
  · exact measure_le_total (fun _ lease ↦ lease.heldWorking) (fun _ _ _ ↦ Nat.zero_le _) hlookup
  · exact measure_le_total (fun _ lease ↦ lease.heldLargeWorking) (fun _ _ _ ↦ Nat.zero_le _)
      hlookup
  · exact measure_le_total (fun _ lease ↦ lease.heldLarge.toNat) (fun _ _ _ ↦ Nat.zero_le _)
      hlookup

/-- The counters of a balanced state are words. -/
theorem counters_lt (hstate : Balanced controller state) :
    state.activeRequests < 2 ^ 64 ∧ state.activeBytes < 2 ^ 64 ∧ state.working.bytes < 2 ^ 64 ∧
      state.working.largeBytes ≤ state.working.bytes ∧
      state.working.largeRequests ≤ state.activeRequests := by
  refine ⟨hstate.requests_le.trans_lt controller.maxRequests.isLt,
    hstate.bytes_le.trans_lt controller.maxBytes.isLt, ?_, ?_, ?_⟩
  · cases hpolicy : controller.sizePolicy with
    | none =>
      have hzero : state.workingBytes = total (fun _ _ ↦ 0) state.leases := by
        refine total_congr state.leases fun leaseId lease hlookup ↦ ?_
        rw [Lease.heldWorking, (hstate.wellCharged leaseId lease hlookup).uncharged hpolicy,
          ite_self]
      rw [hstate.working, hzero]
      simp [total]
    | some policy =>
      exact (hstate.bounded policy hpolicy).1.trans_lt policy.maxWorkingBytes.isLt
  · rw [hstate.largeBytes, hstate.working]
    refine total_le_total _ _ fun leaseId lease _ ↦ ?_
    unfold Lease.heldLargeWorking Lease.heldWorking Lease.heldLarge
    cases lease.phase.holdsWorking <;> cases lease.large <;> simp
  · rw [hstate.largeRequests, hstate.requests]
    exact total_le_total _ _ fun leaseId lease _ ↦ Bool.toNat_le _

/-- A lease that is not classed large leaves room for one more that is. -/
theorem largeRequests_room (hstate : Balanced controller state) {leaseId : ℕ} {lease : Lease}
    (hlookup : state.leases.lookup leaseId = some lease) :
    state.working.largeRequests + 1 ≤ state.activeRequests + lease.heldLarge.toNat := by
  have hlarge := measure_add_total_erase (fun _ lease ↦ lease.heldLarge.toNat) hlookup
  have hlive := measure_add_total_erase (fun _ _ ↦ 1) hlookup
  have hle : total (fun _ lease ↦ lease.heldLarge.toNat) (state.leases.erase leaseId) ≤
      total (fun _ _ ↦ 1) (state.leases.erase leaseId) :=
    total_le_total _ _ fun _ lease _ ↦ Bool.toNat_le _
  rw [hstate.largeRequests, hstate.requests]
  unfold State.largeLeases State.liveLeases
  omega

/-! ### What an operation moves -/

/-- What the working set gains is what the lease gains. -/
structure Moves (controller : BodyAdmissionController) (working : WorkingSet) (lease : Lease)
    (working' : WorkingSet) (lease' : Lease) : Prop where
  bytes : working'.bytes + lease.workingBytes = working.bytes + lease'.workingBytes
  largeBytes : working'.largeBytes + (if lease.large then lease.workingBytes else 0) =
    working.largeBytes + (if lease'.large then lease'.workingBytes else 0)
  largeRequests : working'.largeRequests + lease.large.toNat =
    working.largeRequests + lease'.large.toNat
  bounded : working.Bounded controller → working'.Bounded controller
  wellCharged : lease.WellCharged controller → lease'.WellCharged controller
  reserved : lease'.reservedBytes = lease.reservedBytes
  phase : lease'.phase = lease.phase

/-- A change without effect moves nothing. -/
theorem Moves.refl (controller : BodyAdmissionController) (working : WorkingSet) (lease : Lease) :
    Moves controller working lease working lease :=
  ⟨rfl, rfl, rfl, id, id, rfl, rfl⟩

/-- A charge is the sum of its parts, in range. -/
theorem charge_eq_some {policy : SizeAwareBodyPolicy} {lease : Lease} {length capacity : ℕ}
    {processing : Bool} {charge : ℕ} :
    lease.charge policy length capacity processing = some charge ↔
      ∃ workspace, lease.workspace policy length processing = some workspace ∧
        workspace + max capacity length + lease.rewriteCapacity + requestWorkingOverhead = charge ∧
        charge < 2 ^ 64 := by
  simp only [Lease.charge, Option.bind_eq_bind, Option.bind_eq_some_iff, checkedAdd_eq_some]
  constructor
  · rintro ⟨workspace, hworkspace, _, ⟨rfl, -⟩, _, ⟨rfl, -⟩, hsum, hlt⟩
    exact ⟨workspace, hworkspace, hsum, hlt⟩
  · rintro ⟨workspace, hworkspace, hsum, hlt⟩
    exact ⟨workspace, hworkspace, _, ⟨rfl, by omega⟩, _, ⟨rfl, by omega⟩, hsum, hlt⟩

/-- Every charge covers the overhead of a request. -/
theorem overhead_le_charge {policy : SizeAwareBodyPolicy} {lease : Lease} {length capacity : ℕ}
    {processing : Bool} {charge : ℕ}
    (hcharge : lease.charge policy length capacity processing = some charge) :
    requestWorkingOverhead ≤ charge := by
  obtain ⟨_, -, hsum, -⟩ := charge_eq_some.mp hcharge
  omega

/-- A successful change under a policy gives the lease the charge and the class it asked for. -/
theorem updateWorking_lease {policy : SizeAwareBodyPolicy}
    (hpolicy : controller.sizePolicy = some policy) {working working' : WorkingSet}
    {lease lease' : Lease} {length capacity : ℕ} {large processing : Bool}
    (hok : updateWorking controller working lease length capacity large processing =
      .ok (working', lease')) :
    ∃ charge, lease.charge policy length capacity processing = some charge ∧
      lease' = { lease with workingBytes := charge, large := lease.classed large } ∧
      ((working' = working ∧ lease' = lease) ∨
        ∃ bytes largeBytes, (checkedSub working.bytes lease.workingBytes).bind
            (checkedAdd 64 · charge) = some bytes ∧
          (checkedSub working.largeBytes (if lease.large then lease.workingBytes else 0)).bind
            (checkedAdd 64 · (if lease.classed large then charge else 0)) = some largeBytes ∧
          working' = ⟨bytes, largeBytes, wrappingAdd 64
            (wrappingSub 64 working.largeRequests lease.large.toNat)
            (lease.classed large).toNat⟩ ∧
          bytes ≤ policy.maxWorkingBytes.val ∧
          largeBytes ≤ policy.maxWorkingBytes.val - policy.smallReserve.getD 0 ∧
          working'.largeRequests ≤
            controller.maxRequests.val - policy.reservedSmallRequests.val) := by
  unfold updateWorking at hok
  rw [hpolicy] at hok
  dsimp only at hok
  split at hok
  · exact absurd hok (by simp)
  · rename_i charge hcharge
    refine ⟨charge, hcharge, ?_⟩
    by_cases hsame : charge = lease.workingBytes ∧ lease.classed large = lease.large
    · rw [if_pos hsame] at hok
      obtain ⟨rfl, rfl⟩ := Prod.mk.inj (Except.ok.inj hok)
      refine ⟨?_, .inl ⟨rfl, rfl⟩⟩
      rw [hsame.1, hsame.2]
    · rw [if_neg hsame] at hok
      split at hok
      · rename_i bytes largeBytes hbytes hlargeBytes
        split_ifs at hok with hover
        obtain ⟨rfl, rfl⟩ := Prod.mk.inj (Except.ok.inj hok)
        push Not at hover
        exact ⟨rfl, .inr ⟨bytes, largeBytes, hbytes, hlargeBytes, rfl, hover.1, hover.2.1,
          hover.2.2⟩⟩
      · exact absurd hok (by simp)

/-- A successful change of the working set moves what the lease gains. Assumes: the charge of the
lease is in the counters, and the number of large leases is not at the end of the range. -/
theorem updateWorking_moves {working working' : WorkingSet} {lease lease' : Lease}
    {length capacity : ℕ} {large processing : Bool}
    (hbytes : lease.workingBytes ≤ working.bytes)
    (hlargeBytes : (if lease.large then lease.workingBytes else 0) ≤ working.largeBytes)
    (hlargeRequests : lease.large.toNat ≤ working.largeRequests)
    (hroom : working.largeRequests + 1 < 2 ^ 64 + lease.large.toNat)
    (hok : updateWorking controller working lease length capacity large processing =
      .ok (working', lease')) :
    Moves controller working lease working' lease' := by
  cases hpolicy : controller.sizePolicy with
  | none =>
    unfold updateWorking at hok
    rw [hpolicy] at hok
    obtain ⟨rfl, rfl⟩ := Prod.mk.inj (Except.ok.inj hok)
    exact Moves.refl controller working lease
  | some policy =>
    obtain ⟨charge, hcharge, hlease, ⟨rfl, rfl⟩ | ⟨bytes, largeBytes, hnext, hnextLarge, hworking,
      hmax, hmaxLarge, hmaxRequests⟩⟩ := updateWorking_lease hpolicy hok
    · exact Moves.refl controller working' lease'
    · rw [checkedSub_of_le hbytes, Option.bind_some, checkedAdd_eq_some] at hnext
      rw [checkedSub_of_le hlargeBytes, Option.bind_some, checkedAdd_eq_some] at hnextLarge
      have hlargeLt := Bool.toNat_le (lease.classed large)
      have hlt : working.largeRequests < 2 ^ 64 := by
        have := Bool.toNat_le lease.large
        omega
      have hcount : wrappingAdd 64 (wrappingSub 64 working.largeRequests lease.large.toNat)
          (lease.classed large).toNat =
            working.largeRequests - lease.large.toNat + (lease.classed large).toNat := by
        rw [wrappingSub_of_le hlargeRequests hlt, wrappingAdd_of_lt]
        omega
      subst hlease hworking
      refine ⟨?_, ?_, ?_, fun _ other hother ↦ ?_, fun _ ↦ ⟨fun _ ↦ ?_, fun hnone ↦ ?_⟩, rfl, rfl⟩
      · show bytes + lease.workingBytes = working.bytes + charge
        omega
      · show largeBytes + (if lease.large then lease.workingBytes else 0) =
          working.largeBytes + (if lease.classed large then charge else 0)
        omega
      · show wrappingAdd 64 _ _ + lease.large.toNat =
          working.largeRequests + (lease.classed large).toNat
        rw [hcount]
        omega
      · obtain rfl : policy = other := Option.some.inj (hpolicy.symm.trans hother)
        exact ⟨hmax, hmaxLarge, hmaxRequests⟩
      · exact (by decide : 0 < requestWorkingOverhead).trans_le (overhead_le_charge hcharge)
      · exact absurd (hpolicy.symm.trans hnone) (by simp)

/-! ### One lease is replaced -/

/-- A lease whose charge and bytes move with the counters keeps the state balanced. Assumes: a live
lease, a new one, and new counters that differ by what the leases hold and are within the bounds. -/
theorem Balanced.replace (hstate : Balanced controller state) {leaseId : ℕ} {lease lease' : Lease}
    (hlookup : state.leases.lookup leaseId = some lease) {activeBytes : ℕ} {working : WorkingSet}
    (hbytes : activeBytes + lease.heldBytes = state.activeBytes + lease'.heldBytes)
    (hbytes_le : activeBytes ≤ controller.maxBytes.val)
    (hworking : working.bytes + lease.heldWorking = state.working.bytes + lease'.heldWorking)
    (hlargeBytes : working.largeBytes + lease.heldLargeWorking =
      state.working.largeBytes + lease'.heldLargeWorking)
    (hlargeRequests : working.largeRequests + lease.heldLarge.toNat =
      state.working.largeRequests + lease'.heldLarge.toNat)
    (hbounded : working.Bounded controller) (hcharged : lease'.WellCharged controller) :
    Balanced controller
      ⟨state.activeRequests, activeBytes, working, state.leases.insert leaseId lease'⟩ := by
  have hmove := fun measure : ℕ → Lease → ℕ ↦ measure_add_total_insert measure hlookup lease'
  have hlive := hmove fun _ _ ↦ 1
  have hreserved := hmove fun _ lease ↦ lease.heldBytes
  have hcharges := hmove fun _ lease ↦ lease.heldWorking
  have hlargeCharges := hmove fun _ lease ↦ lease.heldLargeWorking
  have hlarge := hmove fun _ lease ↦ lease.heldLarge.toNat
  refine {
    requests := ?_
    requests_le := hstate.requests_le
    bytes := ?_
    bytes_le := hbytes_le
    working := ?_
    largeBytes := ?_
    largeRequests := ?_
    bounded := hbounded
    wellCharged := fun other lease'' hother ↦ ?_ }
  · have hrequests := hstate.requests
    unfold State.liveLeases at hrequests ⊢
    dsimp only
    omega
  · have hsum := hstate.bytes
    unfold State.reservedBytes at hsum ⊢
    dsimp only
    omega
  · have hsum := hstate.working
    unfold State.workingBytes at hsum ⊢
    dsimp only
    omega
  · have hsum := hstate.largeBytes
    unfold State.largeWorkingBytes at hsum ⊢
    dsimp only
    omega
  · have hsum := hstate.largeRequests
    unfold State.largeLeases at hsum ⊢
    dsimp only
    omega
  · rcases Library.Table.lookup_insert_cases hother with ⟨-, rfl⟩ | ⟨-, hkept⟩
    · exact hcharged
    · exact hstate.wellCharged other lease'' hkept

/-- The fields of a lease that the counters see. -/
def Lease.account (lease : Lease) : ℕ × ℕ × Bool :=
  (lease.reservedBytes, lease.workingBytes, lease.large)

/-- Moves between leases are moves between leases with the same account and phase. -/
theorem Moves.congr {working working' : WorkingSet} {lease₁ lease₂ lease₁' lease₂' : Lease}
    (hmoves : Moves controller working lease₁ working' lease₁')
    (haccount : lease₂.account = lease₁.account) (hphase : lease₂.phase = lease₁.phase)
    (haccount' : lease₂'.account = lease₁'.account) (hphase' : lease₂'.phase = lease₁'.phase) :
    Moves controller working lease₂ working' lease₂' := by
  obtain ⟨hreserved, hworking, hlarge⟩ : lease₂.reservedBytes = lease₁.reservedBytes ∧
      lease₂.workingBytes = lease₁.workingBytes ∧ lease₂.large = lease₁.large := by
    simpa [Lease.account] using haccount
  obtain ⟨hreserved', hworking', hlarge'⟩ : lease₂'.reservedBytes = lease₁'.reservedBytes ∧
      lease₂'.workingBytes = lease₁'.workingBytes ∧ lease₂'.large = lease₁'.large := by
    simpa [Lease.account] using haccount'
  refine ⟨?_, ?_, ?_, hmoves.bounded, fun hcharged ↦ ?_, ?_, ?_⟩
  · rw [hworking, hworking']
    exact hmoves.bytes
  · rw [hworking, hworking', hlarge, hlarge']
    exact hmoves.largeBytes
  · rw [hlarge, hlarge']
    exact hmoves.largeRequests
  · have hnew := hmoves.wellCharged ⟨hlarge ▸ hworking ▸ hcharged.charged,
      hworking ▸ hcharged.uncharged⟩
    exact ⟨hlarge' ▸ hworking' ▸ hnew.charged, hworking' ▸ hnew.uncharged⟩
  · rw [hreserved', hreserved]
    exact hmoves.reserved
  · rw [hphase', hphase]
    exact hmoves.phase

/-- What a lease that has returned nothing holds. -/
theorem held_of_holdsWorking {lease : Lease} (hholds : lease.phase.holdsWorking = true) :
    lease.heldBytes = lease.reservedBytes ∧ lease.heldWorking = lease.workingBytes ∧
      lease.heldLarge = lease.large ∧
      lease.heldLargeWorking = if lease.large then lease.workingBytes else 0 := by
  have hbytes : lease.phase.holdsBytes = true := by
    cases hphase : lease.phase <;> rw [hphase] at hholds <;> first | rfl | exact hholds
  unfold Lease.heldLargeWorking Lease.heldBytes Lease.heldWorking Lease.heldLarge
  rw [hholds, hbytes]
  simp

/-- Assumes: a lease that holds its working charge, and one with its account. The working set has
what the account says. -/
theorem Balanced.charged (hstate : Balanced controller state) {leaseId : ℕ} {lease : Lease}
    (hlookup : state.leases.lookup leaseId = some lease) (hholds : lease.phase.holdsWorking = true)
    {asking : Lease} (haccount : asking.account = lease.account) :
    asking.workingBytes = lease.workingBytes ∧ asking.large = lease.large ∧
      asking.workingBytes ≤ state.working.bytes ∧
      (if asking.large then asking.workingBytes else 0) ≤ state.working.largeBytes ∧
      asking.large.toNat ≤ state.working.largeRequests ∧
      state.working.largeRequests + 1 ≤ state.activeRequests + asking.large.toNat := by
  obtain ⟨-, hworking, hlarge⟩ : asking.reservedBytes = lease.reservedBytes ∧
      asking.workingBytes = lease.workingBytes ∧ asking.large = lease.large := by
    simpa [Lease.account] using haccount
  obtain ⟨-, hheldWorking, hheldLarge, hheldLargeWorking⟩ := held_of_holdsWorking hholds
  obtain ⟨-, -, hbytes, hlargeBytes, hlargeRequests⟩ := held_le hstate hlookup
  have hroom := largeRequests_room hstate hlookup
  rw [hheldWorking, ← hworking] at hbytes
  rw [hheldLargeWorking, ← hworking, ← hlarge] at hlargeBytes
  rw [hheldLarge, ← hlarge] at hlargeRequests hroom
  exact ⟨hworking, hlarge, hbytes, hlargeBytes, hlargeRequests, hroom⟩

/-- A change of the working set by a live lease moves what the lease gains. -/
theorem Balanced.moves (hstate : Balanced controller state) {leaseId : ℕ} {lease : Lease}
    (hlookup : state.leases.lookup leaseId = some lease) (hholds : lease.phase.holdsWorking = true)
    {asking lease' : Lease} {working' : WorkingSet} {length capacity : ℕ} {large processing : Bool}
    (hok : updateWorking controller state.working asking length capacity large processing =
      .ok (working', lease'))
    (haccount : asking.account = lease.account) (hphase : asking.phase = lease.phase) :
    Moves controller state.working lease working' lease' := by
  obtain ⟨-, -, hbytes, hlargeBytes, hlargeRequests, hroom⟩ :=
    hstate.charged hlookup hholds haccount
  have hlt := (counters_lt hstate).1
  exact (updateWorking_moves hbytes hlargeBytes hlargeRequests (by omega) hok).congr
    haccount.symm hphase.symm rfl rfl

/-- Recording a change of the working set by a live lease keeps the state balanced. Assumes: a
change that moves what the lease gains, and recordings that keep the account of a lease and do not
return anything. -/
theorem balanced_commit (hstate : Balanced controller state) {leaseId : ℕ} {lease : Lease}
    (hlookup : state.leases.lookup leaseId = some lease) (hholds : lease.phase.holdsWorking = true)
    {result : Except GatewayError (WorkingSet × Lease)} {done failed : Lease → Lease}
    (hmoves : ∀ working' lease', result = .ok (working', lease') →
      Moves controller state.working lease working' lease')
    (hdone : ∀ lease' : Lease, lease'.phase.holdsWorking = true →
      (done lease').account = lease'.account ∧ (done lease').phase.holdsWorking = true)
    (hfailed : (failed lease).account = lease.account ∧
      (failed lease).phase.holdsWorking = true) :
    Balanced controller (state.commit leaseId result done failed lease).2 := by
  obtain ⟨hbytes, hworking, hlarge, hlargeWorking⟩ := held_of_holdsWorking hholds
  have hcharged := hstate.wellCharged leaseId lease hlookup
  cases hresult : result with
  | ok moved =>
    obtain ⟨working', lease'⟩ := moved
    have hmove := hmoves working' lease' hresult
    obtain ⟨haccount, hholds'⟩ := hdone lease' (by rw [hmove.phase]; exact hholds)
    obtain ⟨hreserved', hworking', hlarge'⟩ : (done lease').reservedBytes = lease'.reservedBytes ∧
        (done lease').workingBytes = lease'.workingBytes ∧ (done lease').large = lease'.large := by
      simpa [Lease.account] using haccount
    obtain ⟨hb, hw, hl, hlw⟩ := held_of_holdsWorking hholds'
    have hnew := hmove.wellCharged hcharged
    refine hstate.replace hlookup ?_ hstate.bytes_le ?_ ?_ ?_ (hmove.bounded hstate.bounded)
      ⟨hlarge' ▸ hworking' ▸ hnew.charged, hworking' ▸ hnew.uncharged⟩
    · rw [hb, hreserved', hmove.reserved, hbytes]
    · rw [hw, hworking', hworking]
      exact hmove.bytes
    · rw [hlw, hlarge', hworking', hlargeWorking]
      exact hmove.largeBytes
    · rw [hl, hlarge', hlarge]
      exact hmove.largeRequests
  | error error =>
    obtain ⟨hreserved', hworking', hlarge'⟩ : (failed lease).reservedBytes = lease.reservedBytes ∧
        (failed lease).workingBytes = lease.workingBytes ∧ (failed lease).large = lease.large := by
      simpa [Lease.account] using hfailed.1
    obtain ⟨hb, hw, hl, hlw⟩ := held_of_holdsWorking hfailed.2
    refine hstate.replace hlookup ?_ hstate.bytes_le ?_ ?_ ?_ hstate.bounded
      ⟨hlarge' ▸ hworking' ▸ hcharged.charged, hworking' ▸ hcharged.uncharged⟩
    · rw [hb, hreserved', hbytes]
    · rw [hw, hworking', hworking]
    · rw [hlw, hlarge', hworking', hlargeWorking]
    · rw [hl, hlarge', hlarge]

/-- A successful reservation of bytes moves what the lease reserves. -/
theorem balanced_tryReserve (hstate : Balanced controller state) {leaseId : ℕ}
    {lease lease' : Lease}
    (hlookup : state.leases.lookup leaseId = some lease) (hholds : lease.phase.holdsWorking = true)
    {additionalBytes next : ℕ}
    (hok : tryReserve controller state.activeBytes lease additionalBytes = .ok (next, lease'))
    {phase : Phase} (hphase : phase.holdsWorking = true) :
    Balanced controller ⟨state.activeRequests, next, state.working,
      state.leases.insert leaseId { lease' with phase := phase }⟩ := by
  obtain ⟨hbytes, hworking, hlarge, hlargeWorking⟩ := held_of_holdsWorking hholds
  have hcharged := hstate.wellCharged leaseId lease hlookup
  obtain ⟨hnext, hle, hreserved, haccount⟩ : next + lease.reservedBytes =
        state.activeBytes + lease'.reservedBytes ∧ next ≤ controller.maxBytes.val ∧
      lease'.workingBytes = lease.workingBytes ∧ lease'.large = lease.large := by
    unfold tryReserve incrementBounded at hok
    split_ifs at hok with hzero
    · obtain ⟨rfl, rfl⟩ := Prod.mk.inj (Except.ok.inj hok)
      exact ⟨rfl, hstate.bytes_le, rfl, rfl⟩
    · split at hok
      · exact absurd hok (by simp)
      · rename_i sum hsum
        obtain ⟨rfl, rfl⟩ := Prod.mk.inj (Except.ok.inj hok)
        simp only [Option.bind_eq_bind, Option.bind_eq_some_iff, checkedAdd_eq_some,
          Option.ite_none_left_eq_some, Option.some.injEq, not_lt] at hsum
        obtain ⟨_, ⟨rfl, hlt⟩, hle, rfl⟩ := hsum
        have hheld := (held_le hstate hlookup).2.1
        rw [hbytes] at hheld
        refine ⟨?_, hle, rfl, rfl⟩
        show _ = _ + saturatingAdd 64 lease.reservedBytes additionalBytes
        rw [saturatingAdd_of_lt (by omega)]
        omega
  obtain ⟨hb, hw, hl, hlw⟩ := @held_of_holdsWorking { lease' with phase := phase } hphase
  refine hstate.replace hlookup ?_ hle ?_ ?_ ?_ hstate.bounded ⟨fun hlarge' ↦ ?_, fun hnone ↦ ?_⟩
  · rw [hb, hbytes]
    exact hnext
  · rw [hw, hworking]
    exact congrArg _ hreserved.symm
  · rw [hlw, hlargeWorking, hreserved, haccount]
  · rw [hl, hlarge, haccount]
  · show 0 < lease'.workingBytes
    rw [hreserved]
    exact hcharged.charged (haccount ▸ hlarge')
  · show lease'.workingBytes = 0
    rw [hreserved]
    exact hcharged.uncharged hnone

end Invariant

/-! ### Every step -/

section Step

variable {controller : BodyAdmissionController} {state : State}

/-- A step of a lease either does not happen or finds the lease in a phase that allows it. -/
theorem withLease_cases (state : State) (leaseId : ℕ) (enabled : Phase → Bool)
    (operation : Lease → Outcome × State) :
    state.withLease leaseId enabled operation = (.disabled, state) ∨
    ∃ lease, state.leases.lookup leaseId = some lease ∧ enabled lease.phase = true ∧
      state.withLease leaseId enabled operation = operation lease := by
  unfold State.withLease
  cases hlookup : state.leases.lookup leaseId with
  | none => exact .inl rfl
  | some lease =>
    by_cases henabled : enabled lease.phase = true
    · exact .inr ⟨lease, rfl, henabled, if_pos henabled⟩
    · exact .inl (if_neg henabled)

/-- A step of a lease keeps the state balanced when its operation does. -/
theorem balanced_withLease (hstate : Balanced controller state) {leaseId : ℕ}
    {enabled : Phase → Bool}
    {operation : Lease → Outcome × State}
    (hoperation : ∀ lease, state.leases.lookup leaseId = some lease → enabled lease.phase = true →
      Balanced controller (operation lease).2) :
    Balanced controller (state.withLease leaseId enabled operation).2 := by
  rcases withLease_cases state leaseId enabled operation with hsame |
    ⟨lease, hlookup, henabled, hstep⟩
  · rw [hsame]
    exact hstate
  · rw [hstep]
    exact hoperation lease hlookup henabled

/-- A change of the working set and a final edit of the lease. -/
theorem map_ok {result : Except GatewayError (WorkingSet × Lease)} {edit : Lease → Lease}
    {working' : WorkingSet} {lease' : Lease}
    (hok : result.map (Prod.map id edit) = .ok (working', lease')) :
    ∃ moved, result = .ok (working', moved) ∧ lease' = edit moved := by
  cases result with
  | error error => exact absurd hok (by simp [Except.map])
  | ok moved =>
    obtain ⟨rfl, rfl⟩ := Prod.mk.inj (Except.ok.inj hok)
    exact ⟨moved.2, rfl, rfl⟩

/-- An operation that asks for a charge with an unchanged account, and then edits fields the
counters do not see, moves what the lease gains. -/
theorem Balanced.moves_map (hstate : Balanced controller state) {leaseId : ℕ} {lease : Lease}
    (hlookup : state.leases.lookup leaseId = some lease) (hholds : lease.phase.holdsWorking = true)
    {asking lease' : Lease} {edit : Lease → Lease} {working' : WorkingSet} {length capacity : ℕ}
    {large processing : Bool}
    (hok : (updateWorking controller state.working asking length capacity large processing).map
      (Prod.map id edit) = .ok (working', lease'))
    (haccount : asking.account = lease.account) (hphase : asking.phase = lease.phase)
    (hedit : ∀ moved, (edit moved).account = moved.account ∧ (edit moved).phase = moved.phase) :
    Moves controller state.working lease working' lease' := by
  obtain ⟨moved, hmoved, rfl⟩ := map_ok hok
  exact (hstate.moves hlookup hholds hmoved haccount hphase).congr rfl rfl (hedit moved).1
    (hedit moved).2

/-- A successful reservation leaves the phase of the lease. -/
theorem tryReserve_phase {activeBytes additionalBytes next : ℕ} {lease lease' : Lease}
    (hok : tryReserve controller activeBytes lease additionalBytes = .ok (next, lease')) :
    lease'.phase = lease.phase := by
  unfold tryReserve at hok
  split_ifs at hok with hzero
  · rw [(Prod.mk.inj (Except.ok.inj hok)).2]
  · split at hok
    · exact absurd hok (by simp)
    · rw [← (Prod.mk.inj (Except.ok.inj hok)).2]

/-- A lease that is about to be dropped still holds what it held. -/
theorem balanced_fail (hstate : Balanced controller state) {leaseId : ℕ} {lease : Lease}
    (hlookup : state.leases.lookup leaseId = some lease)
    (hholds : lease.phase.holdsWorking = true) :
    Balanced controller ⟨state.activeRequests, state.activeBytes, state.working,
      state.leases.insert leaseId { lease with phase := .failed }⟩ := by
  have hnothing : tryReserve controller state.activeBytes lease 0 =
    .ok (state.activeBytes, lease) :=
    if_pos rfl
  exact balanced_tryReserve hstate hlookup hholds hnothing rfl

/-- Taking a slot keeps the state balanced. -/
theorem balanced_acquire (hstate : Balanced controller state) (leaseId : ℕ)
    (expectedLength : Option ℕ) :
    Balanced controller (perform controller state (.acquire leaseId expectedLength)).2 := by
  simp only [perform]
  split_ifs with hmem
  · exact hstate
  · split
    · exact hstate
    · rename_i next hnext
      simp only [incrementBounded, Option.bind_eq_bind, Option.bind_eq_some_iff, checkedAdd_eq_some,
        Option.ite_none_left_eq_some, Option.some.injEq, not_lt] at hnext
      obtain ⟨_, ⟨rfl, -⟩, hle, rfl⟩ := hnext
      have hnew := fun measure : ℕ → Lease → ℕ ↦
        total_insert_of_notMem measure hmem (Lease.new controller expectedLength)
      refine {
        requests := ?_
        requests_le := hle
        bytes := ?_
        bytes_le := hstate.bytes_le
        working := ?_
        largeBytes := ?_
        largeRequests := ?_
        bounded := hstate.bounded
        wellCharged := fun other lease hother ↦ ?_ }
      · rw [State.liveLeases, hnew, hstate.requests, add_comm]
        rfl
      · rw [State.reservedBytes, hnew]
        exact hstate.bytes.trans (zero_add _).symm
      · rw [State.workingBytes, hnew]
        exact hstate.working.trans (zero_add _).symm
      · rw [State.largeWorkingBytes, hnew]
        exact hstate.largeBytes.trans (zero_add _).symm
      · rw [State.largeLeases, hnew]
        exact hstate.largeRequests.trans (zero_add _).symm
      · rcases Library.Table.lookup_insert_cases hother with ⟨-, rfl⟩ | ⟨-, hkept⟩
        · exact ⟨fun hlarge ↦ absurd hlarge (by simp [Lease.new]), fun _ ↦ rfl⟩
        · exact hstate.wellCharged other lease hkept

/-- What returning a charge that is in the counters does to the working set. -/
theorem returnWorking_eq {working : WorkingSet} {lease : Lease}
    (hcharged : lease.WellCharged controller) (hbytes : lease.workingBytes ≤ working.bytes)
    (hlt : working.bytes < 2 ^ 64)
    (hlargeBytes : (if lease.large then lease.workingBytes else 0) ≤ working.largeBytes)
    (hlargeLt : working.largeBytes < 2 ^ 64)
    (hlargeRequests : lease.large.toNat ≤ working.largeRequests)
    (hlargeRequestsLt : working.largeRequests < 2 ^ 64) :
    returnWorking working lease = ⟨working.bytes - lease.workingBytes,
      working.largeBytes - (if lease.large then lease.workingBytes else 0),
      working.largeRequests - lease.large.toNat⟩ := by
  unfold returnWorking
  split_ifs with hpositive hlarge
  · rw [if_pos hlarge] at hlargeBytes
    rw [hlarge, Bool.toNat_true] at hlargeRequests
    rw [wrappingSub_of_le hbytes hlt, wrappingSub_of_le hlargeBytes hlargeLt,
      wrappingSub_of_le hlargeRequests hlargeRequestsLt, hlarge, Bool.toNat_true]
  · rw [wrappingSub_of_le hbytes hlt, Bool.eq_false_iff.mpr hlarge]
    rfl
  · rename_i hlarge
    exact absurd (hcharged.charged hlarge) hpositive
  · rename_i hlarge
    rw [Nat.eq_zero_of_not_pos hpositive, Bool.eq_false_iff.mpr hlarge]
    rfl

/-- The first part of the drop keeps the state balanced. -/
theorem balanced_returnWorking (hstate : Balanced controller state) {leaseId : ℕ} {lease : Lease}
    (hlookup : state.leases.lookup leaseId = some lease)
    (hholds : lease.phase.holdsWorking = true) :
    Balanced controller ⟨state.activeRequests, state.activeBytes,
      returnWorking state.working lease,
      state.leases.insert leaseId { lease with phase := .workingReturned }⟩ := by
  obtain ⟨hbytes, hworking, hlarge, hlargeWorking⟩ := held_of_holdsWorking hholds
  obtain ⟨hrequestsLt, -, hworkingLt, hlargeBytesLe, hlargeRequestsLe⟩ := counters_lt hstate
  obtain ⟨-, -, hheldWorking, hheldLargeWorking, hheldLarge⟩ := held_le hstate hlookup
  rw [hworking] at hheldWorking
  rw [hlargeWorking] at hheldLargeWorking
  rw [hlarge] at hheldLarge
  have hcharged := hstate.wellCharged leaseId lease hlookup
  rw [returnWorking_eq hcharged hheldWorking hworkingLt hheldLargeWorking (by omega) hheldLarge
    (by omega)]
  refine hstate.replace hlookup ?_ hstate.bytes_le ?_ ?_ ?_ (fun policy hpolicy ↦ ?_)
    ⟨hcharged.charged, hcharged.uncharged⟩
  · rw [hbytes]
    rfl
  · rw [hworking]
    show state.working.bytes - lease.workingBytes + lease.workingBytes = state.working.bytes + 0
    omega
  · rw [hlargeWorking]
    show state.working.largeBytes - _ + _ = state.working.largeBytes + 0
    omega
  · rw [hlarge]
    show state.working.largeRequests - _ + _ = state.working.largeRequests + 0
    omega
  · obtain ⟨hmax, hmaxLarge, hmaxRequests⟩ := hstate.bounded policy hpolicy
    exact ⟨(Nat.sub_le _ _).trans hmax, (Nat.sub_le _ _).trans hmaxLarge,
      (Nat.sub_le _ _).trans hmaxRequests⟩

/-- What a lease that has returned its charge holds. -/
theorem held_of_workingReturned {lease : Lease} (hphase : lease.phase = .workingReturned) :
    lease.heldBytes = lease.reservedBytes ∧ lease.heldWorking = 0 ∧ lease.heldLarge = false ∧
      lease.heldLargeWorking = 0 := by
  unfold Lease.heldLargeWorking Lease.heldBytes Lease.heldWorking Lease.heldLarge
  rw [hphase]
  exact ⟨rfl, rfl, rfl, rfl⟩

/-- What a lease that has returned its charge and its bytes holds. -/
theorem held_of_bytesReturned {lease : Lease} (hphase : lease.phase = .bytesReturned) :
    lease.heldBytes = 0 ∧ lease.heldWorking = 0 ∧ lease.heldLarge = false ∧
      lease.heldLargeWorking = 0 := by
  unfold Lease.heldLargeWorking Lease.heldBytes Lease.heldWorking Lease.heldLarge
  rw [hphase]
  exact ⟨rfl, rfl, rfl, rfl⟩

/-- The second part of the drop keeps the state balanced. -/
theorem balanced_returnBytes (hstate : Balanced controller state) {leaseId : ℕ} {lease : Lease}
    (hlookup : state.leases.lookup leaseId = some lease) (hphase : lease.phase = .workingReturned) :
    Balanced controller ⟨state.activeRequests, returnBytes state.activeBytes lease,
      state.working, state.leases.insert leaseId { lease with phase := .bytesReturned }⟩ := by
  obtain ⟨hbytes, hworking, hlarge, hlargeWorking⟩ := held_of_workingReturned hphase
  obtain ⟨hbytes', hworking', hlarge', hlargeWorking'⟩ :=
    @held_of_bytesReturned { lease with phase := .bytesReturned } rfl
  have hcharged := hstate.wellCharged leaseId lease hlookup
  have hheld := (held_le hstate hlookup).2.1
  rw [hbytes] at hheld
  have hreturned : returnBytes state.activeBytes lease =
      state.activeBytes - lease.reservedBytes := by
    unfold returnBytes
    split_ifs with hpositive
    · exact wrappingSub_of_le hheld (counters_lt hstate).2.1
    · omega
  rw [hreturned]
  refine hstate.replace hlookup ?_ ((Nat.sub_le _ _).trans hstate.bytes_le) ?_ ?_ ?_ hstate.bounded
    ⟨hcharged.charged, hcharged.uncharged⟩
  · rw [hbytes, hbytes']
    omega
  · rw [hworking, hworking']
  · rw [hlargeWorking, hlargeWorking']
  · rw [hlarge, hlarge']

/-- The last part of the drop keeps the state balanced. -/
theorem balanced_returnSlot (hstate : Balanced controller state) {leaseId : ℕ} {lease : Lease}
    (hlookup : state.leases.lookup leaseId = some lease) (hphase : lease.phase = .bytesReturned) :
    Balanced controller ⟨wrappingSub 64 state.activeRequests 1, state.activeBytes,
      state.working, state.leases.erase leaseId⟩ := by
  obtain ⟨hbytes, hworking, hlarge, hlargeWorking⟩ := held_of_bytesReturned hphase
  have herase := fun measure : ℕ → Lease → ℕ ↦ measure_add_total_erase measure hlookup
  rw [wrappingSub_of_le (held_le hstate hlookup).1 (counters_lt hstate).1]
  refine {
    requests := ?_
    requests_le := (Nat.sub_le _ _).trans hstate.requests_le
    bytes := ?_
    bytes_le := hstate.bytes_le
    working := ?_
    largeBytes := ?_
    largeRequests := ?_
    bounded := hstate.bounded
    wellCharged := fun other lease' hother ↦ ?_ }
  · rw [hstate.requests, State.liveLeases, ← herase, Nat.add_sub_cancel_left]
    rfl
  · rw [hstate.bytes, State.reservedBytes, ← herase, hbytes, zero_add]
    rfl
  · rw [hstate.working, State.workingBytes, ← herase, hworking, zero_add]
    rfl
  · rw [hstate.largeBytes, State.largeWorkingBytes, ← herase, hlargeWorking, zero_add]
    rfl
  · rw [hstate.largeRequests, State.largeLeases, ← herase, hlarge, Bool.toNat_false, zero_add]
    rfl
  · change (state.leases.erase leaseId).lookup other = some lease' at hother
    by_cases hsame : other = leaseId
    · rw [hsame, AList.lookup_erase] at hother
      exact absurd hother (by simp)
    · rw [AList.lookup_erase_ne hsame] at hother
      exact hstate.wellCharged other lease' hother

/-- Every step keeps the state balanced. -/
theorem balanced_step (state : State) (action : Action) (hstate : Balanced controller state) :
    Balanced controller (step controller state action) := by
  unfold step
  cases action with
  | acquire leaseId expectedLength => exact balanced_acquire hstate leaseId expectedLength
  | start leaseId =>
    refine balanced_withLease hstate fun lease hlookup henabled ↦ ?_
    have hholds : lease.phase.holdsWorking = true := by rw [of_decide_eq_true henabled]; rfl
    exact balanced_commit hstate hlookup hholds
      (fun _ _ hok ↦ hstate.moves_map hlookup hholds hok rfl rfl fun _ ↦ ⟨rfl, rfl⟩)
      (fun _ _ ↦ ⟨rfl, rfl⟩) ⟨rfl, rfl⟩
  | tryReserve leaseId additionalBytes =>
    refine balanced_withLease hstate fun lease hlookup henabled ↦ ?_
    have hholds : lease.phase.holdsWorking = true := by rw [of_decide_eq_true henabled]; rfl
    split
    · exact hstate
    · rename_i next lease' hok
      have hphase : lease'.phase = lease.phase := tryReserve_phase hok
      exact balanced_tryReserve hstate hlookup hholds hok (hphase ▸ hholds)
  | prepareBuffer leaseId length capacity =>
    refine balanced_withLease hstate fun lease hlookup henabled ↦ ?_
    have hholds : lease.phase.holdsWorking = true := by rw [of_decide_eq_true henabled]; rfl
    exact balanced_commit hstate hlookup hholds
      (fun _ _ hok ↦ hstate.moves_map hlookup hholds hok rfl rfl fun _ ↦ ⟨rfl, rfl⟩)
      (fun _ hheld ↦ ⟨rfl, hheld⟩) ⟨rfl, hholds⟩
  | prepareRewrite leaseId capacity =>
    refine balanced_withLease hstate fun lease hlookup henabled ↦ ?_
    have hholds : lease.phase.holdsWorking = true := by rw [of_decide_eq_true henabled]; rfl
    exact balanced_commit hstate hlookup hholds
      (fun _ _ hok ↦ hstate.moves_map hlookup hholds hok rfl rfl fun _ ↦ ⟨rfl, rfl⟩)
      (fun _ hheld ↦ ⟨rfl, hheld⟩) ⟨rfl, hholds⟩
  | beginProcessing leaseId =>
    refine balanced_withLease hstate fun lease hlookup henabled ↦ ?_
    have hholds : lease.phase.holdsWorking = true := by rw [of_decide_eq_true henabled]; rfl
    exact balanced_commit hstate hlookup hholds
      (fun _ _ hok ↦ hstate.moves_map hlookup hholds hok rfl rfl fun _ ↦ ⟨rfl, rfl⟩)
      (fun _ hheld ↦ ⟨rfl, hheld⟩) ⟨rfl, hholds⟩
  | retainCompactWorkspace leaseId =>
    refine balanced_withLease hstate fun lease hlookup henabled ↦ ?_
    have hholds : lease.phase.holdsWorking = true := by rw [of_decide_eq_true henabled]; rfl
    refine balanced_commit hstate hlookup hholds (fun working' lease' hok ↦ ?_)
      (fun _ hheld ↦ ⟨rfl, hheld⟩) ⟨rfl, hholds⟩
    unfold retainCompactWorkspace at hok
    split_ifs at hok with helastic
    · exact hstate.moves_map hlookup hholds hok rfl rfl fun _ ↦ ⟨rfl, rfl⟩
    · obtain ⟨rfl, rfl⟩ := Prod.mk.inj (Except.ok.inj hok)
      exact Moves.refl controller state.working lease
  | intoBytes leaseId length =>
    refine balanced_withLease hstate fun lease hlookup henabled ↦ ?_
    have hholds : lease.phase.holdsWorking = true := by rw [of_decide_eq_true henabled]; rfl
    split
    · exact balanced_fail hstate hlookup hholds
    · rename_i next lease' hok
      exact balanced_tryReserve hstate hlookup hholds hok rfl
  | convert leaseId =>
    refine balanced_withLease hstate fun lease hlookup henabled ↦ ?_
    split
    · rename_i length hphase
      have hholds : lease.phase.holdsWorking = true := by rw [hphase]; rfl
      exact balanced_commit hstate hlookup hholds
        (fun _ _ hok ↦ hstate.moves hlookup hholds hok rfl rfl) (fun _ _ ↦ ⟨rfl, rfl⟩) ⟨rfl, rfl⟩
    · exact hstate
  | returnWorking leaseId =>
    refine balanced_withLease hstate fun lease hlookup henabled ↦ ?_
    have hholds : lease.phase.holdsWorking = true := by
      rcases of_decide_eq_true henabled with hphase | hphase | hphase <;> rw [hphase] <;> rfl
    exact balanced_returnWorking hstate hlookup hholds
  | returnBytes leaseId =>
    refine balanced_withLease hstate fun lease hlookup henabled ↦ ?_
    exact balanced_returnBytes hstate hlookup (of_decide_eq_true henabled)
  | returnSlot leaseId =>
    refine balanced_withLease hstate fun lease hlookup henabled ↦ ?_
    exact balanced_returnSlot hstate hlookup (of_decide_eq_true henabled)

/-- The state after a list of steps. -/
def State.after (controller : BodyAdmissionController) (actions : List Action) : State :=
  run (step controller) State.initial actions

/-- Every reachable state is balanced. -/
theorem balanced_after (controller : BodyAdmissionController) (actions : List Action) :
    Balanced controller (State.after controller actions) :=
  run_invariant balanced_step actions State.initial (balanced_initial controller)

end Step

/-- What the validation of a policy gives: the small reserve exists and is less than the working
memory, and fewer requests are reserved for small bodies than there are. -/
theorem smallReserve_of_validated (controller : BodyAdmissionController)
    {policy : SizeAwareBodyPolicy} (hpolicy : policy ∈ controller.sizePolicy) :
    ∃ reserve, policy.smallReserve = some reserve ∧ reserve < policy.maxWorkingBytes.val ∧
      policy.reservedSmallRequests.val < controller.maxRequests.val := by
  have hvalid := controller.validated policy hpolicy
  unfold SizeAwareBodyPolicy.validate at hvalid
  split_ifs at hvalid with hinvalid
  simp only [not_or] at hinvalid
  obtain ⟨-, helastic, hreserved, -, -, -, hreserve⟩ := hinvalid
  have hconfigured : controller.configuredMaxRequests.val ≤ controller.maxRequests.val := by
    rw [controller.maxRequests_eq, Option.mem_def.mp hpolicy, Option.bind_some]
    cases hlimit : policy.elasticMaxRequests with
    | none => exact le_refl _
    | some limit =>
      rw [hlimit] at helastic
      have hle : controller.configuredMaxRequests ≤ limit := by simpa using helastic
      exact Fin.le_def.mp hle
  cases hsome : policy.smallReserve with
  | none => rw [hsome] at hreserve; exact absurd rfl hreserve
  | some reserve =>
    rw [hsome] at hreserve
    have hlt : policy.reservedSmallRequests.val < controller.configuredMaxRequests.val :=
      Nat.lt_of_not_le fun hle ↦ hreserved (Fin.le_def.mpr hle)
    refine ⟨reserve, rfl, ?_, hlt.trans_le hconfigured⟩
    simpa using hreserve

/-- The body-admission ledger. For every configuration and every interleaving of the steps of any
number of requests, in the state it reaches: the counters are the number of live leases, the bytes
they have reserved, their working charges, and the charges and the number of those classed large;
they are within `max_requests`, `max_bytes`, the working memory, the working memory less the small
reserve, and the requests less those reserved for small bodies, where neither difference is below
zero; what any live lease may still subtract from a counter is in the counter; and without a live
lease every counter is zero. -/
theorem ledger_balanced (controller : BodyAdmissionController) (actions : List Action) :
    ((State.after controller actions).activeRequests =
        (State.after controller actions).liveLeases ∧
      (State.after controller actions).activeRequests ≤ controller.maxRequests.val) ∧
    ((State.after controller actions).activeBytes =
        (State.after controller actions).reservedBytes ∧
      (State.after controller actions).activeBytes ≤ controller.maxBytes.val) ∧
    ((State.after controller actions).working.bytes =
        (State.after controller actions).workingBytes ∧
      (State.after controller actions).working.largeBytes =
        (State.after controller actions).largeWorkingBytes ∧
      (State.after controller actions).working.largeRequests =
        (State.after controller actions).largeLeases) ∧
    (∀ policy ∈ controller.sizePolicy, ∃ reserve, policy.smallReserve = some reserve ∧
      reserve ≤ policy.maxWorkingBytes.val ∧
      policy.reservedSmallRequests.val ≤ controller.maxRequests.val ∧
      (State.after controller actions).working.bytes ≤ policy.maxWorkingBytes.val ∧
      (State.after controller actions).working.largeBytes ≤ policy.maxWorkingBytes.val - reserve ∧
      (State.after controller actions).working.largeRequests ≤
        controller.maxRequests.val - policy.reservedSmallRequests.val) ∧
    (∀ leaseId lease, (State.after controller actions).leases.lookup leaseId = some lease →
      1 ≤ (State.after controller actions).activeRequests ∧
      lease.heldBytes ≤ (State.after controller actions).activeBytes ∧
      lease.heldWorking ≤ (State.after controller actions).working.bytes ∧
      lease.heldLargeWorking ≤ (State.after controller actions).working.largeBytes ∧
      lease.heldLarge.toNat ≤ (State.after controller actions).working.largeRequests) ∧
    ((State.after controller actions).leases = ∅ →
      (State.after controller actions).activeRequests = 0 ∧
      (State.after controller actions).activeBytes = 0 ∧
      (State.after controller actions).working = ⟨0, 0, 0⟩) := by
  have hstate := balanced_after controller actions
  refine ⟨⟨hstate.requests, hstate.requests_le⟩, ⟨hstate.bytes, hstate.bytes_le⟩,
    ⟨hstate.working, hstate.largeBytes, hstate.largeRequests⟩, fun policy hpolicy ↦ ?_,
    fun leaseId lease hlookup ↦ held_le hstate hlookup, fun hempty ↦ ⟨?_, ?_, ?_⟩⟩
  · obtain ⟨reserve, hreserve, hlt, hrequests⟩ := smallReserve_of_validated controller hpolicy
    obtain ⟨hmax, hmaxLarge, hmaxRequests⟩ := hstate.bounded policy hpolicy
    rw [hreserve] at hmaxLarge
    exact ⟨reserve, hreserve, hlt.le, hrequests.le, hmax, hmaxLarge, hmaxRequests⟩
  · rw [hstate.requests, State.liveLeases, hempty]
    rfl
  · rw [hstate.bytes, State.reservedBytes, hempty]
    rfl
  · refine congr (congr (congrArg WorkingSet.mk ?_) ?_) ?_
    · rw [hstate.working, State.workingBytes, hempty]
      rfl
    · rw [hstate.largeBytes, State.largeWorkingBytes, hempty]
      rfl
    · rw [hstate.largeRequests, State.largeLeases, hempty]
      rfl

end Relayna.BodyAdmission

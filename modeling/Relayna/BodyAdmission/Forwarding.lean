import Relayna.BodyAdmission.LeaseSteps

/-!
# Forwarding an admitted body

`BodyAdmissionLease::into_bytes` of `crates/gateway-proxy/src/body_admission.rs` hands a body to the
upstream: it reserves the bytes of the body, gives up the workspace of its lease, and asks for a
charge of what stays allocated. That charge is never more than the one the lease has, and never in
the large class unless the lease is.

The reason is an invariant of the lease alone (`Lease.Charged`): under a size policy a lease that is
held has exactly the charge that its own fields ask for, and is classed large whenever its extent or
its rewrite capacity is that of a large body. Every operation of the lease keeps it
(`charged_step`), so no refusal can come from what other leases hold (`into_bytes_admitted`).
-/

set_option autoImplicit false
set_option relaxedAutoImplicit false

namespace Relayna.BodyAdmission

open Library.MachineWord Library.Transition

/-! ### What a lease is charged for -/

/-- A lease has the charge that its fields ask for, and the class of a large body when it has the
extent or the rewrite capacity of one. -/
structure Lease.Charged (policy : SizeAwareBodyPolicy) (lease : Lease) : Prop where
  charge : lease.charge policy lease.extent lease.allocationCapacity lease.processing =
    some lease.workingBytes
  large_of_extent : smallBodyMaxBytes < lease.extent → lease.large = true
  large_of_rewrite : smallBodyMaxBytes < lease.rewriteCapacity → lease.large = true

/-- A lease that is held or inside `into_bytes` is charged for its fields. -/
def Lease.ChargedWhenHeld (policy : SizeAwareBodyPolicy) (lease : Lease) : Prop :=
  lease.phase = .held ∨ (∃ length, lease.phase = .converting length) → lease.Charged policy

section Charged

variable {controller : BodyAdmissionController} {policy : SizeAwareBodyPolicy}

/-- The fields of a lease that its charge and its class come from. -/
structure Lease.SameFields (lease lease' : Lease) : Prop where
  rewriteCapacity : lease'.rewriteCapacity = lease.rewriteCapacity
  compactWorkspace : lease'.compactWorkspace = lease.compactWorkspace
  workingBytes : lease'.workingBytes = lease.workingBytes
  large : lease'.large = lease.large

/-- A lease that has been given the charge it asked for is charged for its fields. Assumes: it asked
in the large class if its extent is that of a large body. -/
theorem charged_of_updateWorking (hpolicy : controller.sizePolicy = some policy)
    {working working' : WorkingSet} {asking moved lease' : Lease} {large : Bool}
    (hok : updateWorking controller working asking lease'.extent lease'.allocationCapacity large
      lease'.processing = .ok (working', moved))
    (hsame : moved.SameFields lease')
    (hlarge : smallBodyMaxBytes < lease'.extent → large = true) : lease'.Charged policy := by
  obtain ⟨charge, hcharge, rfl, -⟩ := updateWorking_lease hpolicy hok
  constructor
  · rw [hsame.workingBytes, ← hcharge]
    unfold Lease.charge Lease.workspace
    rw [hsame.rewriteCapacity, hsame.compactWorkspace]
  · intro hextent
    rw [hsame.large]
    exact (Bool.or_eq_true _ _).mpr (.inl (hlarge hextent))
  · intro hrewrite
    rw [hsame.rewriteCapacity] at hrewrite
    rw [hsame.large]
    exact (Bool.or_eq_true _ _).mpr (.inr (decide_eq_true hrewrite))

theorem charged_prepareBuffer (hpolicy : controller.sizePolicy = some policy)
    {working working' : WorkingSet} {lease moved : Lease} {length capacity : ℕ}
    (hok : prepareBuffer controller working lease length capacity = .ok (working', moved)) :
    moved.Charged policy := by
  obtain ⟨updated, hupdated, rfl⟩ := map_ok hok
  obtain ⟨charge, -, rfl, -⟩ := updateWorking_lease hpolicy hupdated
  refine charged_of_updateWorking hpolicy hupdated ⟨rfl, rfl, rfl, rfl⟩ fun hextent ↦ ?_
  exact (Bool.or_eq_true _ _).mpr (.inr (decide_eq_true hextent))

/-- The operations that ask for the extent and the class that a lease has. -/
theorem charged_current (hpolicy : controller.sizePolicy = some policy)
    {working working' : WorkingSet} {lease asking updated lease' : Lease} {processing : Bool}
    (hcharged : lease.Charged policy)
    (hupdated : updateWorking controller working asking lease.extent lease.allocationCapacity
      lease.large processing = .ok (working', updated))
    (hextent : lease'.extent = lease.extent)
    (hcapacity : lease'.allocationCapacity = lease.allocationCapacity)
    (hprocessing : lease'.processing = processing) (hsame : updated.SameFields lease') :
    lease'.Charged policy := by
  rw [← hextent, ← hcapacity, ← hprocessing] at hupdated
  refine charged_of_updateWorking hpolicy hupdated hsame fun hlarge ↦ ?_
  rw [hextent] at hlarge
  exact hcharged.large_of_extent hlarge

/-- A reservation of bytes keeps what a lease is charged for. -/
theorem charged_tryReserve {activeBytes additionalBytes next : ℕ} {lease moved : Lease}
    (hcharged : lease.Charged policy)
    (hok : tryReserve controller activeBytes lease additionalBytes = .ok (next, moved)) :
    moved.Charged policy ∧ moved.extent = lease.extent ∧
      moved.rewriteCapacity = lease.rewriteCapacity := by
  unfold tryReserve at hok
  split_ifs at hok
  · rw [← (Prod.mk.inj (Except.ok.inj hok)).2]
    exact ⟨hcharged, rfl, rfl⟩
  · split at hok
    · exact nomatch hok
    · rw [← (Prod.mk.inj (Except.ok.inj hok)).2]
      exact ⟨⟨hcharged.charge, hcharged.large_of_extent, hcharged.large_of_rewrite⟩, rfl, rfl⟩

/-- Every step of a lease keeps it charged for its fields while it is held. -/
theorem charged_step (hpolicy : controller.sizePolicy = some policy) {lease lease' : Lease}
    (hlease : lease.ChargedWhenHeld policy) (hstep : LeaseStep controller lease lease') :
    lease'.ChargedWhenHeld policy := by
  intro hphase'
  cases hstep with
  | started hphase hok =>
    have hmoved := charged_prepareBuffer hpolicy hok
    exact ⟨hmoved.charge, hmoved.large_of_extent, hmoved.large_of_rewrite⟩
  | notStarted hphase => simp at hphase'
  | reserved hphase hok => exact (charged_tryReserve (hlease (.inl hphase)) hok).1
  | buffered hphase hok => exact charged_prepareBuffer hpolicy hok
  | rewriting hphase hok =>
    obtain ⟨updated, hupdated, rfl⟩ := map_ok hok
    obtain ⟨charge, -, rfl, -⟩ := updateWorking_lease hpolicy hupdated
    exact charged_current hpolicy (hlease (.inl hphase)) hupdated rfl rfl rfl ⟨rfl, rfl, rfl, rfl⟩
  | processing hphase hok =>
    obtain ⟨updated, hupdated, rfl⟩ := map_ok hok
    obtain ⟨charge, -, rfl, -⟩ := updateWorking_lease hpolicy hupdated
    exact charged_current hpolicy (hlease (.inl hphase)) hupdated rfl rfl rfl ⟨rfl, rfl, rfl, rfl⟩
  | compacted hphase hok =>
    unfold retainCompactWorkspace at hok
    split_ifs at hok
    · obtain ⟨updated, hupdated, rfl⟩ := map_ok hok
      obtain ⟨charge, -, rfl, -⟩ := updateWorking_lease hpolicy hupdated
      exact charged_current hpolicy (hlease (.inl hphase)) hupdated rfl rfl rfl
        ⟨rfl, rfl, rfl, rfl⟩
    · rw [← (Prod.mk.inj (Except.ok.inj hok)).2]
      exact hlease (.inl hphase)
  | bound hphase hok =>
    have hmoved := (charged_tryReserve (hlease (.inl hphase)) hok).1
    exact ⟨hmoved.charge, hmoved.large_of_extent, hmoved.large_of_rewrite⟩
  | notBound hphase => simp at hphase'
  | forwarded hphase hok => simp at hphase'
  | notForwarded hphase => simp at hphase'
  | workingReturned => simp at hphase'
  | bytesReturned => simp at hphase'

/-- In every reachable state every lease that is held is charged for its fields. -/
theorem charged_after (hpolicy : controller.sizePolicy = some policy) (actions : List Action) :
    (State.after controller actions).ForallLease (Lease.ChargedWhenHeld policy) := by
  refine forallLease_after (fun expectedLength hphase ↦ ?_)
    (fun lease lease' hlease hstep ↦ charged_step hpolicy hlease hstep) actions
  simp [Lease.new] at hphase

/-! ### The charge of the forwarded body -/

/-- What `into_bytes` asks for is at most what the lease has, and covers the body. Assumes: a body
of at most the extent or the rewrite capacity of the lease. -/
theorem forwarded_charge {lease : Lease} (hcharged : lease.Charged policy) {length : ℕ}
    (hlength : length ≤ max lease.extent lease.rewriteCapacity) :
    ∃ charge, lease.stripped.charge policy length
        (max (if 0 < lease.rewriteCapacity then lease.rewriteCapacity
          else lease.allocationCapacity) length) false = some charge ∧
      charge ≤ lease.workingBytes ∧ length ≤ charge := by
  obtain ⟨workspace, -, hsum, hlt⟩ := charge_eq_some.mp hcharged.charge
  have hcapacity : max (if 0 < lease.rewriteCapacity then lease.rewriteCapacity
      else lease.allocationCapacity) length ≤
        max lease.allocationCapacity lease.extent + lease.rewriteCapacity := by
    split_ifs with hrewrite
    · omega
    · omega
  generalize hretained : max (if 0 < lease.rewriteCapacity then lease.rewriteCapacity
    else lease.allocationCapacity) length = retained at hcapacity
  have hle : length ≤ retained := hretained ▸ Nat.le_max_right _ _
  refine ⟨retained + requestWorkingOverhead, charge_eq_some.mpr ⟨0, rfl, ?_, ?_⟩, ?_, ?_⟩
  · rw [Nat.max_eq_left hle]
    show 0 + retained + 0 + requestWorkingOverhead = _
    omega
  · omega
  · omega
  · omega

/-- A change to a charge and a class that are no more than what the lease has is not refused, and no
counter gains by it. -/
theorem updateWorking_shrinks (hpolicy : controller.sizePolicy = some policy) {state : State}
    (hstate : Balanced controller state) {leaseId : ℕ} {lease : Lease}
    (hlookup : state.leases.lookup leaseId = some lease) (hholds : lease.phase.holdsWorking = true)
    (asking : Lease) (haccount : asking.account = lease.account) {length capacity : ℕ}
    {large processing : Bool} {charge : ℕ}
    (hcharge : asking.charge policy length capacity processing = some charge)
    (hle : charge ≤ lease.workingBytes)
    (hclassed : asking.classed large = true → lease.large = true) :
    ∃ working', updateWorking controller state.working asking length capacity large processing =
        .ok (working', { asking with workingBytes := charge, large := asking.classed large }) ∧
      working'.bytes ≤ state.working.bytes ∧ working'.largeBytes ≤ state.working.largeBytes ∧
      working'.largeRequests ≤ state.working.largeRequests := by
  obtain ⟨hworking, hlarge, hbytes, hlargeBytes, hlargeRequests, -⟩ :=
    hstate.charged hlookup hholds haccount
  obtain ⟨hrequestsLt, -, hbytesLt, hlargeBytesLe, hlargeRequestsLe⟩ := counters_lt hstate
  obtain ⟨hmax, hmaxLarge, hmaxRequests⟩ := hstate.bounded policy hpolicy
  rw [← hworking] at hle
  rw [← hlarge] at hclassed
  have hclass : (asking.classed large).toNat ≤ asking.large.toNat :=
    Bool.toNat_le_toNat hclassed
  have hshare : (if asking.classed large then charge else 0) ≤
      if asking.large then asking.workingBytes else 0 := by
    by_cases hasked : asking.classed large = true
    · rw [if_pos hasked, if_pos (hclassed hasked)]
      exact hle
    · rw [if_neg hasked]
      exact Nat.zero_le _
  have hnextBytes : (checkedSub state.working.bytes asking.workingBytes).bind
      (checkedAdd 64 · charge) = some (state.working.bytes - asking.workingBytes + charge) := by
    rw [checkedSub_of_le hbytes, Option.bind_some, checkedAdd_eq_some]
    exact ⟨rfl, by omega⟩
  have hnextLargeBytes : (checkedSub state.working.largeBytes
      (if asking.large then asking.workingBytes else 0)).bind
        (checkedAdd 64 · (if asking.classed large then charge else 0)) =
      some (state.working.largeBytes - (if asking.large then asking.workingBytes else 0) +
        (if asking.classed large then charge else 0)) := by
    rw [checkedSub_of_le hlargeBytes, Option.bind_some, checkedAdd_eq_some]
    exact ⟨rfl, by omega⟩
  have hnextRequests : wrappingAdd 64
      (wrappingSub 64 state.working.largeRequests asking.large.toNat)
        (asking.classed large).toNat =
      state.working.largeRequests - asking.large.toNat + (asking.classed large).toNat := by
    rw [wrappingSub_of_le hlargeRequests (by omega), wrappingAdd_of_lt (by omega)]
  unfold updateWorking
  rw [hpolicy]
  dsimp only
  rw [hcharge]
  dsimp only
  by_cases hsame : charge = asking.workingBytes ∧ asking.classed large = asking.large
  · rw [if_pos hsame]
    refine ⟨state.working, ?_, le_refl _, le_refl _, le_refl _⟩
    rw [hsame.1, hsame.2]
  · rw [if_neg hsame, hnextBytes, hnextLargeBytes, hnextRequests]
    dsimp only
    rw [if_neg (by omega)]
    exact ⟨_, rfl, by dsimp only; omega, by dsimp only; omega, by dsimp only; omega⟩

/-- The lease of a forwarded body of some length. -/
def Lease.forwarded (lease : Lease) (length charge : ℕ) : Lease :=
  { lease.stripped with
    workingBytes := charge
    large := lease.stripped.classed (decide (smallBodyMaxBytes < length))
    phase := .forwarded }

/-- The second part of `into_bytes`. -/
theorem perform_convert (hpolicy : controller.sizePolicy = some policy) {state : State}
    (hstate : Balanced controller state) {leaseId length : ℕ} {lease : Lease}
    (hlookup : state.leases.lookup leaseId = some lease)
    (hphase : lease.phase = .converting length) (hcharged : lease.Charged policy)
    (hlength : length ≤ max lease.extent lease.rewriteCapacity) :
    ∃ next lease', perform controller state (.convert leaseId) = (.done, next) ∧
      next.working.bytes ≤ state.working.bytes ∧
      next.working.largeBytes ≤ state.working.largeBytes ∧
      next.working.largeRequests ≤ state.working.largeRequests ∧
      next.leases.lookup leaseId = some lease' ∧ lease'.phase = .forwarded ∧
      length ≤ lease'.workingBytes := by
  obtain ⟨charge, hcharge, hle, hcovers⟩ := forwarded_charge hcharged hlength
  have hholds : lease.phase.holdsWorking = true := by
    rw [hphase]
    rfl
  have hclassed : lease.stripped.classed (decide (smallBodyMaxBytes < length)) = true →
      lease.large = true := by
    intro hlarge
    have hbig : smallBodyMaxBytes < length := by simpa [Lease.classed, Lease.stripped] using hlarge
    rcases le_max_iff.mp hlength with hextent | hrewrite
    · exact hcharged.large_of_extent (hbig.trans_le hextent)
    · exact hcharged.large_of_rewrite (hbig.trans_le hrewrite)
  obtain ⟨working', hok, hbytes, hlargeBytes, hlargeRequests⟩ :=
    updateWorking_shrinks hpolicy hstate hlookup hholds lease.stripped rfl hcharge hle hclassed
  have hforwarded : chargeForwarded controller state.working lease length = .ok (working', _) := hok
  refine ⟨{ state with
      working := working'
      leases := state.leases.insert leaseId (lease.forwarded length charge) },
    lease.forwarded length charge, ?_, hbytes, hlargeBytes, hlargeRequests,
    AList.lookup_insert _, rfl, hcovers⟩
  simp only [perform]
  rw [withLease_of_lookup hlookup (by rw [hphase])]
  split
  · rename_i other hother
    obtain rfl := Phase.converting.inj (hphase.symm.trans hother)
    rw [hforwarded]
    rfl
  · rename_i hnever
    exact absurd hphase (hnever length)

end Charged

/-! ### Forwarding -/

/-- Assumes: a size policy, a reachable state, a lease that is held, and a body of at most its
extent or its rewrite capacity whose byte reservation inside `into_bytes` succeeds. Whatever steps
others take before the second part of `into_bytes`, it succeeds; the working bytes, the large bytes
and the large requests do not increase by it, and the lease then has a charge of at least the body.
-/
theorem into_bytes_admitted (controller : BodyAdmissionController) (policy : SizeAwareBodyPolicy)
    (hpolicy : controller.sizePolicy = some policy) (actions others : List Action)
    (leaseId length : ℕ) (lease : Lease) (reserved : State)
    (hlookup : (State.after controller actions).leases.lookup leaseId = some lease)
    (hphase : lease.phase = .held) (hlength : length ≤ max lease.extent lease.rewriteCapacity)
    (hreserve : perform controller (State.after controller actions) (.intoBytes leaseId length) =
      (.done, reserved))
    (hothers : ∀ action ∈ others, action.leaseId ≠ leaseId) :
    ∃ next lease',
      perform controller (run (step controller) reserved others) (.convert leaseId) =
        (.done, next) ∧
      reserved.working = (State.after controller actions).working ∧
      next.working.bytes ≤ (run (step controller) reserved others).working.bytes ∧
      next.working.largeBytes ≤ (run (step controller) reserved others).working.largeBytes ∧
      next.working.largeRequests ≤
        (run (step controller) reserved others).working.largeRequests ∧
      next.leases.lookup leaseId = some lease' ∧ lease'.phase = .forwarded ∧
      length ≤ lease'.workingBytes := by
  have hcharged := charged_after hpolicy actions leaseId lease hlookup (.inl hphase)
  have hbalanced : Balanced controller (run (step controller) reserved others) :=
    run_invariant balanced_step others reserved
      (balanced_of_perform (balanced_after controller actions) hreserve)
  simp only [perform] at hreserve
  rw [withLease_of_lookup hlookup (decide_eq_true hphase)] at hreserve
  split at hreserve
  · cases (Prod.mk.inj hreserve).1
  · rename_i activeBytes moved hok
    obtain ⟨hmoved, hextent, hrewrite⟩ := charged_tryReserve hcharged hok
    have hstate := (Prod.mk.inj hreserve).2
    have hconverting : reserved.leases.lookup leaseId =
        some { moved with phase := .converting length } := by
      rw [← hstate]
      exact AList.lookup_insert _
    have hworking : reserved.working = (State.after controller actions).working := by
      rw [← hstate]
    rw [← hextent, ← hrewrite] at hlength
    rw [← lookup_run_of_ne hothers] at hconverting
    obtain ⟨next, lease', hdone, hrest⟩ := perform_convert hpolicy hbalanced hconverting rfl
      ⟨hmoved.charge, hmoved.large_of_extent, hmoved.large_of_rewrite⟩ hlength
    exact ⟨next, lease', hdone, hworking, hrest⟩

/-- A body of 100 bytes is forwarded while another request takes its slot. -/
theorem into_bytes_admitted_narrow :
    ∃ next lease',
      perform narrowController
        (run (step narrowController)
          (step narrowController
            (State.after narrowController
              [.acquire 0 (some 100), .start 0, .prepareBuffer 0 100 128, .tryReserve 0 100,
                .beginProcessing 0])
            (.intoBytes 0 100))
          [.acquire 1 (some 100)]) (.convert 0) = (.done, next) ∧
      next.leases.lookup 0 = some lease' ∧ 100 ≤ lease'.workingBytes := by
  obtain ⟨next, lease', hdone, -, -, -, -, hlookup, -, hcovers⟩ :=
    into_bytes_admitted narrowController narrowPolicy rfl
      [.acquire 0 (some 100), .start 0, .prepareBuffer 0 100 128, .tryReserve 0 100,
        .beginProcessing 0]
      [.acquire 1 (some 100)] 0 100 _ _ rfl rfl (by decide) rfl (by decide)
  exact ⟨next, lease', hdone, hlookup, hcovers⟩

end Relayna.BodyAdmission

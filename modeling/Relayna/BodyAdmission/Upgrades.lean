import Relayna.BodyAdmission.Forwarding

/-!
# What an upgrade of a lease keeps

`begin_processing` and `prepare_rewrite` of `crates/gateway-proxy/src/body_admission.rs` ask for
more than the lease has: the workspace of the body, and the capacity of an output. They keep what
the lease holds for its input, and its charge only grows (`Lease.Upgraded`).
-/

set_option autoImplicit false
set_option relaxedAutoImplicit false

namespace Relayna.BodyAdmission

open Library.MachineWord

/-- A lease after upgrades: its input is as it was, its rewrite capacity and its charge are no less.
-/
structure Lease.Upgraded (lease lease' : Lease) : Prop where
  phase : lease'.phase = lease.phase
  reservedBytes : lease'.reservedBytes = lease.reservedBytes
  expectedLength : lease'.expectedLength = lease.expectedLength
  allocationCapacity : lease'.allocationCapacity = lease.allocationCapacity
  extent : lease'.extent = lease.extent
  rewriteCapacity_le : lease.rewriteCapacity ≤ lease'.rewriteCapacity
  workingBytes_le : lease.workingBytes ≤ lease'.workingBytes

theorem Lease.Upgraded.refl (lease : Lease) : lease.Upgraded lease :=
  ⟨rfl, rfl, rfl, rfl, rfl, le_refl _, le_refl _⟩

theorem Lease.Upgraded.trans {first second third : Lease} (hfirst : first.Upgraded second)
    (hsecond : second.Upgraded third) : first.Upgraded third where
  phase := hsecond.phase.trans hfirst.phase
  reservedBytes := hsecond.reservedBytes.trans hfirst.reservedBytes
  expectedLength := hsecond.expectedLength.trans hfirst.expectedLength
  allocationCapacity := hsecond.allocationCapacity.trans hfirst.allocationCapacity
  extent := hsecond.extent.trans hfirst.extent
  rewriteCapacity_le := hfirst.rewriteCapacity_le.trans hsecond.rewriteCapacity_le
  workingBytes_le := hfirst.workingBytes_le.trans hsecond.workingBytes_le

/-- Under a size policy the lease is charged for its fields. -/
def Lease.ChargedUnder (controller : BodyAdmissionController) (lease : Lease) : Prop :=
  ∀ policy ∈ controller.sizePolicy, lease.Charged policy

section Upgrade

variable {controller : BodyAdmissionController} {policy : SizeAwareBodyPolicy}

/-- The workspace of processing is at least any other, and grows with the rewrite capacity. -/
theorem workspace_le {lease asking : Lease}
    (hrewrite : lease.rewriteCapacity ≤ asking.rewriteCapacity)
    {length workspace upgraded : ℕ} {processing : Bool}
    (hworkspace : lease.workspace policy length processing = some workspace)
    (hupgraded : asking.workspace policy length true = some upgraded) : workspace ≤ upgraded := by
  unfold Lease.workspace at hworkspace hupgraded
  rw [Bool.true_or, if_pos rfl] at hupgraded
  simp only [Option.bind_eq_bind, Option.bind_eq_some_iff, checkedMul_eq_some, if_true,
    Option.some.injEq] at hupgraded
  obtain ⟨_, ⟨hproduct, -⟩, rfl⟩ := hupgraded
  split at hworkspace
  · simp only [Option.bind_eq_bind, Option.bind_eq_some_iff, checkedMul_eq_some,
      Option.some.injEq] at hworkspace
    obtain ⟨bytes, ⟨hbytes, -⟩, rfl⟩ := hworkspace
    have hle : bytes ≤ max length asking.rewriteCapacity * policy.workspaceMultiplier.val := by
      rw [← hbytes]
      exact Nat.mul_le_mul_right _ (max_le_max_left length hrewrite)
    rw [hproduct] at hle
    split_ifs
    · exact hle
    · exact (Nat.min_le_left _ _).trans hle
  · rw [← Option.some.inj hworkspace]
    exact Nat.zero_le _

/-- The charge of processing is at least any other, and grows with the rewrite capacity. -/
theorem charge_le {lease asking : Lease} (hrewrite : lease.rewriteCapacity ≤ asking.rewriteCapacity)
    {length capacity charge upgraded : ℕ} {processing : Bool}
    (hcharge : lease.charge policy length capacity processing = some charge)
    (hupgraded : asking.charge policy length capacity true = some upgraded) :
    charge ≤ upgraded := by
  obtain ⟨workspace, hworkspace, hsum, -⟩ := charge_eq_some.mp hcharge
  obtain ⟨workspace', hworkspace', hsum', -⟩ := charge_eq_some.mp hupgraded
  have hle := workspace_le hrewrite hworkspace hworkspace'
  omega

/-- A change of the working set for an upgrade does not lower the charge. Assumes: a lease that is
charged for its fields. -/
theorem workingBytes_le_of_updateWorking {working working' : WorkingSet}
    {lease asking moved : Lease} (hcharged : lease.ChargedUnder controller)
    (hrewrite : lease.rewriteCapacity ≤ asking.rewriteCapacity)
    (hworking : asking.workingBytes = lease.workingBytes)
    (hok : updateWorking controller working asking lease.extent lease.allocationCapacity lease.large
      true = .ok (working', moved)) : lease.workingBytes ≤ moved.workingBytes := by
  cases hpolicy : controller.sizePolicy with
  | none =>
    unfold updateWorking at hok
    rw [hpolicy] at hok
    rw [← (Prod.mk.inj (Except.ok.inj hok)).2, hworking]
  | some policy =>
    obtain ⟨charge, hcharge, rfl, -⟩ := updateWorking_lease hpolicy hok
    exact charge_le hrewrite (hcharged policy hpolicy).charge hcharge

/-- A change of the working set changes the charge and the class of a lease, and nothing else. -/
theorem updateWorking_fields {working working' : WorkingSet} {asking moved : Lease}
    {length capacity : ℕ} {large processing : Bool}
    (hok : updateWorking controller working asking length capacity large processing =
      .ok (working', moved)) :
    ∃ charge class', moved = { asking with workingBytes := charge, large := class' } := by
  cases hpolicy : controller.sizePolicy with
  | none =>
    unfold updateWorking at hok
    rw [hpolicy] at hok
    exact ⟨asking.workingBytes, asking.large, (Prod.mk.inj (Except.ok.inj hok)).2.symm⟩
  | some policy =>
    obtain ⟨charge, -, hmoved, -⟩ := updateWorking_lease hpolicy hok
    exact ⟨charge, _, hmoved⟩

/-- What `begin_processing` makes of a lease that is held. -/
theorem upgraded_beginProcessing {working working' : WorkingSet} {lease moved : Lease}
    (hheld : lease.phase = .held) (hcharged : lease.ChargedUnder controller)
    (hok : beginProcessing controller working lease = .ok (working', moved)) :
    lease.Upgraded moved ∧ moved.ChargedUnder controller := by
  obtain ⟨updated, hupdated, rfl⟩ := map_ok hok
  have hle := workingBytes_le_of_updateWorking hcharged (le_refl _) rfl hupdated
  obtain ⟨charge, class', rfl⟩ := updateWorking_fields hupdated
  refine ⟨⟨rfl, rfl, rfl, rfl, rfl, le_refl _, hle⟩, fun policy hpolicy ↦ ?_⟩
  exact charged_step hpolicy (fun _ ↦ hcharged policy hpolicy) (.processing hheld hok) (.inl hheld)

/-- What `prepare_rewrite` makes of a lease that is held. -/
theorem upgraded_prepareRewrite {working working' : WorkingSet} {lease moved : Lease} {capacity : ℕ}
    (hheld : lease.phase = .held) (hcharged : lease.ChargedUnder controller)
    (hok : prepareRewrite controller working lease capacity = .ok (working', moved)) :
    lease.Upgraded moved ∧ moved.ChargedUnder controller ∧ capacity ≤ moved.rewriteCapacity := by
  obtain ⟨updated, hupdated, rfl⟩ := map_ok hok
  have hle : lease.workingBytes ≤ updated.workingBytes := by
    refine workingBytes_le_of_updateWorking hcharged ?_ ?_ hupdated
    · exact Nat.le_max_left _ _
    · rfl
  obtain ⟨charge, class', rfl⟩ := updateWorking_fields hupdated
  refine ⟨⟨rfl, rfl, rfl, rfl, rfl, Nat.le_max_left _ _, hle⟩, fun policy hpolicy ↦ ?_,
    Nat.le_max_right _ _⟩
  exact charged_step hpolicy (fun _ ↦ hcharged policy hpolicy) (.rewriting hheld hok) (.inl hheld)

/-- The outcomes of an upgrade of a lease that is held: it is granted, to a rewrite capacity of at
least `capacity`, or refused and the lease is as it was. -/
inductive Asked (controller : BodyAdmissionController) (leaseId : ℕ) (lease : Lease)
    (capacity : ℕ) : Outcome × State → Prop
  | granted {next : State} {moved : Lease} (hlookup : next.leases.lookup leaseId = some moved)
      (hupgraded : lease.Upgraded moved) (hcharged : moved.ChargedUnder controller)
      (hcapacity : capacity ≤ moved.rewriteCapacity) :
      Asked controller leaseId lease capacity (.done, next)
  | refused {next : State} (hlookup : next.leases.lookup leaseId = some lease) :
      Asked controller leaseId lease capacity (.overloaded, next)

/-- Recording what an upgrade of the working set did. -/
theorem asked_commit {state : State} {leaseId : ℕ} {lease : Lease} {capacity : ℕ}
    {result : Except GatewayError (WorkingSet × Lease)}
    (hresult : ∀ working moved, result = .ok (working, moved) →
      lease.Upgraded moved ∧ moved.ChargedUnder controller ∧ capacity ≤ moved.rewriteCapacity) :
    Asked controller leaseId lease capacity (state.commit leaseId result (·) (·) lease) := by
  cases result with
  | error error => exact .refused (AList.lookup_insert _)
  | ok moved =>
    obtain ⟨hupgraded, hcharged, hmoved⟩ := hresult moved.1 moved.2 rfl
    exact .granted (AList.lookup_insert _) hupgraded hcharged hmoved

theorem perform_beginProcessing {state : State} {leaseId : ℕ} {lease : Lease}
    (hlookup : state.leases.lookup leaseId = some lease) (hheld : lease.phase = .held)
    (hcharged : lease.ChargedUnder controller) :
    Asked controller leaseId lease 0
      (perform controller state (.beginProcessing leaseId)) := by
  simp only [perform]
  rw [withLease_of_lookup hlookup (decide_eq_true hheld)]
  refine asked_commit fun working moved hok ↦ ?_
  obtain ⟨hupgraded, hmoved⟩ := upgraded_beginProcessing hheld hcharged hok
  exact ⟨hupgraded, hmoved, Nat.zero_le _⟩

theorem perform_prepareRewrite {state : State} {leaseId : ℕ} {lease : Lease}
    (hlookup : state.leases.lookup leaseId = some lease) (hheld : lease.phase = .held)
    (hcharged : lease.ChargedUnder controller) (capacity : ℕ) :
    Asked controller leaseId lease capacity
      (perform controller state (.prepareRewrite leaseId capacity)) := by
  simp only [perform]
  rw [withLease_of_lookup hlookup (decide_eq_true hheld)]
  exact asked_commit fun working moved hok ↦ upgraded_prepareRewrite hheld hcharged hok

end Upgrade

end Relayna.BodyAdmission

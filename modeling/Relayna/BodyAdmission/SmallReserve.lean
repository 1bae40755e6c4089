import Mathlib.Algebra.Ring.Nat
import Relayna.BodyAdmission.Ledger

/-!
# The reserve for small bodies

The policy keeps a share of the working memory for each reserved small request, sized for the
largest small body with its workspace: `smallReserve` is `share` times the number of reserved
requests. Leases classed large stay out of it, because `update_working` bounds their sum. Leases
classed small are only bounded by the whole working memory: a small lease that reserves an output
buffer beside its input, or a forwarded small body that keeps a large allocation, is charged more
than one share and eats the reserve of the others (`small_lease_eats_reserve`).

`WithinShare` says of one step that a small charge it asks for is at most one share. It reads the
arguments of the step and the lease before it. In every run whose steps keep to it, a small request
is admitted and can begin processing whenever fewer small leases are live than are reserved
(`small_request_admitted`).
-/

set_option autoImplicit false
set_option relaxedAutoImplicit false

namespace Relayna.BodyAdmission

open Library.MachineWord Library.KeyedSum Library.Transition

/-! ### Shares and demands -/

/-- The working memory kept for one small request. -/
def SizeAwareBodyPolicy.share (policy : SizeAwareBodyPolicy) : ℕ :=
  smallBodyMaxBytes * (1 + policy.workspaceMultiplier.val) + requestWorkingOverhead

/-- The lease is charged, not classed large, and has not returned its charge. -/
def Lease.heldSmall (lease : Lease) : Bool :=
  lease.phase.holdsWorking && !lease.large && decide (0 < lease.workingBytes)

/-- The number of live leases classed small. -/
def State.smallLeases (state : State) : ℕ :=
  total (fun _ lease ↦ lease.heldSmall.toNat) state.leases

/-- The arguments with which a step asks for a charge. -/
structure Demand where
  asking : Lease
  length : ℕ
  capacity : ℕ
  large : Bool
  processing : Bool

/-- The class a demand asks for. -/
def Demand.classed (demand : Demand) : Bool :=
  demand.asking.classed demand.large

def Demand.charge (policy : SizeAwareBodyPolicy) (demand : Demand) : Option ℕ :=
  demand.asking.charge policy demand.length demand.capacity demand.processing

/-- The lease that a step is taken by. -/
def Action.leaseId : Action → ℕ
  | .acquire leaseId _ => leaseId
  | .start leaseId => leaseId
  | .tryReserve leaseId _ => leaseId
  | .prepareBuffer leaseId _ _ => leaseId
  | .prepareRewrite leaseId _ => leaseId
  | .beginProcessing leaseId => leaseId
  | .retainCompactWorkspace leaseId => leaseId
  | .intoBytes leaseId _ => leaseId
  | .convert leaseId => leaseId
  | .returnWorking leaseId => leaseId
  | .returnBytes leaseId => leaseId
  | .returnSlot leaseId => leaseId

/-- What `prepare_buffer` asks for. -/
def Lease.bufferDemand (lease : Lease) (length capacity : ℕ) : Demand where
  asking := lease
  length := max length (lease.expectedLength.getD 0)
  capacity := max lease.allocationCapacity capacity
  large := lease.expectedLength.isNone ||
    decide (smallBodyMaxBytes < max length (lease.expectedLength.getD 0))
  processing := lease.processing

/-- What `begin_processing`, `prepare_rewrite` and `retain_compact_workspace` ask for. -/
def Lease.currentDemand (lease asking : Lease) (processing : Bool) : Demand where
  asking := asking
  length := lease.extent
  capacity := lease.allocationCapacity
  large := lease.large
  processing := processing

/-- What `into_bytes` asks for. -/
def Lease.forwardDemand (lease : Lease) (length : ℕ) : Demand where
  asking := lease.stripped
  length := length
  capacity := max (if 0 < lease.rewriteCapacity then lease.rewriteCapacity
    else lease.allocationCapacity) length
  large := decide (smallBodyMaxBytes < length)
  processing := false

/-- The charge that a step asks for, when the lease is in a phase that allows the step. -/
def Lease.demand (controller : BodyAdmissionController) (lease : Lease) : Action → Option Demand
  | .start _ => if lease.phase = .starting then some (lease.bufferDemand 0 0) else none
  | .prepareBuffer _ length capacity =>
    if lease.phase = .held then some (lease.bufferDemand length capacity) else none
  | .prepareRewrite _ capacity =>
    if lease.phase = .held then
      some (lease.currentDemand
        { lease with rewriteCapacity := max lease.rewriteCapacity capacity } true)
    else none
  | .beginProcessing _ =>
    if lease.phase = .held then some (lease.currentDemand lease true) else none
  | .retainCompactWorkspace _ =>
    if lease.phase = .held ∧ controller.elastic = true then
      some (lease.currentDemand { lease with compactWorkspace := true } false)
    else none
  | .convert _ =>
    match lease.phase with
    | .converting length => some (lease.forwardDemand length)
    | _ => none
  | _ => none

/-- A charge that a step asks for in the small class is at most one share. -/
def WithinShare (controller : BodyAdmissionController) (policy : SizeAwareBodyPolicy)
    (state : State) (action : Action) : Prop :=
  ∀ lease ∈ state.leases.lookup action.leaseId, ∀ demand ∈ lease.demand controller action,
    demand.classed = false → ∀ charge ∈ demand.charge policy, charge ≤ policy.share

instance (controller : BodyAdmissionController) (policy : SizeAwareBodyPolicy) (state : State)
    (action : Action) : Decidable (WithinShare controller policy state action) :=
  inferInstanceAs (Decidable (∀ lease ∈ state.leases.lookup action.leaseId,
    ∀ demand ∈ lease.demand controller action, demand.classed = false →
      ∀ charge ∈ demand.charge policy, charge ≤ policy.share))

/-- Every lease classed small is charged at most one share. -/
def Shared (policy : SizeAwareBodyPolicy) (state : State) : Prop :=
  ∀ leaseId lease, state.leases.lookup leaseId = some lease → lease.large = false →
    lease.workingBytes ≤ policy.share

section Steps

variable {controller : BodyAdmissionController} {policy : SizeAwareBodyPolicy} {state : State}

/-! ### Where a charge comes from -/

/-- The charge and the class of a lease after a step come from the lease before it, from a new lease
without a charge, or from the demand of the step. -/
inductive Sourced (controller : BodyAdmissionController) (policy : SizeAwareBodyPolicy)
    (state : State) (action : Action) (leaseId : ℕ) (lease' : Lease) : Prop
  | kept (lease : Lease) (hlookup : state.leases.lookup leaseId = some lease)
      (hworking : lease'.workingBytes = lease.workingBytes) (hlarge : lease'.large = lease.large)
  | new (hworking : lease'.workingBytes = 0)
  | asked (lease : Lease) (demand : Demand)
      (hlookup : state.leases.lookup action.leaseId = some lease)
      (hdemand : lease.demand controller action = some demand)
      (hcharge : demand.charge policy = some lease'.workingBytes)
      (hlarge : lease'.large = demand.classed)

/-- Inserting a lease that has a source leaves every lease with one. -/
theorem sourced_insert {action : Action} {leaseId other : ℕ} {lease lease' : Lease}
    (hother : (state.leases.insert leaseId lease).lookup other = some lease')
    (hsource : Sourced controller policy state action leaseId lease) :
    Sourced controller policy state action other lease' := by
  rcases Library.Table.lookup_insert_cases hother with ⟨rfl, rfl⟩ | ⟨-, hkept⟩
  · exact hsource
  · exact .kept lease' hkept rfl rfl

/-- Recording a change of the working set leaves every lease with a source. Assumes: the change is
that of the demand of the step, and the recordings keep charge and class. -/
theorem sourced_commit (hpolicy : controller.sizePolicy = some policy) {action : Action}
    {lease : Lease} (hlookup : state.leases.lookup action.leaseId = some lease) {demand : Demand}
    (hdemand : lease.demand controller action = some demand) {done failed : Lease → Lease}
    {result : Except GatewayError (WorkingSet × Lease)}
    (hresult : ∀ moved, result = .ok moved → ∃ asked, updateWorking controller state.working
      demand.asking demand.length demand.capacity demand.large demand.processing = .ok asked ∧
        (done moved.2).workingBytes = asked.2.workingBytes ∧ (done moved.2).large = asked.2.large)
    (hfailed : (failed lease).workingBytes = lease.workingBytes ∧
      (failed lease).large = lease.large) {other : ℕ} {lease' : Lease}
    (hother : (state.commit action.leaseId result done failed lease).2.leases.lookup other =
      some lease') : Sourced controller policy state action other lease' := by
  unfold State.commit at hother
  split at hother
  · rename_i working moved hok
    obtain ⟨⟨working', asked⟩, hasked, hworking, hlarge⟩ := hresult _ rfl
    obtain ⟨charge, hcharge, hlease, -⟩ := updateWorking_lease hpolicy hasked
    refine sourced_insert hother (.asked lease demand hlookup hdemand ?_ ?_)
    · rw [hworking, hlease]
      exact hcharge
    · rw [hlarge, hlease]
      rfl
  · exact sourced_insert hother (.kept lease hlookup hfailed.1 hfailed.2)

/-- A step of a lease leaves every lease with a source when its operation does. -/
theorem sourced_withLease (action : Action) {enabled : Phase → Bool}
    {operation : Lease → Outcome × State} {other : ℕ} {lease' : Lease}
    (hother : (state.withLease action.leaseId enabled operation).2.leases.lookup other =
      some lease')
    (hoperation : ∀ lease, state.leases.lookup action.leaseId = some lease →
      enabled lease.phase = true → (operation lease).2.leases.lookup other = some lease' →
        Sourced controller policy state action other lease') :
    Sourced controller policy state action other lease' := by
  rcases withLease_cases state action.leaseId enabled operation with
    hsame | ⟨lease, hlookup, henabled, hstep⟩
  · rw [hsame] at hother
    exact .kept lease' hother rfl rfl
  · rw [hstep] at hother
    exact hoperation lease hlookup henabled hother

/-- A successful reservation keeps charge and class. -/
theorem tryReserve_account {activeBytes additionalBytes next : ℕ} {lease lease' : Lease}
    (hok : tryReserve controller activeBytes lease additionalBytes = .ok (next, lease')) :
    lease'.workingBytes = lease.workingBytes ∧ lease'.large = lease.large := by
  unfold tryReserve at hok
  split_ifs at hok with hzero
  · rw [(Prod.mk.inj (Except.ok.inj hok)).2]
    exact ⟨rfl, rfl⟩
  · split at hok
    · exact absurd hok (by simp)
    · rw [← (Prod.mk.inj (Except.ok.inj hok)).2]
      exact ⟨rfl, rfl⟩

/-- After a step every lease has its charge and class from one of the three sources. -/
theorem sourced_step (hpolicy : controller.sizePolicy = some policy) {action : Action} {other : ℕ}
    {lease' : Lease} (hother : (step controller state action).leases.lookup other = some lease') :
    Sourced controller policy state action other lease' := by
  unfold step at hother
  cases action with
  | acquire leaseId expectedLength =>
    simp only [perform] at hother
    split_ifs at hother with hmem
    · exact .kept lease' hother rfl rfl
    · split at hother
      · exact .kept lease' hother rfl rfl
      · exact sourced_insert hother (.new rfl)
  | start leaseId =>
    refine sourced_withLease (.start leaseId) hother fun lease hlookup henabled hcommit ↦ ?_
    have hphase := of_decide_eq_true henabled
    refine sourced_commit hpolicy hlookup (if_pos hphase) (fun moved hok ↦ ?_) ⟨rfl, rfl⟩ hcommit
    obtain ⟨asked, hasked, hmoved⟩ := map_ok hok
    exact ⟨_, hasked, by rw [hmoved], by rw [hmoved]⟩
  | tryReserve leaseId additionalBytes =>
    refine sourced_withLease (.tryReserve leaseId additionalBytes) hother
      fun lease hlookup henabled hreserve ↦ ?_
    split at hreserve
    · exact .kept lease' hreserve rfl rfl
    · rename_i next reserved hok
      obtain ⟨hworking, hlarge⟩ := tryReserve_account hok
      exact sourced_insert hreserve (.kept lease hlookup hworking hlarge)
  | prepareBuffer leaseId length capacity =>
    refine sourced_withLease (.prepareBuffer leaseId length capacity) hother
      fun lease hlookup henabled hcommit ↦ ?_
    have hphase := of_decide_eq_true henabled
    refine sourced_commit hpolicy hlookup (if_pos hphase) (fun moved hok ↦ ?_) ⟨rfl, rfl⟩ hcommit
    obtain ⟨asked, hasked, hmoved⟩ := map_ok hok
    exact ⟨_, hasked, by rw [hmoved], by rw [hmoved]⟩
  | prepareRewrite leaseId capacity =>
    refine sourced_withLease (.prepareRewrite leaseId capacity) hother
      fun lease hlookup henabled hcommit ↦ ?_
    have hphase := of_decide_eq_true henabled
    refine sourced_commit hpolicy hlookup (if_pos hphase) (fun moved hok ↦ ?_) ⟨rfl, rfl⟩ hcommit
    obtain ⟨asked, hasked, hmoved⟩ := map_ok hok
    exact ⟨_, hasked, by rw [hmoved], by rw [hmoved]⟩
  | beginProcessing leaseId =>
    refine sourced_withLease (.beginProcessing leaseId) hother
      fun lease hlookup henabled hcommit ↦ ?_
    have hphase := of_decide_eq_true henabled
    refine sourced_commit hpolicy hlookup (if_pos hphase) (fun moved hok ↦ ?_) ⟨rfl, rfl⟩ hcommit
    obtain ⟨asked, hasked, hmoved⟩ := map_ok hok
    exact ⟨_, hasked, by rw [hmoved], by rw [hmoved]⟩
  | retainCompactWorkspace leaseId =>
    refine sourced_withLease (.retainCompactWorkspace leaseId) hother
      fun lease hlookup henabled hcommit ↦ ?_
    have hphase := of_decide_eq_true henabled
    by_cases helastic : controller.elastic = true
    · rw [retainCompactWorkspace, if_pos helastic] at hcommit
      refine sourced_commit hpolicy hlookup (if_pos ⟨hphase, helastic⟩) (fun moved hok ↦ ?_)
        ⟨rfl, rfl⟩ hcommit
      obtain ⟨asked, hasked, hmoved⟩ := map_ok hok
      exact ⟨_, hasked, by rw [hmoved], by rw [hmoved]⟩
    · rw [retainCompactWorkspace, if_neg helastic] at hcommit
      exact sourced_insert hcommit (.kept lease hlookup rfl rfl)
  | intoBytes leaseId length =>
    refine sourced_withLease (.intoBytes leaseId length) hother
      fun lease hlookup henabled hreserve ↦ ?_
    split at hreserve
    · exact sourced_insert hreserve (.kept lease hlookup rfl rfl)
    · rename_i next reserved hok
      obtain ⟨hworking, hlarge⟩ := tryReserve_account hok
      exact sourced_insert hreserve (.kept lease hlookup hworking hlarge)
  | convert leaseId =>
    refine sourced_withLease (.convert leaseId) hother fun lease hlookup henabled hcommit ↦ ?_
    split at hcommit
    · rename_i length hphase
      have hdemand : lease.demand controller (.convert leaseId) =
        some (lease.forwardDemand length) := by
        simp only [Lease.demand, hphase]
      exact sourced_commit hpolicy hlookup hdemand (fun moved hok ↦ ⟨_, hok, rfl, rfl⟩) ⟨rfl, rfl⟩
        hcommit
    · exact .kept lease' hcommit rfl rfl
  | returnWorking leaseId =>
    exact sourced_withLease (.returnWorking leaseId) hother
      fun lease hlookup _ hreturn ↦ sourced_insert hreturn (.kept lease hlookup rfl rfl)
  | returnBytes leaseId =>
    exact sourced_withLease (.returnBytes leaseId) hother
      fun lease hlookup _ hreturn ↦ sourced_insert hreturn (.kept lease hlookup rfl rfl)
  | returnSlot leaseId =>
    refine sourced_withLease (.returnSlot leaseId) hother fun lease hlookup _ hreturn ↦ ?_
    change (state.leases.erase leaseId).lookup other = some lease' at hreturn
    by_cases hsame : other = leaseId
    · rw [hsame, AList.lookup_erase] at hreturn
      exact absurd hreturn (by simp)
    · rw [AList.lookup_erase_ne hsame] at hreturn
      exact .kept lease' hreturn rfl rfl

/-- A step that keeps to the share keeps every small lease within it. -/
theorem shared_step (hpolicy : controller.sizePolicy = some policy) {action : Action}
    (hguard : WithinShare controller policy state action) (hshared : Shared policy state) :
    Shared policy (step controller state action) := by
  intro leaseId lease' hlookup' hlarge'
  cases sourced_step hpolicy hlookup' with
  | kept lease hlookup hworking hlarge =>
    rw [hworking]
    exact hshared leaseId lease hlookup (hlarge ▸ hlarge')
  | new hworking =>
    rw [hworking]
    exact Nat.zero_le _
  | asked lease demand hlookup hdemand hcharge hlarge =>
    exact hguard lease hlookup demand hdemand (hlarge ▸ hlarge') _ hcharge

/-- In a run whose steps keep to the share every small lease is within it. -/
theorem shared_run (hpolicy : controller.sizePolicy = some policy) {actions : List Action}
    (hguarded : Guarded (step controller) (WithinShare controller policy) State.initial actions) :
    Shared policy (State.after controller actions) :=
  run_guarded_invariant (fun _ _ hguard hshared ↦ shared_step hpolicy hguard hshared) actions
    State.initial hguarded fun _ _ hlookup ↦ absurd hlookup (by simp [State.initial])

/-! ### Room for one more small request -/

/-- The small reserve of a validated policy is a share for each reserved request. -/
theorem smallReserve_eq (hpolicy : controller.sizePolicy = some policy) :
    policy.smallReserve = some (policy.share * policy.reservedSmallRequests.val) ∧
      policy.share * policy.reservedSmallRequests.val < policy.maxWorkingBytes.val := by
  obtain ⟨reserve, hreserve, hlt, -⟩ := smallReserve_of_validated controller hpolicy
  have hequal := hreserve
  simp only [SizeAwareBodyPolicy.smallReserve, Option.bind_eq_bind, Option.bind_eq_some_iff,
    checkedMul_eq_some, checkedAdd_eq_some] at hequal
  obtain ⟨_, ⟨rfl, -⟩, _, ⟨rfl, -⟩, rfl, -⟩ := hequal
  exact ⟨hreserve, hlt⟩

/-- Assumes: a charge within one share when the lease is classed small. What the lease holds is at
most its large charge and one share if it is small. -/
theorem heldWorking_le {lease : Lease}
    (hshare : lease.large = false → lease.workingBytes ≤ policy.share) :
    lease.heldWorking ≤ lease.heldLargeWorking + policy.share * lease.heldSmall.toNat := by
  unfold Lease.heldLargeWorking Lease.heldWorking Lease.heldLarge Lease.heldSmall
  cases lease.phase.holdsWorking with
  | false => exact Nat.zero_le _
  | true =>
    cases hlarge : lease.large with
    | true => exact Nat.le_add_right _ _
    | false =>
      by_cases hpositive : 0 < lease.workingBytes
      · simpa [hpositive] using hshare hlarge
      · simp [Nat.eq_zero_of_not_pos hpositive]

/-- Assumes: a balanced state whose small leases are within their share, and a live lease without
which fewer small leases are live than are reserved. The working memory has room for one share
beside the charges of the other leases. -/
theorem room_for_share (hpolicy : controller.sizePolicy = some policy)
    (hstate : Balanced controller state) (hshared : Shared policy state) {leaseId : ℕ}
    {lease : Lease} (hlookup : state.leases.lookup leaseId = some lease)
    (hfew : state.smallLeases < policy.reservedSmallRequests.val + lease.heldSmall.toNat) :
    state.working.bytes - lease.heldWorking + policy.share ≤ policy.maxWorkingBytes.val := by
  obtain ⟨hreserve, hlt⟩ := smallReserve_eq hpolicy
  obtain ⟨-, hlargeBytes, -⟩ := hstate.bounded policy hpolicy
  rw [hreserve, Option.getD_some] at hlargeBytes
  have hworking := measure_add_total_erase (fun _ lease ↦ lease.heldWorking) hlookup
  have hlarge := measure_add_total_erase (fun _ lease ↦ lease.heldLargeWorking) hlookup
  have hsmall := measure_add_total_erase (fun _ lease ↦ lease.heldSmall.toNat) hlookup
  have hothers : total (fun _ lease ↦ lease.heldWorking) (state.leases.erase leaseId) ≤
      total (fun _ lease ↦ lease.heldLargeWorking) (state.leases.erase leaseId) +
        policy.share * total (fun _ lease ↦ lease.heldSmall.toNat)
          (state.leases.erase leaseId) := by
    have hfactor := total_mul_left policy.share (fun _ lease ↦ lease.heldSmall.toNat)
      (state.leases.erase leaseId)
    rw [← hfactor, ← total_add]
    refine total_le_total _ _ fun other lease' hother ↦ heldWorking_le fun hnotLarge ↦ ?_
    by_cases hsame : other = leaseId
    · rw [hsame, AList.lookup_erase] at hother
      exact absurd hother (by simp)
    · rw [AList.lookup_erase_ne hsame] at hother
      exact hshared other lease' hother hnotLarge
  have hcount : total (fun _ lease ↦ lease.heldSmall.toNat) (state.leases.erase leaseId) + 1 ≤
      policy.reservedSmallRequests.val := by
    unfold State.smallLeases at hfew
    omega
  have hshares := Nat.mul_le_mul_left policy.share hcount
  rw [Nat.mul_add, Nat.mul_one] at hshares
  have hbytes := hstate.working
  have hlargeSum := hstate.largeBytes
  unfold State.workingBytes at hbytes
  unfold State.largeWorkingBytes at hlargeSum
  omega

/-- Assumes: room for one share, a lease that is not classed large, and a demand of the small class
for at most one share. The working set changes. -/
theorem updateWorking_small (hpolicy : controller.sizePolicy = some policy)
    (hstate : Balanced controller state) {leaseId : ℕ} {lease : Lease}
    (hlookup : state.leases.lookup leaseId = some lease) (hholds : lease.phase.holdsWorking = true)
    (hroom : state.working.bytes - lease.heldWorking + policy.share ≤ policy.maxWorkingBytes.val)
    (hnotLarge : lease.large = false) {length capacity : ℕ} {large processing : Bool}
    (hclassed : lease.classed large = false) {charge : ℕ}
    (hcharge : lease.charge policy length capacity processing = some charge)
    (hshare : charge ≤ policy.share) :
    ∃ working', updateWorking controller state.working lease length capacity large processing =
      .ok (working', { lease with workingBytes := charge, large := false }) := by
  obtain ⟨-, hworking, -, hlargeWorking⟩ := held_of_holdsWorking hholds
  obtain ⟨-, -, hheldWorking, -, -⟩ := held_le hstate hlookup
  obtain ⟨-, -, hworkingLt, hlargeBytesLe, hlargeRequestsLe⟩ := counters_lt hstate
  have hrequestsLt := (counters_lt hstate).1
  obtain ⟨-, hmaxLarge, hmaxRequests⟩ := hstate.bounded policy hpolicy
  have hmaxLt := policy.maxWorkingBytes.isLt
  rw [hworking] at hheldWorking hroom
  unfold updateWorking
  rw [hpolicy]
  dsimp only
  rw [hcharge]
  dsimp only
  rw [hclassed, hnotLarge]
  by_cases hsame : charge = lease.workingBytes ∧ false = false
  · rw [if_pos hsame]
    exact ⟨state.working, by rw [← hnotLarge, hsame.1]⟩
  · have hbytes : (checkedSub state.working.bytes lease.workingBytes).bind
      (checkedAdd 64 · charge) =
        some (state.working.bytes - lease.workingBytes + charge) := by
      rw [checkedSub_of_le hheldWorking, Option.bind_some, checkedAdd_eq_some]
      exact ⟨rfl, by omega⟩
    have hlargeBytes : (checkedSub state.working.largeBytes 0).bind (checkedAdd 64 · 0) =
        some state.working.largeBytes := by
      rw [checkedSub_of_le (Nat.zero_le _), Option.bind_some, checkedAdd_eq_some]
      exact ⟨rfl, by omega⟩
    have hlargeRequests : wrappingAdd 64 (wrappingSub 64 state.working.largeRequests false.toNat)
        false.toNat = state.working.largeRequests := by
      rw [Bool.toNat_false, wrappingSub_of_le (Nat.zero_le _) (by omega),
        wrappingAdd_of_lt (by omega)]
      rfl
    rw [if_neg hsame]
    simp only [Bool.false_eq_true, if_false, hbytes, hlargeBytes, hlargeRequests]
    rw [if_neg (by omega)]
    exact ⟨_, rfl⟩

/-- Assumes: shares are words. A lease without rewrite and metadata workspace is charged at most one
share for a small body that it has not allocated. -/
theorem charge_small (hshare : policy.share < 2 ^ 64) {lease : Lease}
    (hrewrite : lease.rewriteCapacity = 0) (hcompact : lease.compactWorkspace = false) {length : ℕ}
    (hlength : length ≤ smallBodyMaxBytes) (processing : Bool) :
    ∃ charge, lease.charge policy length 0 processing = some charge ∧ charge ≤ policy.share := by
  have hworkspace : length * policy.workspaceMultiplier.val ≤
      smallBodyMaxBytes * policy.workspaceMultiplier.val :=
    Nat.mul_le_mul_right _ hlength
  have hsplit : policy.share = smallBodyMaxBytes +
      smallBodyMaxBytes * policy.workspaceMultiplier.val + requestWorkingOverhead := by
    rw [SizeAwareBodyPolicy.share, Nat.mul_add, Nat.mul_one]
  rw [hsplit] at hshare ⊢
  obtain ⟨workspace, hspace, hle⟩ : ∃ workspace,
      lease.workspace policy length processing = some workspace ∧
        workspace ≤ smallBodyMaxBytes * policy.workspaceMultiplier.val := by
    have hproduct : checkedMul 64 (max length 0) policy.workspaceMultiplier.val =
        some (length * policy.workspaceMultiplier.val) :=
      checkedMul_eq_some.mpr ⟨by rw [Nat.max_zero], by omega⟩
    cases processing with
    | false => exact ⟨0, by simp [Lease.workspace, hcompact], Nat.zero_le _⟩
    | true =>
      exact ⟨_, by simp only [Lease.workspace, Bool.true_or, if_true, hrewrite, hproduct,
        Option.bind_eq_bind, Option.bind_some], hworkspace⟩
  refine ⟨workspace + length + requestWorkingOverhead, ?_, by omega⟩
  refine charge_eq_some.mpr ⟨workspace, hspace, ?_, by omega⟩
  rw [hrewrite, Nat.zero_max, Nat.add_zero]

/-- A step that takes a slot asks for no charge. -/
theorem withinShare_acquire (controller : BodyAdmissionController) (policy : SizeAwareBodyPolicy)
    (state : State) (leaseId : ℕ) (expectedLength : Option ℕ) :
    WithinShare controller policy state (.acquire leaseId expectedLength) := by
  intro lease _ demand hdemand
  exact absurd hdemand (by simp [Lease.demand])

/-- Taking a slot while one is left. -/
theorem perform_acquire {leaseId : ℕ} (hnew : leaseId ∉ state.leases)
    (hslot : state.activeRequests < controller.maxRequests.val)
    (expectedLength : Option ℕ) :
    perform controller state (.acquire leaseId expectedLength) =
      (.done, ⟨state.activeRequests + 1, state.activeBytes, state.working,
        state.leases.insert leaseId (Lease.new controller expectedLength)⟩) := by
  have hnext : incrementBounded state.activeRequests 1 controller.maxRequests.val =
      some (state.activeRequests + 1) := by
    have hlt := controller.maxRequests.isLt
    simp only [incrementBounded, checkedAdd, Option.bind_eq_bind]
    rw [if_pos (by omega), Option.bind_some, if_neg (by omega)]
  simp only [perform, if_neg hnew, hnext]

/-- The lease of a request with a declared length when its buffer has been prepared for a charge in
the small class. -/
def Lease.prepared (controller : BodyAdmissionController) (length charge : ℕ) : Lease :=
  { Lease.new controller (some length) with
    workingBytes := charge, extent := length, phase := .held }

/-- The share of a validated policy with reserved requests is a word. -/
theorem share_lt (hpolicy : controller.sizePolicy = some policy)
    (hreserved : 0 < policy.reservedSmallRequests.val) : policy.share < 2 ^ 64 := by
  obtain ⟨-, hlt⟩ := smallReserve_eq hpolicy
  have hle := Nat.mul_le_mul_left policy.share (Nat.succ_le_of_lt hreserved)
  have hmax := policy.maxWorkingBytes.isLt
  omega

/-- Assumes: a small body, a lease for it that has its slot only, and fewer small leases than are
reserved. Preparing the buffer succeeds. -/
theorem small_start (hpolicy : controller.sizePolicy = some policy)
    (hstate : Balanced controller state) (hshared : Shared policy state)
    (hfew : state.smallLeases < policy.reservedSmallRequests.val) {leaseId length : ℕ}
    (hlength : length ≤ smallBodyMaxBytes)
    (hlookup : state.leases.lookup leaseId = some (Lease.new controller (some length))) :
    ∃ started charge, perform controller state (.start leaseId) = (.done, started) ∧
      charge ≤ policy.share ∧
      started.leases = state.leases.insert leaseId (Lease.prepared controller length charge) := by
  obtain ⟨charge, hcharge, hle⟩ :=
    @charge_small policy (share_lt hpolicy (Nat.zero_lt_of_lt hfew))
      (Lease.new controller (some length)) rfl rfl length hlength
      (Lease.new controller (some length)).processing
  have hroom := room_for_share hpolicy hstate hshared hlookup (Nat.lt_add_right _ hfew)
  have hclass : (Lease.new controller (some length)).classed
      (decide (smallBodyMaxBytes < length)) = false := by
    simp [Lease.classed, Lease.new, hlength]
  obtain ⟨working', hok⟩ :=
    updateWorking_small hpolicy hstate hlookup rfl hroom rfl hclass hcharge hle
  refine ⟨⟨state.activeRequests, state.activeBytes, working',
    state.leases.insert leaseId (Lease.prepared controller length charge)⟩, charge, ?_, hle, rfl⟩
  have hprepared : prepareBuffer controller state.working (Lease.new controller (some length)) 0 0 =
      .ok (working', { Lease.new controller (some length) with
        workingBytes := charge, large := false, allocationCapacity := 0, extent := length }) := by
    have hextent : max 0 ((some length).getD 0) = length := Nat.zero_max length
    unfold prepareBuffer
    simp only [Lease.new, hextent, Option.isNone_some, Bool.false_or, Nat.max_self]
    simp only [Lease.new] at hok
    rw [hok]
    rfl
  simp only [perform, State.withLease, hlookup, State.commit, hprepared]
  rfl

/-- Assumes: a small body, a lease that has prepared its buffer for it and is not classed large, and
at most as many small leases with it as are reserved. Its processing begins. -/
theorem small_beginProcessing (hpolicy : controller.sizePolicy = some policy)
    (hstate : Balanced controller state) (hshared : Shared policy state)
    (hreserved : 0 < policy.reservedSmallRequests.val) {leaseId : ℕ} {lease : Lease}
    (hlookup : state.leases.lookup leaseId = some lease) (hphase : lease.phase = .held)
    (hfew : state.smallLeases < policy.reservedSmallRequests.val + lease.heldSmall.toNat)
    (hrewrite : lease.rewriteCapacity = 0) (hcompact : lease.compactWorkspace = false)
    (hcapacity : lease.allocationCapacity = 0) (hextent : lease.extent ≤ smallBodyMaxBytes)
    (hnotLarge : lease.large = false) :
    ∃ processing, perform controller state (.beginProcessing leaseId) = (.done, processing) := by
  obtain ⟨charge, hcharge, hle⟩ :=
    charge_small (share_lt hpolicy hreserved) hrewrite hcompact hextent true
  rw [← hcapacity] at hcharge
  have hholds : lease.phase.holdsWorking = true := by rw [hphase]; rfl
  have hroom := room_for_share hpolicy hstate hshared hlookup hfew
  have hclass : lease.classed lease.large = false := by simp [Lease.classed, hrewrite, hnotLarge]
  obtain ⟨working', hok⟩ :=
    updateWorking_small hpolicy hstate hlookup hholds hroom hnotLarge hclass hcharge hle
  have hbegun : beginProcessing controller state.working lease =
      .ok (working',
        { lease with workingBytes := charge, large := false, processing := true }) := by
    unfold beginProcessing
    rw [hok]
    rfl
  simp only [perform, State.withLease, hlookup, hphase, State.commit, hbegun]
  exact ⟨_, rfl⟩

end Steps

/-! ### Every run within the shares -/

/-- The small-request reserve. Assumes: a policy, and a run in which no step asks for a small charge
of more than one share. In the state the run reaches, when fewer small leases are live than are
reserved and fewer leases than `max_requests`, a request that declares a small body takes a slot,
prepares its buffer and begins processing. -/
theorem small_request_admitted {controller : BodyAdmissionController}
    {policy : SizeAwareBodyPolicy} (hpolicy : controller.sizePolicy = some policy)
    {actions : List Action}
    (hguarded : Guarded (step controller) (WithinShare controller policy) State.initial actions)
    (hfew : (State.after controller actions).smallLeases < policy.reservedSmallRequests.val)
    (hslot : (State.after controller actions).liveLeases < controller.maxRequests.val)
    {leaseId : ℕ} (hnew : leaseId ∉ (State.after controller actions).leases) {length : ℕ}
    (hlength : length ≤ smallBodyMaxBytes) :
    ∃ acquired started processing : State,
      perform controller (State.after controller actions) (.acquire leaseId (some length)) =
        (.done, acquired) ∧
      perform controller acquired (.start leaseId) = (.done, started) ∧
      perform controller started (.beginProcessing leaseId) = (.done, processing) := by
  have hstate := balanced_after controller actions
  have hshared := shared_run hpolicy hguarded
  rw [← hstate.requests] at hslot
  generalize State.after controller actions = state at *
  have hacquire := perform_acquire hnew hslot (some length)
  have hbalanced := balanced_step state (.acquire leaseId (some length)) hstate
  have hacquiredShared := shared_step hpolicy
    (withinShare_acquire controller policy state leaseId (some length)) hshared
  rw [step, hacquire] at hbalanced hacquiredShared
  have hcount : total (fun _ lease ↦ lease.heldSmall.toNat)
      (state.leases.insert leaseId (Lease.new controller (some length))) = state.smallLeases :=
    (total_insert_of_notMem _ hnew _).trans (zero_add _)
  have hlookup : (state.leases.insert leaseId (Lease.new controller (some length))).lookup leaseId =
      some (Lease.new controller (some length)) := AList.lookup_insert _
  obtain ⟨started, charge, hstart, hle, hleases⟩ := small_start hpolicy hbalanced hacquiredShared
    (hcount.trans_lt hfew) hlength hlookup
  have hstarted := balanced_step _ (.start leaseId) hbalanced
  rw [step, hstart] at hstarted
  have hstartedShared : Shared policy started := by
    intro other lease' hother hnotLarge
    rw [hleases] at hother
    rcases Library.Table.lookup_insert_cases hother with ⟨-, rfl⟩ | ⟨-, hkept⟩
    · exact hle
    · exact hacquiredShared other lease' hkept hnotLarge
  have hmoved := measure_add_total_insert (fun _ lease ↦ lease.heldSmall.toNat) hlookup
    (Lease.prepared controller length charge)
  have hstartedLookup : started.leases.lookup leaseId =
      some (Lease.prepared controller length charge) := by
    rw [hleases, AList.lookup_insert]
  have hstartedFew : started.smallLeases <
      policy.reservedSmallRequests.val +
        (Lease.prepared controller length charge).heldSmall.toNat := by
    rw [State.smallLeases, hleases]
    dsimp only at hmoved ⊢
    omega
  obtain ⟨processing, hprocessing⟩ := small_beginProcessing hpolicy hstarted hstartedShared
    (Nat.zero_lt_of_lt hfew) hstartedLookup rfl hstartedFew rfl rfl rfl hlength rfl
  exact ⟨_, started, processing, hacquire, hstart, hprocessing⟩

/-- A policy that reserves two small requests and has one byte beside their shares. -/
def narrowPolicy : SizeAwareBodyPolicy where
  maxWorkingBytes := 1703937
  elasticMaxRequests := none
  reservedSmallRequests := 2
  workspaceMultiplier := 2
  uploadTimeout := 30000000000

/-- A controller of three requests with that policy. -/
def narrowController : BodyAdmissionController where
  configuredMaxRequests := 3
  maxRequests := 3
  maxBytes := 536870912
  sizePolicy := some narrowPolicy
  configuredMaxRequests_pos := by decide
  maxBytes_pos := by decide
  maxRequests_eq := rfl
  validated := by
    intro policy hpolicy
    obtain rfl := Option.some.inj hpolicy
    decide

/-- One small request at the threshold reserves an output buffer as large as its input. It stays
small, and the second of the two reserved small requests is refused although only one is live. -/
theorem small_lease_eats_reserve :
    (State.after narrowController
        [.acquire 0 (some 262144), .start 0, .prepareRewrite 0 262144]).smallLeases <
      narrowPolicy.reservedSmallRequests.val ∧
    (State.after narrowController
        [.acquire 0 (some 262144), .start 0, .prepareRewrite 0 262144]).liveLeases <
      narrowController.maxRequests.val ∧
    (perform narrowController (State.after narrowController
      [.acquire 0 (some 262144), .start 0, .prepareRewrite 0 262144])
        (.acquire 1 (some 262144))).1 = .done ∧
    (perform narrowController (State.after narrowController
      [.acquire 0 (some 262144), .start 0, .prepareRewrite 0 262144, .acquire 1 (some 262144)])
        (.start 1)).1 = .overloaded := by
  decide

/-- Without the output buffer the second request is admitted. -/
theorem small_request_admitted_narrow :
    ∃ acquired started processing : State,
      perform narrowController (State.after narrowController
        [.acquire 0 (some 262144), .start 0, .beginProcessing 0]) (.acquire 1 (some 262144)) =
          (.done, acquired) ∧
      perform narrowController acquired (.start 1) = (.done, started) ∧
      perform narrowController started (.beginProcessing 1) = (.done, processing) :=
  small_request_admitted rfl (by decide) (by decide) (by decide)
    (by decide) (by decide)

end Relayna.BodyAdmission

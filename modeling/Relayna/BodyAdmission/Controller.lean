import Mathlib.Data.List.AList
import Relayna.Library.MachineWord

/-!
# The body-admission controller

`crates/gateway-proxy/src/body_admission.rs` bounds the request bodies that the proxy buffers: a
number of requests, their bytes, and an optional estimate of the memory they work in. A request
holds a lease. The lease counts for one request, for the bytes it has reserved, and for a working
charge that is classed small or large; a part of the working memory and of the request slots is kept
for small bodies.

The model follows the synchronization of the source. The two atomic counters change by one
compare-and-swap loop or one `fetch_sub` each, and the working set changes under its mutex, so an
operation that touches several of them takes several steps: `try_acquire_sized` takes a slot and
then prepares the buffer, `into_bytes` reserves and then updates the charge, and the drop of a lease
returns its working charge, its bytes and its slot one after the other. `Phase` says where a lease
stands between those steps. `usize` has 64 bits; a subtraction that the source does not check is
`wrappingSub`. Telemetry and the admission time of a lease are left out, and no step panics while it
holds the mutex, so the mutex is never poisoned.
-/

set_option autoImplicit false
set_option relaxedAutoImplicit false

namespace Relayna.BodyAdmission

open Library.MachineWord

/-! ### Configuration -/

def smallBodyMaxBytes : ℕ := 256 * 1024

def requestWorkingOverhead : ℕ := 64 * 1024

/-- The errors of this component. -/
inductive GatewayError
  | invalidConfiguration
  | gatewayOverloaded
  deriving DecidableEq

/-- `SizeAwareBodyPolicy`. The upload timeout is in nanoseconds. -/
structure SizeAwareBodyPolicy where
  maxWorkingBytes : Word 64
  elasticMaxRequests : Option (Word 64)
  reservedSmallRequests : Word 64
  workspaceMultiplier : Word 64
  uploadTimeout : ℕ
  deriving DecidableEq

/-- `small_reserve`: the working memory kept for small bodies. -/
def SizeAwareBodyPolicy.smallReserve (policy : SizeAwareBodyPolicy) : Option ℕ := do
  let body ← checkedMul 64 smallBodyMaxBytes (1 + policy.workspaceMultiplier.val)
  let share ← checkedAdd 64 body requestWorkingOverhead
  checkedMul 64 share policy.reservedSmallRequests.val

def SizeAwareBodyPolicy.validate (policy : SizeAwareBodyPolicy) (maxRequests : Word 64) :
    Except GatewayError Unit :=
  if policy.maxWorkingBytes.val = 0 ∨ policy.elasticMaxRequests.any (· < maxRequests) ∨
      maxRequests ≤ policy.reservedSmallRequests ∨
      ¬ (1 ≤ policy.workspaceMultiplier.val ∧ policy.workspaceMultiplier.val ≤ 16) ∨
      policy.uploadTimeout = 0 ∨ 600 * 1000000000 < policy.uploadTimeout ∨
      policy.smallReserve.all (policy.maxWorkingBytes.val ≤ ·) then
    .error .invalidConfiguration
  else .ok ()

/-- The configuration of a controller, as `with_size_policy` has checked it: `maxRequests` is the
elastic ceiling of the policy when it has one. -/
structure BodyAdmissionController where
  configuredMaxRequests : Word 64
  maxRequests : Word 64
  maxBytes : Word 64
  sizePolicy : Option SizeAwareBodyPolicy
  configuredMaxRequests_pos : 0 < configuredMaxRequests.val
  maxBytes_pos : 0 < maxBytes.val
  maxRequests_eq :
    maxRequests = (sizePolicy.bind (·.elasticMaxRequests)).getD configuredMaxRequests
  validated : ∀ policy ∈ sizePolicy, policy.validate configuredMaxRequests = .ok ()

def BodyAdmissionController.withSizePolicy (maxRequests maxBytes : Word 64)
    (sizePolicy : Option SizeAwareBodyPolicy) : Except GatewayError BodyAdmissionController :=
  if hzero : maxRequests.val = 0 ∨ maxBytes.val = 0 then .error .invalidConfiguration
  else
    if hvalid : ∀ policy ∈ sizePolicy, policy.validate maxRequests = .ok () then
      .ok {
        configuredMaxRequests := maxRequests
        maxRequests := (sizePolicy.bind (·.elasticMaxRequests)).getD maxRequests
        maxBytes := maxBytes
        sizePolicy := sizePolicy
        configuredMaxRequests_pos := by omega
        maxBytes_pos := by omega
        maxRequests_eq := rfl
        validated := hvalid }
    else .error .invalidConfiguration

/-! ### Leases -/

/-- Where a lease stands between the steps of an operation: `starting` has its slot and not yet its
first charge, `converting` is inside `into_bytes` after the reservation, `forwarded` belongs to the
forwarded bytes, `failed` has failed an operation that owns it and is to be dropped, and the last
two are inside the drop. -/
inductive Phase
  | starting
  | held
  | converting (length : ℕ)
  | forwarded
  | failed
  | workingReturned
  | bytesReturned
  deriving DecidableEq

/-- `BodyAdmissionLease`. -/
structure Lease where
  reservedBytes : ℕ
  expectedLength : Option ℕ
  allocationCapacity : ℕ
  rewriteCapacity : ℕ
  workingBytes : ℕ
  extent : ℕ
  processing : Bool
  compactWorkspace : Bool
  large : Bool
  phase : Phase
  deriving DecidableEq

/-- The policy admits more requests than are configured and charges workspace when it is used. -/
def BodyAdmissionController.elastic (controller : BodyAdmissionController) : Bool :=
  controller.sizePolicy.any (·.elasticMaxRequests.isSome)

/-- The lease `try_acquire_sized` creates. -/
def Lease.new (controller : BodyAdmissionController) (expectedLength : Option ℕ) : Lease where
  reservedBytes := 0
  expectedLength := expectedLength
  allocationCapacity := 0
  rewriteCapacity := 0
  workingBytes := 0
  extent := 0
  processing := !controller.elastic
  compactWorkspace := false
  large := false
  phase := .starting

structure WorkingSet where
  bytes : ℕ
  largeBytes : ℕ
  largeRequests : ℕ
  deriving DecidableEq

/-- `BodyAdmissionState` with the live leases. -/
structure State where
  activeRequests : ℕ
  activeBytes : ℕ
  working : WorkingSet
  leases : AList fun _ : ℕ ↦ Lease

/-- A controller without leases. -/
def State.initial : State where
  activeRequests := 0
  activeBytes := 0
  working := ⟨0, 0, 0⟩
  leases := ∅

/-! ### The operations of a lease -/

/-- `increment_bounded`. A loop that loses its race starts again, so it ends in one step that reads
the counter and either fails or writes the sum. -/
def incrementBounded (counter amount maximum : ℕ) : Option ℕ := do
  let next ← checkedAdd 64 counter amount
  if maximum < next then none else some next

/-- The analysis workspace of a charge. -/
def Lease.workspace (policy : SizeAwareBodyPolicy) (lease : Lease) (length : ℕ)
    (processing : Bool) : Option ℕ :=
  if processing || lease.compactWorkspace then do
    let bytes ← checkedMul 64 (max length lease.rewriteCapacity) policy.workspaceMultiplier.val
    some (if processing then bytes else min bytes (64 * 1024))
  else some 0

/-- The working charge that `update_working` asks for. -/
def Lease.charge (policy : SizeAwareBodyPolicy) (lease : Lease) (length capacity : ℕ)
    (processing : Bool) : Option ℕ := do
  let workspace ← lease.workspace policy length processing
  let bytes ← checkedAdd 64 workspace (max capacity length)
  let bytes ← checkedAdd 64 bytes lease.rewriteCapacity
  checkedAdd 64 bytes requestWorkingOverhead

/-- The class that `update_working` asks for. -/
def Lease.classed (lease : Lease) (large : Bool) : Bool :=
  large || decide (smallBodyMaxBytes < lease.rewriteCapacity)

/-- `update_working`: replace the charge and the class of a lease, or fail without effect. The small
reserve of a validated policy exists. -/
def updateWorking (controller : BodyAdmissionController) (working : WorkingSet) (lease : Lease)
    (length capacity : ℕ) (large processing : Bool) : Except GatewayError (WorkingSet × Lease) :=
  match controller.sizePolicy with
  | none => .ok (working, lease)
  | some policy =>
    match lease.charge policy length capacity processing with
    | none => .error .gatewayOverloaded
    | some charge =>
      let large := lease.classed large
      if charge = lease.workingBytes ∧ large = lease.large then .ok (working, lease)
      else
        let nextBytes := (checkedSub working.bytes lease.workingBytes).bind (checkedAdd 64 · charge)
        let nextLargeBytes :=
          (checkedSub working.largeBytes (if lease.large then lease.workingBytes else 0)).bind
            (checkedAdd 64 · (if large then charge else 0))
        let nextLargeRequests :=
          wrappingAdd 64 (wrappingSub 64 working.largeRequests lease.large.toNat) large.toNat
        match nextBytes, nextLargeBytes with
        | some nextBytes, some nextLargeBytes =>
          if policy.maxWorkingBytes.val < nextBytes ∨
              policy.maxWorkingBytes.val - policy.smallReserve.getD 0 < nextLargeBytes ∨
              controller.maxRequests.val - policy.reservedSmallRequests.val < nextLargeRequests then
            .error .gatewayOverloaded
          else
            .ok (⟨nextBytes, nextLargeBytes, nextLargeRequests⟩,
              { lease with workingBytes := charge, large := large })
        | _, _ => .error .gatewayOverloaded

def prepareBuffer (controller : BodyAdmissionController) (working : WorkingSet) (lease : Lease)
    (length capacity : ℕ) : Except GatewayError (WorkingSet × Lease) :=
  let capacity := max lease.allocationCapacity capacity
  let extent := max length (lease.expectedLength.getD 0)
  let large := lease.expectedLength.isNone || decide (smallBodyMaxBytes < extent)
  (updateWorking controller working lease extent capacity large lease.processing).map
    (Prod.map id fun lease ↦ { lease with allocationCapacity := capacity, extent := extent })

def beginProcessing (controller : BodyAdmissionController) (working : WorkingSet) (lease : Lease) :
    Except GatewayError (WorkingSet × Lease) :=
  (updateWorking controller working lease lease.extent lease.allocationCapacity lease.large
    true).map (Prod.map id fun lease ↦ { lease with processing := true })

def prepareRewrite (controller : BodyAdmissionController) (working : WorkingSet) (lease : Lease)
    (capacity : ℕ) : Except GatewayError (WorkingSet × Lease) :=
  (updateWorking controller working
    { lease with rewriteCapacity := max lease.rewriteCapacity capacity } lease.extent
    lease.allocationCapacity lease.large true).map
      (Prod.map id fun lease ↦ { lease with processing := true })

def retainCompactWorkspace (controller : BodyAdmissionController) (working : WorkingSet)
    (lease : Lease) : Except GatewayError (WorkingSet × Lease) :=
  if controller.elastic then
    (updateWorking controller working { lease with compactWorkspace := true } lease.extent
      lease.allocationCapacity lease.large false).map
        (Prod.map id fun lease ↦ { lease with processing := false })
  else .ok (working, lease)

def tryReserve (controller : BodyAdmissionController) (activeBytes : ℕ) (lease : Lease)
    (additionalBytes : ℕ) : Except GatewayError (ℕ × Lease) :=
  if additionalBytes = 0 then .ok (activeBytes, lease)
  else
    match incrementBounded activeBytes additionalBytes controller.maxBytes.val with
    | none => .error .gatewayOverloaded
    | some next =>
      .ok (next,
        { lease with reservedBytes := saturatingAdd 64 lease.reservedBytes additionalBytes })

/-- The lease inside `into_bytes` when the parsing and rewrite workspace is given up. -/
def Lease.stripped (lease : Lease) : Lease :=
  { lease with compactWorkspace := false, rewriteCapacity := 0 }

/-- The second part of `into_bytes`: only the forwarded allocation stays charged. -/
def chargeForwarded (controller : BodyAdmissionController) (working : WorkingSet) (lease : Lease)
    (length : ℕ) : Except GatewayError (WorkingSet × Lease) :=
  let retainedCapacity :=
    if 0 < lease.rewriteCapacity then lease.rewriteCapacity else lease.allocationCapacity
  updateWorking controller working lease.stripped length (max retainedCapacity length)
    (decide (smallBodyMaxBytes < length)) false

/-- The first part of the drop: return the working charge. -/
def returnWorking (working : WorkingSet) (lease : Lease) : WorkingSet :=
  if 0 < lease.workingBytes then
    { bytes := wrappingSub 64 working.bytes lease.workingBytes
      largeBytes :=
        if lease.large then wrappingSub 64 working.largeBytes lease.workingBytes
        else working.largeBytes
      largeRequests :=
        if lease.large then wrappingSub 64 working.largeRequests 1 else working.largeRequests }
  else working

/-- The second part of the drop: return the reserved bytes. -/
def returnBytes (activeBytes : ℕ) (lease : Lease) : ℕ :=
  if 0 < lease.reservedBytes then wrappingSub 64 activeBytes lease.reservedBytes else activeBytes

/-! ### Steps -/

/-- One step of one request. `acquire`, `start` are the two parts of `try_acquire_sized`,
`intoBytes` and `convert` those of `into_bytes` on a body of some length, and the last three those
of the drop. -/
inductive Action
  | acquire (leaseId : ℕ) (expectedLength : Option ℕ)
  | start (leaseId : ℕ)
  | tryReserve (leaseId additionalBytes : ℕ)
  | prepareBuffer (leaseId length capacity : ℕ)
  | prepareRewrite (leaseId capacity : ℕ)
  | beginProcessing (leaseId : ℕ)
  | retainCompactWorkspace (leaseId : ℕ)
  | intoBytes (leaseId length : ℕ)
  | convert (leaseId : ℕ)
  | returnWorking (leaseId : ℕ)
  | returnBytes (leaseId : ℕ)
  | returnSlot (leaseId : ℕ)
  deriving DecidableEq

/-- How a step ends. A step that the lease is not ready for does not happen. -/
inductive Outcome
  | disabled
  | done
  | overloaded
  deriving DecidableEq

/-- Take a step of a lease, when the lease is live and in a phase that allows the step. -/
def State.withLease (state : State) (leaseId : ℕ) (enabled : Phase → Bool)
    (operation : Lease → Outcome × State) : Outcome × State :=
  match state.leases.lookup leaseId with
  | none => (.disabled, state)
  | some lease => if enabled lease.phase then operation lease else (.disabled, state)

/-- Record what a change of the working set did. A failed one leaves the lease `failed` describes.
-/
def State.commit (state : State) (leaseId : ℕ) (result : Except GatewayError (WorkingSet × Lease))
    (done failed : Lease → Lease) (lease : Lease) : Outcome × State :=
  match result with
  | .ok (working, updated) =>
    (.done, { state with working := working, leases := state.leases.insert leaseId (done updated) })
  | .error _ => (.overloaded, { state with leases := state.leases.insert leaseId (failed lease) })

def perform (controller : BodyAdmissionController) (state : State) : Action → Outcome × State
  | .acquire leaseId expectedLength =>
    if leaseId ∈ state.leases then (.disabled, state)
    else
      match incrementBounded state.activeRequests 1 controller.maxRequests.val with
      | none => (.overloaded, state)
      | some next =>
        (.done, ⟨next, state.activeBytes, state.working,
          state.leases.insert leaseId (Lease.new controller expectedLength)⟩)
  | .start leaseId => state.withLease leaseId (· = .starting) fun lease ↦
    state.commit leaseId (prepareBuffer controller state.working lease 0 0)
      (fun lease ↦ { lease with phase := .held })
      (fun lease ↦ { lease with phase := .failed }) lease
  | .tryReserve leaseId additionalBytes => state.withLease leaseId (· = .held) fun lease ↦
    match tryReserve controller state.activeBytes lease additionalBytes with
    | .error _ => (.overloaded, state)
    | .ok (next, lease) =>
      (.done, { state with activeBytes := next, leases := state.leases.insert leaseId lease })
  | .prepareBuffer leaseId length capacity => state.withLease leaseId (· = .held) fun lease ↦
    state.commit leaseId (prepareBuffer controller state.working lease length capacity) (·) (·)
      lease
  | .prepareRewrite leaseId capacity => state.withLease leaseId (· = .held) fun lease ↦
    state.commit leaseId (prepareRewrite controller state.working lease capacity) (·) (·) lease
  | .beginProcessing leaseId => state.withLease leaseId (· = .held) fun lease ↦
    state.commit leaseId (beginProcessing controller state.working lease) (·) (·) lease
  | .retainCompactWorkspace leaseId => state.withLease leaseId (· = .held) fun lease ↦
    state.commit leaseId (retainCompactWorkspace controller state.working lease) (·) (·) lease
  | .intoBytes leaseId length => state.withLease leaseId (· = .held) fun lease ↦
    match tryReserve controller state.activeBytes lease (length - lease.reservedBytes) with
    | .error _ => (.overloaded,
        { state with leases := state.leases.insert leaseId { lease with phase := .failed } })
    | .ok (next, lease) =>
      (.done, { state with activeBytes := next,
                           leases := state.leases.insert leaseId
                             { lease with phase := .converting length } })
  | .convert leaseId =>
    state.withLease leaseId (fun phase ↦ phase matches .converting _) fun lease ↦
    match lease.phase with
    | .converting length =>
      state.commit leaseId (chargeForwarded controller state.working lease length)
        (fun lease ↦ { lease with phase := .forwarded })
        (fun lease ↦ { lease.stripped with phase := .failed }) lease
    | _ => (.disabled, state)
  | .returnWorking leaseId =>
    state.withLease leaseId (fun phase ↦ phase = .held ∨ phase = .forwarded ∨ phase = .failed)
      fun lease ↦ (.done, { state with working := returnWorking state.working lease,
                                       leases := state.leases.insert leaseId
                                        { lease with phase := .workingReturned } })
  | .returnBytes leaseId => state.withLease leaseId (· = .workingReturned) fun lease ↦
    (.done, { state with activeBytes := returnBytes state.activeBytes lease,
                         leases := state.leases.insert leaseId
                           { lease with phase := .bytesReturned } })
  | .returnSlot leaseId => state.withLease leaseId (· = .bytesReturned) fun _ ↦
    (.done, { state with activeRequests := wrappingSub 64 state.activeRequests 1,
                         leases := state.leases.erase leaseId })

/-- The state after one step. -/
def step (controller : BodyAdmissionController) (state : State) (action : Action) : State :=
  (perform controller state action).2

end Relayna.BodyAdmission

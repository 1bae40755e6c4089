import Relayna.BodyAdmission.LeaseSteps
import Relayna.BodyAdmission.SmallReserve
import Relayna.Library.Attempt

/-!
# Failed operations of a lease undo what they wrote

The operations of a lease in `crates/gateway-proxy/src/body_admission.rs` write fields of the lease
before they ask for the working charge that goes with them, and put the old value back by hand when
they are refused; `try_acquire_sized` counts its request first and leaves the undoing to the drop of
the lease. This module has the operations with these writes: a call works on the counters and on the
lease that it borrows, and what it has written stays when it fails (`LeaseCall`).

They do what the operations of the controller do (`run_prepareRewriteInPlace` and its siblings), so
that a failed one leaves everything as it was: `failed_calls_undone`.
-/

set_option autoImplicit false
set_option relaxedAutoImplicit false

namespace Relayna.BodyAdmission

open Library.Attempt Library.MachineWord Library.Transition

/-! ### Calls that write -/

structure Counters where
  activeRequests : ℕ
  activeBytes : ℕ
  working : WorkingSet
  deriving DecidableEq

/-- The shared counters and the lease that a call borrows. -/
structure Borrowed where
  counters : Counters
  lease : Lease
  deriving DecidableEq

/-- A call on a lease: its result, and what it has written, also when it fails. -/
abbrev LeaseCall (Result : Type) := Attempting Borrowed GatewayError Result

def writeLease (write : Lease → Lease) : LeaseCall Unit :=
  modify fun borrowed ↦ { borrowed with lease := write borrowed.lease }

def writeCounters (write : Counters → Counters) : LeaseCall Unit :=
  modify fun borrowed ↦ { borrowed with counters := write borrowed.counters }

/-- `update_working`. -/
def updateWorkingInPlace (controller : BodyAdmissionController) (length capacity : ℕ)
    (large processing : Bool) : LeaseCall Unit := do
  match controller.sizePolicy with
  | none => return ()
  | some policy =>
    let lease := (← get).lease
    match lease.charge policy length capacity processing with
    | none => throw .gatewayOverloaded
    | some charge =>
      let large := lease.classed large
      if charge = lease.workingBytes ∧ large = lease.large then return ()
      else
        let working := (← get).counters.working
        let nextBytes := (checkedSub working.bytes lease.workingBytes).bind (checkedAdd 64 · charge)
        let nextLargeBytes :=
          (checkedSub working.largeBytes (if lease.large then lease.workingBytes else 0)).bind
            (checkedAdd 64 · (if large then charge else 0))
        let nextLargeRequests :=
          wrappingAdd 64 (wrappingSub 64 working.largeRequests lease.large.toNat) large.toNat
        match nextBytes, nextLargeBytes with
        | some nextBytes, some nextLargeBytes =>
          if policy.maxWorkingBytes.val < nextBytes ∨
              policy.maxWorkingBytes.val - policy.smallReserve.getD 0 < nextLargeBytes ∨
              controller.maxRequests.val - policy.reservedSmallRequests.val < nextLargeRequests then
            throw .gatewayOverloaded
          else
            writeCounters fun counters ↦
              { counters with working := { counters.working with bytes := nextBytes } }
            writeCounters fun counters ↦
              { counters with working := { counters.working with largeBytes := nextLargeBytes } }
            writeCounters fun counters ↦
              { counters with
                working := { counters.working with largeRequests := nextLargeRequests } }
            writeLease fun lease ↦ { lease with workingBytes := charge }
            writeLease fun lease ↦ { lease with large := large }
        | _, _ => throw .gatewayOverloaded

/-- `prepare_buffer`. -/
def prepareBufferInPlace (controller : BodyAdmissionController) (length capacity : ℕ) :
    LeaseCall Unit := do
  let lease := (← get).lease
  let capacity := max lease.allocationCapacity capacity
  let extent := max length (lease.expectedLength.getD 0)
  let large := lease.expectedLength.isNone || decide (smallBodyMaxBytes < extent)
  updateWorkingInPlace controller extent capacity large lease.processing
  writeLease fun lease ↦ { lease with allocationCapacity := capacity }
  writeLease fun lease ↦ { lease with extent := extent }

/-- `begin_processing`. -/
def beginProcessingInPlace (controller : BodyAdmissionController) : LeaseCall Unit := do
  let lease := (← get).lease
  updateWorkingInPlace controller lease.extent lease.allocationCapacity lease.large true
  writeLease fun lease ↦ { lease with processing := true }

/-- `prepare_rewrite`. -/
def prepareRewriteInPlace (controller : BodyAdmissionController) (capacity : ℕ) :
    LeaseCall Unit := do
  let previous := (← get).lease.rewriteCapacity
  writeLease fun lease ↦ { lease with rewriteCapacity := max previous capacity }
  let lease := (← get).lease
  try
    updateWorkingInPlace controller lease.extent lease.allocationCapacity lease.large true
  catch error =>
    writeLease fun lease ↦ { lease with rewriteCapacity := previous }
    throw error
  writeLease fun lease ↦ { lease with processing := true }

/-- `retain_compact_workspace`. -/
def retainCompactWorkspaceInPlace (controller : BodyAdmissionController) : LeaseCall Unit := do
  if controller.elastic then
    let previous := (← get).lease.compactWorkspace
    writeLease fun lease ↦ { lease with compactWorkspace := true }
    let lease := (← get).lease
    try
      updateWorkingInPlace controller lease.extent lease.allocationCapacity lease.large false
    catch error =>
      writeLease fun lease ↦ { lease with compactWorkspace := previous }
      throw error
    writeLease fun lease ↦ { lease with processing := false }

/-- `try_reserve`. -/
def tryReserveInPlace (controller : BodyAdmissionController) (additionalBytes : ℕ) :
    LeaseCall Unit := do
  if additionalBytes = 0 then return ()
  else
    match incrementBounded (← get).counters.activeBytes additionalBytes controller.maxBytes.val with
    | none => throw .gatewayOverloaded
    | some next =>
      writeCounters fun counters ↦ { counters with activeBytes := next }
      writeLease fun lease ↦
        { lease with reservedBytes := saturatingAdd 64 lease.reservedBytes additionalBytes }

/-- `Drop::drop` of a lease: the counters after it. -/
def dropLease (borrowed : Borrowed) : Counters where
  activeRequests := wrappingSub 64 borrowed.counters.activeRequests 1
  activeBytes := returnBytes borrowed.counters.activeBytes borrowed.lease
  working := returnWorking borrowed.counters.working borrowed.lease

/-- `try_acquire_sized`. A lease that it does not return is dropped. -/
def tryAcquireSized (controller : BodyAdmissionController) (expectedLength : Option ℕ)
    (counters : Counters) : Except GatewayError Lease × Counters :=
  match incrementBounded counters.activeRequests 1 controller.maxRequests.val with
  | none => (.error .gatewayOverloaded, counters)
  | some next =>
    match (prepareBufferInPlace controller 0 0).run
        ⟨{ counters with activeRequests := next }, Lease.new controller expectedLength⟩ with
    | (.ok _, borrowed) => (.ok borrowed.lease, borrowed.counters)
    | (.error error, borrowed) => (.error error, dropLease borrowed)

/-! ### What the calls do -/

section Calls

variable (controller : BodyAdmissionController)

/-- What a call makes of an outcome of the controller's own operation: its writes happen if it
succeeds, and nothing happens if it fails. -/
def Borrowed.settle (borrowed : Borrowed) (result : Except GatewayError (WorkingSet × Lease)) :
    Except GatewayError Unit × Borrowed :=
  match result with
  | .ok (working, lease) => (.ok (), ⟨{ borrowed.counters with working := working }, lease⟩)
  | .error error => (.error error, borrowed)

theorem run_writeLease_bind {Result : Type} (write : Lease → Lease) (next : Unit → LeaseCall Result)
    (borrowed : Borrowed) :
    (writeLease write >>= next).run borrowed =
      (next ()).run { borrowed with lease := write borrowed.lease } :=
  rfl

theorem run_updateWorkingInPlace (length capacity : ℕ) (large processing : Bool)
    (borrowed : Borrowed) :
    (updateWorkingInPlace controller length capacity large processing).run borrowed =
      borrowed.settle (updateWorking controller borrowed.counters.working borrowed.lease length
        capacity large processing) := by
  unfold updateWorkingInPlace updateWorking
  cases controller.sizePolicy with
  | none => rfl
  | some policy =>
    dsimp only
    rw [run_get_bind]
    cases borrowed.lease.charge policy length capacity processing with
    | none => rfl
    | some charge =>
      dsimp only
      by_cases hsame : charge = borrowed.lease.workingBytes ∧
          borrowed.lease.classed large = borrowed.lease.large
      · rw [if_pos hsame, if_pos hsame]
        rfl
      · rw [if_neg hsame, if_neg hsame, run_get_bind]
        generalize (checkedSub borrowed.counters.working.bytes _).bind _ = nextBytes
        generalize (checkedSub borrowed.counters.working.largeBytes _).bind _ = nextLargeBytes
        cases nextBytes with
        | none => rfl
        | some nextBytes =>
          cases nextLargeBytes with
          | none => rfl
          | some nextLargeBytes =>
            dsimp only
            split_ifs
            · rfl
            · rfl

variable {call : LeaseCall Unit} {borrowed : Borrowed}
  {result : Except GatewayError (WorkingSet × Lease)}

/-- What a call makes of an outcome when another follows it: `next` works on what the outcome has
written, and `failed` on what the call found. -/
def Borrowed.follow (borrowed : Borrowed) (result : Except GatewayError (WorkingSet × Lease))
    (next : LeaseCall Unit) (failed : GatewayError → LeaseCall Unit) :
    Except GatewayError Unit × Borrowed :=
  match result with
  | .ok (working, lease) => next.run ⟨{ borrowed.counters with working := working }, lease⟩
  | .error error => (failed error).run borrowed

/-- Assumes: a call that settles to a result. What follows it does not happen if it fails. -/
theorem run_settled_bind (hcall : call.run borrowed = borrowed.settle result)
    (next : Unit → LeaseCall Unit) :
    (call >>= next).run borrowed = borrowed.follow result (next ()) throw := by
  cases result with
  | error error => exact run_bind_of_error hcall next
  | ok moved => exact run_bind_of_ok hcall next

/-- Assumes: a call that settles to a result. If it fails, its handler works on what it found. -/
theorem run_settled_tryCatch_bind (hcall : call.run borrowed = borrowed.settle result)
    (handler : GatewayError → LeaseCall Unit) (next : Unit → LeaseCall Unit) :
    (tryCatch call handler >>= next).run borrowed =
      borrowed.follow result (next ()) fun error ↦ handler error >>= next := by
  cases result with
  | error error =>
    have hhandled : (tryCatch call handler).run borrowed = (handler error).run borrowed :=
      run_tryCatch_of_error hcall handler
    rw [Borrowed.follow]
    rcases hhandler : (handler error).run borrowed with ⟨value | value, written⟩
    · rw [run_bind_of_error (hhandled.trans hhandler), run_bind_of_error hhandler]
    · rw [run_bind_of_ok (hhandled.trans hhandler), run_bind_of_ok hhandler]
  | ok moved => exact run_bind_of_ok (run_tryCatch_of_ok hcall handler) next

theorem run_prepareBufferInPlace (length capacity : ℕ) (borrowed : Borrowed) :
    (prepareBufferInPlace controller length capacity).run borrowed =
      borrowed.settle (prepareBuffer controller borrowed.counters.working borrowed.lease length
        capacity) := by
  unfold prepareBufferInPlace prepareBuffer
  rw [run_get_bind]
  dsimp only
  rw [run_settled_bind (run_updateWorkingInPlace controller _ _ _ _ borrowed)]
  cases updateWorking controller borrowed.counters.working borrowed.lease _ _ _ _ with
  | error error => rfl
  | ok moved => rfl

theorem run_beginProcessingInPlace (borrowed : Borrowed) :
    (beginProcessingInPlace controller).run borrowed =
      borrowed.settle (beginProcessing controller borrowed.counters.working borrowed.lease) := by
  unfold beginProcessingInPlace beginProcessing
  rw [run_get_bind]
  dsimp only
  rw [run_settled_bind (run_updateWorkingInPlace controller _ _ _ _ borrowed)]
  cases updateWorking controller borrowed.counters.working borrowed.lease _ _ _ _ with
  | error error => rfl
  | ok moved => rfl

/-- The rewrite capacity that a refused call has written is put back. -/
theorem run_prepareRewriteInPlace (capacity : ℕ) (borrowed : Borrowed) :
    (prepareRewriteInPlace controller capacity).run borrowed =
      borrowed.settle (prepareRewrite controller borrowed.counters.working borrowed.lease
        capacity) := by
  unfold prepareRewriteInPlace prepareRewrite
  rw [run_get_bind, run_writeLease_bind, run_get_bind]
  dsimp only
  rw [run_settled_tryCatch_bind (run_updateWorkingInPlace controller _ _ _ _ _)]
  cases updateWorking controller borrowed.counters.working _ _ _ _ _ with
  | error error => rfl
  | ok moved => rfl

/-- The mark of a compact workspace that a refused call has written is put back. -/
theorem run_retainCompactWorkspaceInPlace (borrowed : Borrowed) :
    (retainCompactWorkspaceInPlace controller).run borrowed =
      borrowed.settle (retainCompactWorkspace controller borrowed.counters.working
        borrowed.lease) := by
  unfold retainCompactWorkspaceInPlace retainCompactWorkspace
  split_ifs
  · rw [run_get_bind, run_writeLease_bind, run_get_bind]
    dsimp only
    rw [run_settled_tryCatch_bind (run_updateWorkingInPlace controller _ _ _ _ _)]
    cases updateWorking controller borrowed.counters.working _ _ _ _ _ with
    | error error => rfl
    | ok moved => rfl
  · rfl

theorem run_tryReserveInPlace (additionalBytes : ℕ) (borrowed : Borrowed) :
    (tryReserveInPlace controller additionalBytes).run borrowed =
      match tryReserve controller borrowed.counters.activeBytes borrowed.lease additionalBytes with
      | .ok (next, lease) => (.ok (), ⟨{ borrowed.counters with activeBytes := next }, lease⟩)
      | .error error => (.error error, borrowed) := by
  unfold tryReserveInPlace tryReserve
  split_ifs
  · rfl
  · rw [run_get_bind]
    cases incrementBounded borrowed.counters.activeBytes additionalBytes
      controller.maxBytes.val with
    | none => rfl
    | some next => rfl

end Calls

/-! ### Failed calls -/

inductive LeaseOperation
  | tryReserve (additionalBytes : ℕ)
  | prepareBuffer (length capacity : ℕ)
  | beginProcessing
  | prepareRewrite (capacity : ℕ)
  | retainCompactWorkspace

def LeaseOperation.call (controller : BodyAdmissionController) : LeaseOperation → LeaseCall Unit
  | .tryReserve additionalBytes => tryReserveInPlace controller additionalBytes
  | .prepareBuffer length capacity => prepareBufferInPlace controller length capacity
  | .beginProcessing => beginProcessingInPlace controller
  | .prepareRewrite capacity => prepareRewriteInPlace controller capacity
  | .retainCompactWorkspace => retainCompactWorkspaceInPlace controller

def State.counters (state : State) : Counters :=
  ⟨state.activeRequests, state.activeBytes, state.working⟩

section Failure

variable {controller : BodyAdmissionController}

theorem Borrowed.settle_error {borrowed written : Borrowed}
    {result : Except GatewayError (WorkingSet × Lease)} {error : GatewayError}
    (hfailed : borrowed.settle result = (.error error, written)) : written = borrowed := by
  cases result with
  | error other => exact (Prod.mk.inj hfailed).2.symm
  | ok moved => exact nomatch (Prod.mk.inj hfailed).1

/-- A failed call leaves the counters and the lease as they were. -/
theorem run_call_error {operation : LeaseOperation} {borrowed written : Borrowed}
    {error : GatewayError}
    (hfailed : (operation.call controller).run borrowed = (.error error, written)) :
    written = borrowed := by
  cases operation with
  | tryReserve additionalBytes =>
    change (tryReserveInPlace controller additionalBytes).run borrowed = _ at hfailed
    rw [run_tryReserveInPlace] at hfailed
    split at hfailed
    · exact nomatch (Prod.mk.inj hfailed).1
    · exact (Prod.mk.inj hfailed).2.symm
  | prepareBuffer length capacity =>
    exact Borrowed.settle_error ((run_prepareBufferInPlace controller _ _ _).symm.trans hfailed)
  | beginProcessing =>
    exact Borrowed.settle_error ((run_beginProcessingInPlace controller _).symm.trans hfailed)
  | prepareRewrite capacity =>
    exact Borrowed.settle_error ((run_prepareRewriteInPlace controller _ _).symm.trans hfailed)
  | retainCompactWorkspace =>
    exact Borrowed.settle_error
      ((run_retainCompactWorkspaceInPlace controller _).symm.trans hfailed)

/-- A slot that has been counted is in range. -/
theorem incrementBounded_eq_some {counter amount maximum next : ℕ} :
    incrementBounded counter amount maximum = some next ↔
      counter + amount = next ∧ next < 2 ^ 64 ∧ next ≤ maximum := by
  simp only [incrementBounded, Option.bind_eq_bind, Option.bind_eq_some_iff, checkedAdd_eq_some,
    Option.ite_none_left_eq_some, Option.some.injEq, not_lt]
  constructor
  · rintro ⟨_, ⟨hsum, hlt⟩, hle, rfl⟩
    exact ⟨hsum, hlt, hle⟩
  · rintro ⟨hsum, hlt, hle⟩
    exact ⟨next, ⟨hsum, hlt⟩, hle, rfl⟩

/-- A lease without bytes and without a charge returns nothing but its slot. -/
theorem dropLease_of_empty {counters : Counters} {lease : Lease}
    (hworking : lease.workingBytes = 0) (hreserved : lease.reservedBytes = 0) :
    dropLease ⟨counters, lease⟩ =
      { counters with activeRequests := wrappingSub 64 counters.activeRequests 1 } := by
  unfold dropLease returnBytes returnWorking
  rw [hworking, hreserved]
  rfl

/-- A failed `try_acquire_sized` leaves the counters as they were. -/
theorem tryAcquireSized_error {expectedLength : Option ℕ} {counters written : Counters}
    {error : GatewayError}
    (hfailed : tryAcquireSized controller expectedLength counters = (.error error, written)) :
    written = counters := by
  unfold tryAcquireSized at hfailed
  split at hfailed
  · exact (Prod.mk.inj hfailed).2.symm
  · rename_i next hnext
    split at hfailed
    · exact nomatch (Prod.mk.inj hfailed).1
    · rename_i error' borrowed hbuffer
      rw [run_prepareBufferInPlace] at hbuffer
      obtain rfl := Borrowed.settle_error hbuffer
      rw [← (Prod.mk.inj hfailed).2, dropLease_of_empty rfl rfl]
      obtain ⟨rfl, hlt, -⟩ := incrementBounded_eq_some.mp hnext
      dsimp only
      rw [wrappingSub_of_le (Nat.le_add_left 1 _) hlt, Nat.add_sub_cancel]

/-! ### A failed admission among other requests -/

/-- A lease without bytes and without a charge. -/
def Lease.Empty (lease : Lease) : Prop :=
  lease.workingBytes = 0 ∧ lease.reservedBytes = 0

/-- A request that takes its slot and is then refused its first charge, while others take steps: it
has counted one slot, and its lease is empty. -/
theorem refused_start {state taken refused : State} {leaseId : ℕ} {expectedLength : Option ℕ}
    {others : List Action}
    (hacquire : perform controller state (.acquire leaseId expectedLength) = (.done, taken))
    (hothers : ∀ action ∈ others, action.leaseId ≠ leaseId)
    (hstart : perform controller (run (step controller) taken others) (.start leaseId) =
      (.overloaded, refused)) :
    taken.counters = { state.counters with activeRequests := state.activeRequests + 1 } ∧
      refused.counters = (run (step controller) taken others).counters ∧
      ∃ lease, refused.leases.lookup leaseId = some lease ∧ lease.phase = .failed ∧
        lease.Empty := by
  have htaken : taken = ⟨state.activeRequests + 1, state.activeBytes, state.working,
      state.leases.insert leaseId (Lease.new controller expectedLength)⟩ := by
    simp only [perform] at hacquire
    split_ifs at hacquire
    · cases (Prod.mk.inj hacquire).1
    · split at hacquire
      · cases (Prod.mk.inj hacquire).1
      · rename_i next hnext
        rw [(incrementBounded_eq_some.mp hnext).1]
        exact (Prod.mk.inj hacquire).2.symm
  have hlookup : (run (step controller) taken others).leases.lookup leaseId =
      some (Lease.new controller expectedLength) := by
    rw [lookup_run_of_ne hothers, htaken]
    exact AList.lookup_insert _
  refine ⟨congrArg State.counters htaken, ?_⟩
  simp only [perform] at hstart
  rw [withLease_of_lookup hlookup rfl] at hstart
  unfold State.commit at hstart
  split at hstart
  · cases (Prod.mk.inj hstart).1
  · rw [← (Prod.mk.inj hstart).2]
    exact ⟨rfl, _, AList.lookup_insert _, rfl, rfl, rfl⟩

/-- The first two parts of the drop of an empty lease leave the counters. -/
theorem returnWorking_of_empty (controller : BodyAdmissionController) {state : State} {leaseId : ℕ}
    {lease : Lease}
    (hlookup : state.leases.lookup leaseId = some lease) (hphase : lease.phase = .failed)
    (hempty : lease.Empty) :
    (step controller state (.returnWorking leaseId)).counters = state.counters ∧
      (step controller state (.returnWorking leaseId)).leases.lookup leaseId =
        some { lease with phase := .workingReturned } := by
  have hstep : step controller state (.returnWorking leaseId) =
      { state with working := returnWorking state.working lease
                   leases := state.leases.insert leaseId
                    { lease with phase := .workingReturned } } := by
    change (State.withLease _ _ _ _).2 = _
    rw [withLease_of_lookup hlookup (by rw [hphase]; rfl)]
  rw [hstep]
  refine ⟨?_, AList.lookup_insert _⟩
  unfold State.counters returnWorking
  rw [hempty.1]
  rfl

theorem returnBytes_of_empty (controller : BodyAdmissionController) {state : State} {leaseId : ℕ}
    {lease : Lease}
    (hlookup : state.leases.lookup leaseId = some lease)
    (hphase : lease.phase = .workingReturned) (hempty : lease.Empty) :
    (step controller state (.returnBytes leaseId)).counters = state.counters ∧
      (step controller state (.returnBytes leaseId)).leases.lookup leaseId =
        some { lease with phase := .bytesReturned } := by
  have hstep : step controller state (.returnBytes leaseId) =
      { state with activeBytes := returnBytes state.activeBytes lease
                   leases := state.leases.insert leaseId
                    { lease with phase := .bytesReturned } } := by
    change (State.withLease _ _ _ _).2 = _
    rw [withLease_of_lookup hlookup (by rw [hphase]; rfl)]
  rw [hstep]
  refine ⟨?_, AList.lookup_insert _⟩
  unfold State.counters returnBytes
  rw [hempty.2]
  rfl

/-- The last part of a drop gives back one slot. -/
theorem returnSlot_counters {state : State} (hstate : Balanced controller state) {leaseId : ℕ}
    {lease : Lease} (hlookup : state.leases.lookup leaseId = some lease)
    (hphase : lease.phase = .bytesReturned) :
    { (step controller state (.returnSlot leaseId)).counters with
        activeRequests := (step controller state (.returnSlot leaseId)).activeRequests + 1 } =
      state.counters := by
  have hstep : step controller state (.returnSlot leaseId) =
      { state with activeRequests := wrappingSub 64 state.activeRequests 1
                   leases := state.leases.erase leaseId } := by
    change (State.withLease _ _ _ _).2 = _
    rw [withLease_of_lookup hlookup (by rw [hphase]; rfl)]
  have hslot := (held_le hstate hlookup).1
  have hlt := (counters_lt hstate).1
  rw [hstep, wrappingSub_of_le hslot hlt]
  change Counters.mk (state.activeRequests - 1 + 1) _ _ = _
  rw [Nat.sub_add_cancel hslot]
  rfl

end Failure

/-- For every reachable state: a call on a lease that fails leaves the counters and every field of
the lease as they were; so does a failed `try_acquire_sized` with the counters; and when others take
steps between the steps of a failed `try_acquire_sized`, its first step counts one slot, its last
gives one back, and those between leave the counters. -/
theorem failed_calls_undone (controller : BodyAdmissionController) (actions : List Action) :
    (∀ leaseId lease, (State.after controller actions).leases.lookup leaseId = some lease →
      ∀ (operation : LeaseOperation) (error : GatewayError) (written : Borrowed),
        (operation.call controller).run ⟨(State.after controller actions).counters, lease⟩ =
          (.error error, written) →
        written = ⟨(State.after controller actions).counters, lease⟩) ∧
    (∀ (expectedLength : Option ℕ) (error : GatewayError) (written : Counters),
      tryAcquireSized controller expectedLength (State.after controller actions).counters =
          (.error error, written) →
        written = (State.after controller actions).counters) ∧
    ∀ (leaseId : ℕ) (expectedLength : Option ℕ) (first second third fourth : List Action)
      (taken refused : State),
      (∀ others ∈ [first, second, third, fourth], ∀ action ∈ others, action.leaseId ≠ leaseId) →
      perform controller (State.after controller actions) (.acquire leaseId expectedLength) =
        (.done, taken) →
      perform controller (run (step controller) taken first) (.start leaseId) =
        (.overloaded, refused) →
      let dropping := run (step controller) refused second
      let unworked := step controller dropping (.returnWorking leaseId)
      let between := run (step controller) unworked third
      let emptied := step controller between (.returnBytes leaseId)
      let last := run (step controller) emptied fourth
      let dropped := step controller last (.returnSlot leaseId)
      taken.counters = { (State.after controller actions).counters with
          activeRequests := (State.after controller actions).activeRequests + 1 } ∧
        refused.counters = (run (step controller) taken first).counters ∧
        unworked.counters = dropping.counters ∧ emptied.counters = between.counters ∧
        { dropped.counters with activeRequests := dropped.activeRequests + 1 } = last.counters := by
  refine ⟨fun leaseId lease _ operation error written ↦ run_call_error,
    fun expectedLength error written ↦ tryAcquireSized_error, ?_⟩
  intro leaseId expectedLength first second third fourth taken refused hothers hacquire
    hstart dropping
    unworked between emptied last dropped
  obtain ⟨htaken, hrefused, lease, hlookup, hphase, hempty⟩ :=
    refused_start hacquire (hothers first (by simp)) hstart
  have hdropping : dropping.leases.lookup leaseId = some lease := by
    rw [lookup_run_of_ne (hothers second (by simp)), hlookup]
  obtain ⟨hunworked, hlookupWorking⟩ :=
    returnWorking_of_empty controller hdropping hphase hempty
  have hbetween : between.leases.lookup leaseId =
      some { lease with phase := .workingReturned } := by
    rw [lookup_run_of_ne (hothers third (by simp)), hlookupWorking]
  obtain ⟨hemptied, hlookupBytes⟩ :=
    returnBytes_of_empty controller hbetween rfl hempty
  have hlast : last.leases.lookup leaseId = some { lease with phase := .bytesReturned } := by
    rw [lookup_run_of_ne (hothers fourth (by simp)), hlookupBytes]
  have hbalanced : Balanced controller last := by
    apply run_invariant balanced_step
    apply balanced_step
    apply run_invariant balanced_step
    apply balanced_step
    apply run_invariant balanced_step
    apply balanced_of_perform _ hstart
    apply run_invariant balanced_step
    exact balanced_of_perform (balanced_after controller actions) hacquire
  exact ⟨htaken, hrefused, hunworked, hemptied, returnSlot_counters hbalanced hlast rfl⟩

/-- A small body is buffered. The output buffer that it asks for is refused, and the field that held
the new capacity meanwhile is put back. Another small body takes its slot and is refused its charge,
because the first has got a smaller output buffer in between; while it is dropped the first reserves
its bytes. -/
theorem failed_calls_undone_narrow :
    let state := State.after narrowController [.acquire 0 (some 262144), .start 0]
    let lease := (state.leases.lookup 0).getD (Lease.new narrowController none)
    let rewrite : Except GatewayError Unit × Borrowed :=
      ((LeaseOperation.prepareRewrite 1000000).call narrowController).run ⟨state.counters, lease⟩
    let taken := step narrowController state (.acquire 1 (some 262144))
    let rewritten := step narrowController taken (.prepareRewrite 0 262144)
    let refused := step narrowController rewritten (.start 1)
    let unworked := step narrowController refused (.returnWorking 1)
    let reserved := step narrowController unworked (.tryReserve 0 262144)
    let emptied := step narrowController reserved (.returnBytes 1)
    let dropped := step narrowController emptied (.returnSlot 1)
    rewrite = (.error .gatewayOverloaded, ⟨state.counters, lease⟩) ∧
      taken.counters = { state.counters with activeRequests := state.activeRequests + 1 } ∧
      refused.counters = rewritten.counters ∧ unworked.counters = refused.counters ∧
      emptied.counters = reserved.counters ∧
      { dropped.counters with activeRequests := dropped.activeRequests + 1 } =
        emptied.counters := by
  intro state lease rewrite taken rewritten refused unworked reserved emptied dropped
  obtain ⟨hcalls, -, hacquires⟩ :=
    failed_calls_undone narrowController [.acquire 0 (some 262144), .start 0]
  constructor
  · have hdenied : prepareRewrite narrowController state.working lease 1000000 =
        .error .gatewayOverloaded := by decide
    have hrun : rewrite = (.error .gatewayOverloaded, rewrite.2) := by
      refine Prod.fst_eq_iff.mp ?_
      change (((LeaseOperation.prepareRewrite 1000000).call narrowController).run _).1 = _
      rw [LeaseOperation.call, run_prepareRewriteInPlace]
      exact congrArg (fun result ↦ (Borrowed.settle ⟨state.counters, lease⟩ result).1) hdenied
    have hwritten := hcalls 0 lease (by decide) (.prepareRewrite 1000000) .gatewayOverloaded
      rewrite.2 hrun
    rw [hwritten] at hrun
    exact hrun
  · have hacquire : (perform narrowController state (.acquire 1 (some 262144))).1 = .done := by
      decide
    have hstart : (perform narrowController rewritten (.start 1)).1 = .overloaded := by decide
    exact hacquires 1 (some 262144) [.prepareRewrite 0 262144] [] [.tryReserve 0 262144] []
      taken refused (by decide) (Prod.fst_eq_iff.mp hacquire) (Prod.fst_eq_iff.mp hstart)

end Relayna.BodyAdmission

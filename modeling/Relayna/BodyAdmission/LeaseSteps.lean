import Relayna.BodyAdmission.SmallReserve

/-!
# What a step makes of a lease

`LeaseStep` lists what the steps of the controller can make of the lease that takes them, and
`lookup_step` says that they make nothing else: a lease that is live after a step is new, has taken
the step, or is as it was. A property of single leases that every `LeaseStep` keeps holds of every
live lease in every reachable state (`forallLease_after`), and the steps of others leave a lease
alone (`lookup_run_of_ne`).
-/

set_option autoImplicit false
set_option relaxedAutoImplicit false

namespace Relayna.BodyAdmission

open Library.Transition

/-- What one step can make of a lease. -/
inductive LeaseStep (controller : BodyAdmissionController) (lease : Lease) : Lease → Prop
  | started {working working' : WorkingSet} {moved : Lease} (hphase : lease.phase = .starting)
      (hok : prepareBuffer controller working lease 0 0 = .ok (working', moved)) :
      LeaseStep controller lease { moved with phase := .held }
  | notStarted (hphase : lease.phase = .starting) :
      LeaseStep controller lease { lease with phase := .failed }
  | reserved {activeBytes additionalBytes next : ℕ} {moved : Lease} (hphase : lease.phase = .held)
      (hok : tryReserve controller activeBytes lease additionalBytes = .ok (next, moved)) :
      LeaseStep controller lease moved
  | buffered {working working' : WorkingSet} {moved : Lease} {length capacity : ℕ}
      (hphase : lease.phase = .held)
      (hok : prepareBuffer controller working lease length capacity = .ok (working', moved)) :
      LeaseStep controller lease moved
  | rewriting {working working' : WorkingSet} {moved : Lease} {capacity : ℕ}
      (hphase : lease.phase = .held)
      (hok : prepareRewrite controller working lease capacity = .ok (working', moved)) :
      LeaseStep controller lease moved
  | processing {working working' : WorkingSet} {moved : Lease} (hphase : lease.phase = .held)
      (hok : beginProcessing controller working lease = .ok (working', moved)) :
      LeaseStep controller lease moved
  | compacted {working working' : WorkingSet} {moved : Lease} (hphase : lease.phase = .held)
      (hok : retainCompactWorkspace controller working lease = .ok (working', moved)) :
      LeaseStep controller lease moved
  | bound {activeBytes additionalBytes next length : ℕ} {moved : Lease}
      (hphase : lease.phase = .held)
      (hok : tryReserve controller activeBytes lease additionalBytes = .ok (next, moved)) :
      LeaseStep controller lease { moved with phase := .converting length }
  | notBound (hphase : lease.phase = .held) :
      LeaseStep controller lease { lease with phase := .failed }
  | forwarded {working working' : WorkingSet} {moved : Lease} {length : ℕ}
      (hphase : lease.phase = .converting length)
      (hok : chargeForwarded controller working lease length = .ok (working', moved)) :
      LeaseStep controller lease { moved with phase := .forwarded }
  | notForwarded {length : ℕ} (hphase : lease.phase = .converting length) :
      LeaseStep controller lease { lease.stripped with phase := .failed }
  | workingReturned : LeaseStep controller lease { lease with phase := .workingReturned }
  | bytesReturned : LeaseStep controller lease { lease with phase := .bytesReturned }

section Steps

variable {controller : BodyAdmissionController} {state : State}

/-- Where a lease that is live after a step comes from. -/
inductive Origin (controller : BodyAdmissionController) (state : State) (action : Action)
    (leaseId : ℕ) (lease' : Lease) : Prop
  | kept (hlookup : state.leases.lookup leaseId = some lease')
  | acquired (hown : action.leaseId = leaseId) {expectedLength : Option ℕ}
      (hnew : lease' = Lease.new controller expectedLength)
  | taken (hown : action.leaseId = leaseId) {lease : Lease}
      (hlookup : state.leases.lookup leaseId = some lease)
      (hstep : LeaseStep controller lease lease')

/-- Inserting what a step has made of a lease leaves every lease with an origin. -/
theorem origin_insert (action : Action) {other : ℕ} {lease moved lease' : Lease}
    (hlookup : state.leases.lookup action.leaseId = some lease)
    (hother : (state.leases.insert action.leaseId moved).lookup other = some lease')
    (hmoved : moved = lease ∨ LeaseStep controller lease moved) :
    Origin controller state action other lease' := by
  rcases Library.Table.lookup_insert_cases hother with ⟨rfl, rfl⟩ | ⟨-, hkept⟩
  · rcases hmoved with rfl | hstep
    · exact .kept hlookup
    · exact .taken rfl hlookup hstep
  · exact .kept hkept

/-- Recording a change of the working set leaves every lease with an origin. -/
theorem origin_commit (action : Action) {other : ℕ} {lease lease' : Lease}
    (hlookup : state.leases.lookup action.leaseId = some lease) {done failed : Lease → Lease}
    {result : Except GatewayError (WorkingSet × Lease)}
    (hother : (state.commit action.leaseId result done failed lease).2.leases.lookup other =
      some lease')
    (hdone : ∀ working moved, result = .ok (working, moved) →
      LeaseStep controller lease (done moved))
    (hfailed : failed lease = lease ∨ LeaseStep controller lease (failed lease)) :
    Origin controller state action other lease' := by
  unfold State.commit at hother
  split at hother
  · exact origin_insert action hlookup hother (.inr (hdone _ _ rfl))
  · exact origin_insert action hlookup hother hfailed

/-- A step of a lease leaves every lease with an origin when its operation does. -/
theorem origin_withLease (action : Action) {enabled : Phase → Bool}
    {operation : Lease → Outcome × State} {other : ℕ} {lease' : Lease}
    (hother : (state.withLease action.leaseId enabled operation).2.leases.lookup other =
      some lease')
    (hoperation : ∀ lease, state.leases.lookup action.leaseId = some lease →
      enabled lease.phase = true → (operation lease).2.leases.lookup other = some lease' →
        Origin controller state action other lease') :
    Origin controller state action other lease' := by
  rcases withLease_cases state action.leaseId enabled operation with
    hsame | ⟨lease, hlookup, henabled, hstep⟩
  · rw [hsame] at hother
    exact .kept hother
  · rw [hstep] at hother
    exact hoperation lease hlookup henabled hother

/-- A lease that is live after a step is new, has taken the step, or is as it was. -/
theorem lookup_step {action : Action} {leaseId : ℕ} {lease' : Lease}
    (hother : (step controller state action).leases.lookup leaseId = some lease') :
    Origin controller state action leaseId lease' := by
  unfold step at hother
  cases action with
  | acquire own expectedLength =>
    simp only [perform] at hother
    split_ifs at hother with hmem
    · exact .kept hother
    · split at hother
      · exact .kept hother
      · rcases Library.Table.lookup_insert_cases hother with ⟨hsame, hnew⟩ | ⟨-, hkept⟩
        · exact .acquired hsame.symm hnew
        · exact .kept hkept
  | start own =>
    refine origin_withLease (.start own) hother fun lease hlookup henabled hcommit ↦ ?_
    exact origin_commit (.start own) hlookup hcommit
      (fun _ _ hok ↦ .started (of_decide_eq_true henabled) hok)
      (.inr (.notStarted (of_decide_eq_true henabled)))
  | tryReserve own additionalBytes =>
    refine origin_withLease (.tryReserve own additionalBytes) hother
      fun lease hlookup henabled hreserved ↦ ?_
    split at hreserved
    · exact .kept hreserved
    · rename_i next moved hok
      exact origin_insert (.tryReserve own additionalBytes) hlookup hreserved
        (.inr (.reserved (of_decide_eq_true henabled) hok))
  | prepareBuffer own length capacity =>
    refine origin_withLease (.prepareBuffer own length capacity) hother
      fun lease hlookup henabled hcommit ↦ ?_
    exact origin_commit (.prepareBuffer own length capacity) hlookup hcommit
      (fun _ _ hok ↦ .buffered (of_decide_eq_true henabled) hok) (.inl rfl)
  | prepareRewrite own capacity =>
    refine origin_withLease (.prepareRewrite own capacity) hother
      fun lease hlookup henabled hcommit ↦ ?_
    exact origin_commit (.prepareRewrite own capacity) hlookup hcommit
      (fun _ _ hok ↦ .rewriting (of_decide_eq_true henabled) hok) (.inl rfl)
  | beginProcessing own =>
    refine origin_withLease (.beginProcessing own) hother fun lease hlookup henabled hcommit ↦ ?_
    exact origin_commit (.beginProcessing own) hlookup hcommit
      (fun _ _ hok ↦ .processing (of_decide_eq_true henabled) hok) (.inl rfl)
  | retainCompactWorkspace own =>
    refine origin_withLease (.retainCompactWorkspace own) hother
      fun lease hlookup henabled hcommit ↦ ?_
    exact origin_commit (.retainCompactWorkspace own) hlookup hcommit
      (fun _ _ hok ↦ .compacted (of_decide_eq_true henabled) hok) (.inl rfl)
  | intoBytes own length =>
    refine origin_withLease (.intoBytes own length) hother
      fun lease hlookup henabled hreserved ↦ ?_
    split at hreserved
    · exact origin_insert (.intoBytes own length) hlookup hreserved
        (.inr (.notBound (of_decide_eq_true henabled)))
    · rename_i next moved hok
      exact origin_insert (.intoBytes own length) hlookup hreserved
        (.inr (.bound (of_decide_eq_true henabled) hok))
  | convert own =>
    refine origin_withLease (.convert own) hother fun lease hlookup _ hcommit ↦ ?_
    split at hcommit
    · rename_i length hphase
      exact origin_commit (.convert own) hlookup hcommit (fun _ _ hok ↦ .forwarded hphase hok)
        (.inr (.notForwarded hphase))
    · exact .kept hcommit
  | returnWorking own =>
    refine origin_withLease (.returnWorking own) hother fun lease hlookup _ hreturned ↦ ?_
    exact origin_insert (.returnWorking own) hlookup hreturned (.inr .workingReturned)
  | returnBytes own =>
    refine origin_withLease (.returnBytes own) hother fun lease hlookup _ hreturned ↦ ?_
    exact origin_insert (.returnBytes own) hlookup hreturned (.inr .bytesReturned)
  | returnSlot own =>
    refine origin_withLease (.returnSlot own) hother fun lease hlookup _ hreturned ↦ ?_
    change (state.leases.erase own).lookup leaseId = some lease' at hreturned
    by_cases hsame : leaseId = own
    · rw [hsame, AList.lookup_erase] at hreturned
      cases hreturned
    · rw [AList.lookup_erase_ne hsame] at hreturned
      exact .kept hreturned

/-- Every live lease has a property. -/
def State.ForallLease (property : Lease → Prop) (state : State) : Prop :=
  ∀ leaseId lease, state.leases.lookup leaseId = some lease → property lease

/-- A property of new leases that every step keeps holds of every live lease in every reachable
state.
-/
theorem forallLease_after {property : Lease → Prop}
    (hnew : ∀ expectedLength, property (Lease.new controller expectedLength))
    (hstep : ∀ lease lease', property lease → LeaseStep controller lease lease' → property lease')
    (actions : List Action) : (State.after controller actions).ForallLease property := by
  refine run_invariant (fun state action hstate leaseId lease' hother ↦ ?_) actions State.initial
    fun leaseId lease hnone ↦ ?_
  · cases lookup_step hother with
    | kept hlookup => exact hstate leaseId lease' hlookup
    | acquired _ hnew' =>
      rw [hnew']
      exact hnew _
    | taken _ hlookup htaken => exact hstep _ lease' (hstate leaseId _ hlookup) htaken
  · exact absurd hnone (by simp [State.initial])

/-! ### The steps of others -/

/-- A step changes the leases at its own place only. -/
inductive TableStep (state : State) (leaseId : ℕ) (leases : AList fun _ : ℕ ↦ Lease) : Prop
  | same (hleases : leases = state.leases)
  | inserted {lease : Lease} (hleases : leases = state.leases.insert leaseId lease)
  | erased (hleases : leases = state.leases.erase leaseId)

theorem tableStep_withLease {leaseId : ℕ} {enabled : Phase → Bool}
    {operation : Lease → Outcome × State}
    (hoperation : ∀ lease, TableStep state leaseId (operation lease).2.leases) :
    TableStep state leaseId (state.withLease leaseId enabled operation).2.leases := by
  rcases withLease_cases state leaseId enabled operation with hsame | ⟨lease, -, -, hstep⟩
  · rw [hsame]
    exact .same rfl
  · rw [hstep]
    exact hoperation lease

theorem tableStep_commit (leaseId : ℕ) (result : Except GatewayError (WorkingSet × Lease))
    (done failed : Lease → Lease) (lease : Lease) :
    TableStep state leaseId (state.commit leaseId result done failed lease).2.leases := by
  cases result with
  | ok moved => exact .inserted rfl
  | error error => exact .inserted rfl

theorem tableStep_step (controller : BodyAdmissionController) (state : State) (action : Action) :
    TableStep state action.leaseId (step controller state action).leases := by
  unfold step
  cases action with
  | acquire leaseId expectedLength =>
    simp only [perform]
    split_ifs
    · exact .same rfl
    · split
      · exact .same rfl
      · exact .inserted rfl
  | start leaseId => exact tableStep_withLease fun lease ↦ tableStep_commit _ _ _ _ lease
  | tryReserve leaseId additionalBytes =>
    refine tableStep_withLease fun lease ↦ ?_
    split
    · exact .same rfl
    · exact .inserted rfl
  | prepareBuffer leaseId length capacity =>
    exact tableStep_withLease fun lease ↦ tableStep_commit _ _ _ _ lease
  | prepareRewrite leaseId capacity =>
    exact tableStep_withLease fun lease ↦ tableStep_commit _ _ _ _ lease
  | beginProcessing leaseId =>
    exact tableStep_withLease fun lease ↦ tableStep_commit _ _ _ _ lease
  | retainCompactWorkspace leaseId =>
    exact tableStep_withLease fun lease ↦ tableStep_commit _ _ _ _ lease
  | intoBytes leaseId length =>
    refine tableStep_withLease fun lease ↦ ?_
    split
    · exact .inserted rfl
    · exact .inserted rfl
  | convert leaseId =>
    refine tableStep_withLease fun lease ↦ ?_
    split
    · exact tableStep_commit _ _ _ _ lease
    · exact .same rfl
  | returnWorking leaseId => exact tableStep_withLease fun lease ↦ .inserted rfl
  | returnBytes leaseId => exact tableStep_withLease fun lease ↦ .inserted rfl
  | returnSlot leaseId => exact tableStep_withLease fun lease ↦ .erased rfl

/-- The steps of others leave a lease alone. -/
theorem lookup_run_of_ne {leaseId : ℕ} {others : List Action}
    (hothers : ∀ action ∈ others, action.leaseId ≠ leaseId) :
    (run (step controller) state others).leases.lookup leaseId = state.leases.lookup leaseId := by
  induction others generalizing state with
  | nil => rfl
  | cons action rest ih =>
    have hne : leaseId ≠ action.leaseId := (hothers action List.mem_cons_self).symm
    have hrest : ∀ other ∈ rest, other.leaseId ≠ leaseId := fun other hother ↦
      hothers other (List.mem_cons_of_mem action hother)
    change (run (step controller) (step controller state action) rest).leases.lookup leaseId = _
    rw [ih hrest]
    cases tableStep_step controller state action with
    | same hleases => rw [hleases]
    | inserted hleases => rw [hleases, AList.lookup_insert_ne hne]
    | erased hleases => rw [hleases, AList.lookup_erase_ne hne]

/-- A lease in a phase that allows a step takes it. -/
theorem withLease_of_lookup {state : State} {leaseId : ℕ} {lease : Lease}
    (hlookup : state.leases.lookup leaseId = some lease) {enabled : Phase → Bool}
    (henabled : enabled lease.phase = true) (operation : Lease → Outcome × State) :
    state.withLease leaseId enabled operation = operation lease := by
  rw [State.withLease, hlookup]
  exact if_pos henabled

theorem balanced_of_perform {state next : State} {action : Action} {outcome : Outcome}
    (hstate : Balanced controller state)
    (hperform : perform controller state action = (outcome, next)) : Balanced controller next := by
  have hnext := balanced_step state action hstate
  rwa [step, hperform] at hnext

end Steps

end Relayna.BodyAdmission

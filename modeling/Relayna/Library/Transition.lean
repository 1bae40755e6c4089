import Mathlib.Data.List.Basic

/-!
# Transition systems driven by lists of actions

A component is a state, a type of actions and a total step function: an action that is not enabled
leaves the state unchanged. A run is a finite list of actions, so a statement about every list of
actions is a statement about every interleaving of the parties that choose them.

`run_invariant` is the invariant rule: what every step preserves holds after every run. A property
that needs an assumption on the steps (an input is in range, a reply is not lost) uses the guarded
rule `run_guarded_invariant`: `Guarded` says that the assumption holds at the state in which each
action of the run is taken. `run_simulation` relates two systems that take the same actions.
-/

set_option autoImplicit false
set_option relaxedAutoImplicit false

namespace Relayna.Library.Transition

variable {State Action : Type*}

/-- The state after a list of actions, applied from left to right. -/
def run (step : State → Action → State) (start : State) (actions : List Action) : State :=
  actions.foldl step start

@[simp] theorem run_nil (step : State → Action → State) (start : State) :
    run step start [] = start :=
  rfl

@[simp] theorem run_cons (step : State → Action → State) (start : State) (action : Action)
    (actions : List Action) :
    run step start (action :: actions) = run step (step start action) actions :=
  rfl

theorem run_append (step : State → Action → State) (start : State) (first second : List Action) :
    run step start (first ++ second) = run step (run step start first) second :=
  List.foldl_append

/-- The guard holds at the state in which each action of the run is taken. -/
def Guarded (step : State → Action → State) (guard : State → Action → Prop) :
    State → List Action → Prop
  | _, [] => True
  | state, action :: actions => guard state action ∧ Guarded step guard (step state action) actions

/-- A guard that can be decided gives guarded runs that can be decided. -/
instance Guarded.instDecidable (step : State → Action → State) (guard : State → Action → Prop)
    [∀ state action, Decidable (guard state action)] :
    ∀ state actions, Decidable (Guarded step guard state actions)
  | _, [] => isTrue trivial
  | state, action :: actions =>
    have := Guarded.instDecidable step guard (step state action) actions
    inferInstanceAs (Decidable (_ ∧ _))

/-- Assumes: a property kept by every step whose guard holds. A guarded run keeps it. -/
theorem run_guarded_invariant {step : State → Action → State} {guard : State → Action → Prop}
    {invariant : State → Prop}
    (hstep : ∀ state action, guard state action → invariant state → invariant (step state action))
    (actions : List Action) :
    ∀ state, Guarded step guard state actions → invariant state →
      invariant (run step state actions) := by
  induction actions with
  | nil => intro state _ hstate; exact hstate
  | cons action rest ih =>
    intro state hguard hstate
    exact ih _ hguard.2 (hstep state action hguard.1 hstate)

/-- Assumes: a guard that every action of a run meets at every state. The run is guarded. -/
theorem guarded_of_forall {step : State → Action → State} {guard : State → Action → Prop}
    (actions : List Action) (hguard : ∀ action ∈ actions, ∀ state, guard state action) :
    ∀ state, Guarded step guard state actions := by
  induction actions with
  | nil => intro state; trivial
  | cons action rest ih =>
    intro state
    refine ⟨hguard action List.mem_cons_self state, ih ?_ _⟩
    intro other hother
    exact hguard other (List.mem_cons_of_mem action hother)

/-- A run with the trivial guard is guarded. -/
theorem guarded_true (step : State → Action → State) (actions : List Action) :
    ∀ state, Guarded step (fun _ _ ↦ True) state actions :=
  guarded_of_forall actions fun _ _ _ ↦ trivial

/-- Assumes: a property kept by every step. Every run keeps it. -/
theorem run_invariant {step : State → Action → State} {invariant : State → Prop}
    (hstep : ∀ state action, invariant state → invariant (step state action))
    (actions : List Action) (state : State) (hstate : invariant state) :
    invariant (run step state actions) :=
  run_guarded_invariant (fun state action _ ↦ hstep state action) actions state
    (guarded_true step actions state) hstate

/-- Assumes: a relation between the states of two systems that taking the same action keeps. Taking
the same actions keeps it. -/
theorem run_simulation {Other : Type*} {step : State → Action → State}
    {step' : Other → Action → Other} {related : State → Other → Prop}
    (hstep : ∀ state other action, related state other →
      related (step state action) (step' other action))
    (actions : List Action) :
    ∀ state other, related state other →
      related (run step state actions) (run step' other actions) := by
  induction actions with
  | nil => intro state other hrelated; exact hrelated
  | cons action rest ih =>
    intro state other hrelated
    exact ih _ _ (hstep state other action hrelated)

/-- Assumes: an invariant that every allowed action keeps, and a guard that says, where the
invariant and a property hold, whether an allowed action keeps the property. Along a run of allowed
actions the property holds at every state exactly when the run is guarded. -/
theorem forall_prefix_iff_guarded {step : State → Action → State}
    {guard : State → Action → Prop} {allowed : Action → Prop} {invariant property : State → Prop}
    (hinvariant : ∀ state action, allowed action → invariant state →
      invariant (step state action))
    (hguard : ∀ state action, allowed action → invariant state → property state →
      (property (step state action) ↔ guard state action))
    (actions : List Action) :
    ∀ state, invariant state → property state → (∀ action ∈ actions, allowed action) →
      ((∀ before after, actions = before ++ after → property (run step state before)) ↔
        Guarded step guard state actions) := by
  induction actions with
  | nil =>
    intro state _ hproperty _
    refine iff_of_true (fun before after hnil ↦ ?_) trivial
    obtain ⟨rfl, rfl⟩ := List.append_eq_nil_iff.mp hnil.symm
    exact hproperty
  | cons action rest ih =>
    intro state hstate hproperty hallowed
    have haction := hallowed action List.mem_cons_self
    have hrest := ih (step state action) (hinvariant state action haction hstate)
    have hkeeps := hguard state action haction hstate hproperty
    have hlater : ∀ later ∈ rest, allowed later := fun later hlater ↦
      hallowed later (List.mem_cons_of_mem action hlater)
    constructor
    · intro hprefixes
      have hnext : property (step state action) := hprefixes [action] rest rfl
      refine ⟨hkeeps.mp hnext, (hrest hnext hlater).mp fun before after hsplit ↦ ?_⟩
      exact hprefixes (action :: before) after (congrArg (action :: ·) hsplit)
    · rintro ⟨hfirst, hguarded⟩ before after hsplit
      have hnext := hkeeps.mpr hfirst
      rcases before with _ | ⟨first, before⟩
      · exact hproperty
      · obtain ⟨rfl, hbehind⟩ := List.cons.inj hsplit
        exact (hrest hnext hlater).mpr hguarded before after hbehind

end Relayna.Library.Transition

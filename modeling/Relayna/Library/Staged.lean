/-!
# Computations in stages that may end early

A computation in `Except` runs through stages, and each stage may end the whole. `bind_eq_ok` and
`bind_eq_error` invert a sequence: it arrives when every stage does, and it ends at the first stage
that ends. `EndsOnly allowed` says in which ways a stage may end; a sequence ends only in the ways
its stages do, so the stages that could have ended it in some way are found by name.
-/

set_option autoImplicit false
set_option relaxedAutoImplicit false

namespace Relayna.Library.Staged

variable {Failure Value Result : Type}

theorem bind_eq_ok {stage : Except Failure Value} {rest : Value → Except Failure Result}
    {result : Result} :
    (stage >>= rest) = .ok result ↔ ∃ value, stage = .ok value ∧ rest value = .ok result := by
  cases stage <;> simp [bind, Except.bind]

theorem bind_eq_error {stage : Except Failure Value} {rest : Value → Except Failure Result}
    {failure : Failure} :
    (stage >>= rest) = .error failure ↔
      stage = .error failure ∨ ∃ value, stage = .ok value ∧ rest value = .error failure := by
  cases stage <;> simp [bind, Except.bind]

theorem map_eq_ok {stage : Except Failure Value} {change : Value → Result} {result : Result} :
    change <$> stage = .ok result ↔ ∃ value, stage = .ok value ∧ change value = result := by
  cases stage <;> simp [Functor.map, Except.map]

theorem pure_eq_ok {value result : Value} :
    (pure value : Except Failure Value) = .ok result ↔ value = result := by
  simp [pure, Except.pure]

/-- A stage that ends does so in an allowed way. -/
def EndsOnly (allowed : Failure → Prop) (stage : Except Failure Value) : Prop :=
  ∀ failure, stage = .error failure → allowed failure

section EndsOnly

variable {allowed : Failure → Prop}

theorem endsOnly_ok (value : Value) : EndsOnly allowed (.ok value : Except Failure Value) := by
  intro failure hfailure
  cases hfailure

theorem endsOnly_error {failure : Failure} (hallowed : allowed failure) :
    EndsOnly allowed (.error failure : Except Failure Value) := by
  intro found hfound
  obtain rfl := Except.error.inj hfound
  exact hallowed

theorem EndsOnly.bind {stage : Except Failure Value} {rest : Value → Except Failure Result}
    (hstage : EndsOnly allowed stage) (hrest : ∀ value, EndsOnly allowed (rest value)) :
    EndsOnly allowed (stage >>= rest) := by
  intro failure hfailure
  rcases bind_eq_error.mp hfailure with hended | ⟨value, -, hended⟩
  · exact hstage failure hended
  · exact hrest value failure hended

theorem EndsOnly.ite {condition : Prop} [Decidable condition] {stage other : Except Failure Value}
    (hstage : condition → EndsOnly allowed stage) (hother : ¬ condition → EndsOnly allowed other) :
    EndsOnly allowed (if condition then stage else other) := by
  split
  · exact hstage ‹_›
  · exact hother ‹_›

end EndsOnly

end Relayna.Library.Staged

import Mathlib.Init

/-!
# Computations whose writes stay when they fail

An attempt reads and writes a state and may fail. Its writes stay when it fails, so a caller that
catches the error goes on from them, and must undo what is not to remain.
-/

set_option autoImplicit false
set_option relaxedAutoImplicit false

namespace Relayna.Library.Attempt

/-- A computation with a state of type `State`, which it leaves also when it fails. -/
abbrev Attempting (State Error Result : Type) := ExceptT Error (StateM State) Result

section Run

variable {State Error First Result : Type} {attempt : Attempting State Error First}
  {state next : State}

theorem run_get_bind (rest : State → Attempting State Error Result) (state : State) :
    (get >>= rest : Attempting State Error Result).run state = (rest state).run state :=
  rfl

/-- What follows an attempt that succeeds works on what it has left. -/
theorem run_bind_of_ok {value : First} (hrun : attempt.run state = (.ok value, next))
    (rest : First → Attempting State Error Result) :
    (attempt >>= rest).run state = (rest value).run next := by
  change ExceptT.bindCont rest (attempt.run state).1 (attempt.run state).2 = _
  rw [hrun]
  rfl

/-- What follows an attempt that fails does not happen. -/
theorem run_bind_of_error {error : Error} (hrun : attempt.run state = (.error error, next))
    (rest : First → Attempting State Error Result) :
    (attempt >>= rest).run state = (.error error, next) := by
  change ExceptT.bindCont rest (attempt.run state).1 (attempt.run state).2 = _
  rw [hrun]
  rfl

theorem run_tryCatch_of_ok {value : First} (hrun : attempt.run state = (.ok value, next))
    (handler : Error → Attempting State Error First) :
    (tryCatch attempt handler).run state = (.ok value, next) := by
  simp only [tryCatch, tryCatchThe, MonadExceptOf.tryCatch, ExceptT.tryCatch, ExceptT.run_mk, bind,
    StateT.bind]
  rw [ExceptT.run] at hrun
  rw [hrun]
  rfl

/-- A handler works on what the attempt has left. -/
theorem run_tryCatch_of_error {error : Error} (hrun : attempt.run state = (.error error, next))
    (handler : Error → Attempting State Error First) :
    (tryCatch attempt handler).run state = (handler error).run next := by
  simp only [tryCatch, tryCatchThe, MonadExceptOf.tryCatch, ExceptT.tryCatch, ExceptT.run_mk, bind,
    StateT.bind]
  rw [ExceptT.run] at hrun
  rw [hrun]
  rfl

end Run

end Relayna.Library.Attempt

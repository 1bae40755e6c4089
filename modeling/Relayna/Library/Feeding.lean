import Mathlib.Data.List.Basic

/-!
# Consumers that are fed in chunks

A consumer takes the items of a stream one at a time and may stop with an error. What becomes of a
stream is an `Outcome`: the state, how many items were taken, and the error that stopped the
consumer.

`feedChunks_eq` is the rule for chunks: a consumer that treats a chunk like its items, one after the
other, has the same outcome however a stream is cut. `feed_invariant` is the rule for what holds
along the way.
-/

set_option autoImplicit false
set_option relaxedAutoImplicit false

namespace Relayna.Library.Feeding

variable {State Item Error : Type*}

/-- What became of a stream. The item at which an error was found is taken. -/
@[ext]
structure Outcome (State Error : Type*) where
  state : State
  taken : ℕ
  error : Option Error
  deriving DecidableEq

/-- An outcome after some more items. -/
def Outcome.after (outcome : Outcome State Error) (count : ℕ) : Outcome State Error :=
  { outcome with taken := outcome.taken + count }

/-- An outcome, and what comes after it unless it is an error. -/
def Outcome.andThen (outcome : Outcome State Error) (next : State → Outcome State Error) :
    Outcome State Error :=
  if outcome.error.isSome then outcome else (next outcome.state).after outcome.taken

/-- Feeding the items one after the other. -/
def feed (step : State → Item → State × Option Error) : State → List Item → Outcome State Error
  | state, [] => ⟨state, 0, none⟩
  | state, item :: items =>
    match step state item with
    | (next, some error) => ⟨next, 1, some error⟩
    | (next, none) => (feed step next items).after 1

/-- Feeding chunk after chunk, up to the first error. -/
def feedChunks (feedOne : State → List Item → Outcome State Error) :
    State → List (List Item) → Outcome State Error
  | state, [] => ⟨state, 0, none⟩
  | state, chunk :: chunks =>
    (feedOne state chunk).andThen fun next ↦ feedChunks feedOne next chunks

@[simp] theorem Outcome.after_state (outcome : Outcome State Error) (count : ℕ) :
    (outcome.after count).state = outcome.state :=
  rfl

@[simp] theorem Outcome.after_error (outcome : Outcome State Error) (count : ℕ) :
    (outcome.after count).error = outcome.error :=
  rfl

theorem Outcome.after_after (outcome : Outcome State Error) (first second : ℕ) :
    (outcome.after first).after second = outcome.after (first + second) := by
  ext1
  · rfl
  · exact Nat.add_assoc _ _ _
  · rfl

theorem Outcome.andThen_after (outcome : Outcome State Error) (count : ℕ)
    (next : State → Outcome State Error) :
    (outcome.after count).andThen next = (outcome.andThen next).after count := by
  unfold Outcome.andThen
  rw [Outcome.after_error]
  split_ifs
  · rfl
  · rw [Outcome.after_after]
    rfl

variable {step : State → Item → State × Option Error}

theorem feed_cons_of_none {state next : State} {item : Item} (items : List Item)
    (hstep : step state item = (next, none)) :
    feed step state (item :: items) = (feed step next items).after 1 := by
  rw [feed, hstep]

theorem feed_cons_of_some {state next : State} {item : Item} {error : Error} (items : List Item)
    (hstep : step state item = (next, some error)) :
    feed step state (item :: items) = ⟨next, 1, some error⟩ := by
  rw [feed, hstep]

/-- Feeding two parts of a stream. -/
theorem feed_append (state : State) (first second : List Item) :
    feed step state (first ++ second) =
      (feed step state first).andThen fun next ↦ feed step next second := by
  induction first generalizing state with
  | nil => rfl
  | cons item items ih =>
    rcases hstep : step state item with ⟨next, _ | error⟩
    · rw [List.cons_append, feed_cons_of_none _ hstep, feed_cons_of_none _ hstep, ih,
        Outcome.andThen_after]
    · rw [List.cons_append, feed_cons_of_some _ hstep, feed_cons_of_some _ hstep]
      rfl

/-- Assumes: a consumer that treats a chunk like its items. The outcome of a stream does not depend
on how it is cut. -/
theorem feedChunks_eq {feedOne : State → List Item → Outcome State Error}
    (hfeed : ∀ state chunk, feedOne state chunk = feed step state chunk) (state : State)
    (chunks : List (List Item)) :
    feedChunks feedOne state chunks = feed step state chunks.flatten := by
  induction chunks generalizing state with
  | nil => rfl
  | cons chunk chunks ih =>
    rw [feedChunks, List.flatten_cons, feed_append, hfeed]
    congr 1
    funext next
    exact ih next

/-- Assumes: a property that the steps without an error keep, and a weaker one that holds after
every step. The weaker one holds at the end of every stream. -/
theorem feed_invariant {invariant weaker : State → Prop}
    (hkeep : ∀ state item, invariant state → (step state item).2 = none →
      invariant (step state item).1)
    (hstep : ∀ state item, invariant state → weaker (step state item).1)
    (hweaker : ∀ state, invariant state → weaker state) {state : State} (hstate : invariant state)
    (items : List Item) : weaker (feed step state items).state := by
  induction items generalizing state with
  | nil => exact hweaker state hstate
  | cons item items ih =>
    have hnext := hkeep state item hstate
    have hafter := hstep state item hstate
    rcases heq : step state item with ⟨next, _ | error⟩
    · rw [heq] at hnext
      rw [feed_cons_of_none _ heq, Outcome.after_state]
      exact ih (hnext rfl)
    · rw [heq] at hafter
      rw [feed_cons_of_some _ heq]
      exact hafter

end Relayna.Library.Feeding

import Mathlib.Data.List.Basic

/-!
# A succession of holders

An office that has one holder at a time, seen through its history: someone begins, a holder is
replaced by another, a holder is observed in office, or the office is confirmed to be taken.
`Proper` says that every event fits the history before it, newest event first, and that nobody who
was in office comes back; holders are told apart by a key. A proper history is a linearization:
whoever is observed is the holder at that place, and after a replacement the old holder is never
observed again.
-/

set_option autoImplicit false
set_option relaxedAutoImplicit false

namespace Relayna.Library.Succession

variable {Holder Key : Type*}

/-- What happens to an office. -/
inductive Event (Holder : Type*)
  | began (holder : Holder)
  | replaced (old new : Holder)
  | observed (holder : Holder)
  | confirmed

/-- Who is in office after a history. -/
def holder : List (Event Holder) → Option Holder
  | [] => none
  | .began first :: _ => some first
  | .replaced _ new :: _ => some new
  | .observed _ :: older => holder older
  | .confirmed :: older => holder older

/-- Everyone who has been in office. -/
def issued : List (Event Holder) → List Holder
  | [] => []
  | .began first :: older => first :: issued older
  | .replaced _ new :: older => new :: issued older
  | .observed _ :: older => issued older
  | .confirmed :: older => issued older

/-- Every event fits the history before it. -/
def Proper (key : Holder → Key) : List (Event Holder) → Prop
  | [] => True
  | .began first :: older =>
    holder older = none ∧ key first ∉ (issued older).map key ∧ Proper key older
  | .replaced old new :: older =>
    holder older = some old ∧ key new ∉ (issued older).map key ∧ Proper key older
  | .observed seen :: older => holder older = some seen ∧ Proper key older
  | .confirmed :: older => (holder older).isSome ∧ Proper key older

theorem holder_mem_issued {current : Holder} {history : List (Event Holder)}
    (hcurrent : holder history = some current) : current ∈ issued history := by
  induction history with
  | nil => cases hcurrent
  | cons event older ih =>
    cases event with
    | began first =>
      obtain rfl := Option.some.inj hcurrent
      exact List.mem_cons_self
    | replaced old new =>
      obtain rfl := Option.some.inj hcurrent
      exact List.mem_cons_self
    | observed seen => exact ih hcurrent
    | confirmed => exact ih hcurrent

theorem Proper.of_append {key : Holder → Key} {older : List (Event Holder)}
    {newer : List (Event Holder)} (hproper : Proper key (newer ++ older)) : Proper key older := by
  induction newer with
  | nil => exact hproper
  | cons event newer ih =>
    cases event with
    | began first => exact ih hproper.2.2
    | replaced old new => exact ih hproper.2.2
    | observed seen => exact ih hproper.2
    | confirmed => exact ih hproper.2

/-- Whoever is observed was in office then. -/
theorem Proper.observed {key : Holder → Key} {newer older : List (Event Holder)} {seen : Holder}
    (hproper : Proper key (newer ++ .observed seen :: older)) : holder older = some seen :=
  hproper.of_append.1

/-- Once something has happened to an office, it is taken. -/
theorem Proper.holder_isSome {key : Holder → Key} {history : List (Event Holder)}
    (hproper : Proper key history) (hknown : history ≠ []) : (holder history).isSome := by
  cases history with
  | nil => exact absurd rfl hknown
  | cons event older =>
    cases event with
    | began first => rfl
    | replaced old new => rfl
    | observed seen => exact Option.isSome_of_mem hproper.1
    | confirmed => exact hproper.1

/-- After a replacement, nobody with the key of the old holder is in office. -/
theorem Proper.not_holder_of_replaced {key : Holder → Key} {newer older : List (Event Holder)}
    {old new : Holder} (hproper : Proper key (newer ++ .replaced old new :: older)) :
    key old ∈ (issued (newer ++ .replaced old new :: older)).map key ∧
      ∀ current, holder (newer ++ .replaced old new :: older) = some current →
        key current ≠ key old := by
  induction newer with
  | nil =>
    have hold : key old ∈ (issued older).map key :=
      List.mem_map_of_mem (holder_mem_issued hproper.1)
    constructor
    · exact List.mem_cons_of_mem _ hold
    · intro current hcurrent hsame
      obtain rfl := Option.some.inj hcurrent
      exact hproper.2.1 (hsame ▸ hold)
  | cons event newer ih =>
    cases event with
    | began first =>
      obtain ⟨hold, -⟩ := ih hproper.2.2
      constructor
      · exact List.mem_cons_of_mem _ hold
      · intro current hcurrent hsame
        obtain rfl := Option.some.inj hcurrent
        exact hproper.2.1 (hsame ▸ hold)
    | replaced earlier later =>
      obtain ⟨hold, -⟩ := ih hproper.2.2
      constructor
      · exact List.mem_cons_of_mem _ hold
      · intro current hcurrent hsame
        obtain rfl := Option.some.inj hcurrent
        exact hproper.2.1 (hsame ▸ hold)
    | observed seen => exact ih hproper.2
    | confirmed => exact ih hproper.2

/-- After a replacement, nobody with the key of the old holder is observed. -/
theorem Proper.not_observed_of_replaced {key : Holder → Key} {newer older : List (Event Holder)}
    {old new : Holder} (hproper : Proper key (newer ++ .replaced old new :: older)) {seen : Holder}
    (hseen : .observed seen ∈ newer) : key seen ≠ key old := by
  obtain ⟨later, earlier, rfl⟩ := List.append_of_mem hseen
  have hrest : Proper key (.observed seen :: (earlier ++ .replaced old new :: older)) := by
    have hsplit : later ++ .observed seen :: earlier ++ .replaced old new :: older =
        later ++ (.observed seen :: (earlier ++ .replaced old new :: older)) := by
      rw [List.append_assoc, List.cons_append]
    rw [hsplit] at hproper
    exact hproper.of_append
  exact hrest.2.not_holder_of_replaced.2 seen hrest.1

end Relayna.Library.Succession

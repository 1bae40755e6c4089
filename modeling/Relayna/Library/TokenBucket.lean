import Mathlib.Algebra.Order.Ring.Nat
import Mathlib.Data.Nat.Cast.Order.Ring
import Mathlib.Tactic.GCongr
import Mathlib.Tactic.Linarith
import Mathlib.Tactic.Ring

/-!
# Token buckets

A bucket holds tokens and the instant up to which it has been refilled. It is refilled at a constant
rate up to its burst, and a call passes when it can draw a whole token. A bucket that does not exist
yet is full.

`passed_le` is the rate bound: of the calls whose instants lie in a window, at most the burst and
what the window refills pass. `Agree` compares two buckets by what they hold from an instant on:
buckets that agree are drawn from alike (`Agree.draw_eq`), and a bucket that is full again agrees
with the absent one (`agree_none`), so dropping it cannot be observed.
-/

set_option autoImplicit false
set_option relaxedAutoImplicit false

namespace Relayna.Library.TokenBucket

/-- The tokens of a bucket, and the instant up to which it has been refilled. -/
structure Bucket (α : Type*) where
  tokens : α
  updated : ℕ
  deriving DecidableEq, Repr

variable {α : Type*} [Field α] [LinearOrder α]

/-- What a bucket holds at an instant: an absent bucket is full, and an instant before the last
refill adds nothing. -/
def level (burst rate : α) : Option (Bucket α) → ℕ → α
  | none, _ => burst
  | some bucket, now => min (bucket.tokens + ((now - bucket.updated : ℕ) : α) * rate) burst

/-- The bucket after a call, and whether the call passes. -/
def draw (burst rate : α) (bucket : Option (Bucket α)) (now : ℕ) : Bucket α × Bool :=
  if level burst rate bucket now < 1 then (⟨level burst rate bucket now, now⟩, false)
  else (⟨level burst rate bucket now - 1, now⟩, true)

/-- The bucket after a list of calls. -/
def after (burst rate : α) (bucket : Option (Bucket α)) (instants : List ℕ) : Option (Bucket α) :=
  instants.foldl (fun bucket now ↦ some (draw burst rate bucket now).1) bucket

/-- Which of a list of calls pass. -/
def decisions (burst rate : α) : Option (Bucket α) → List ℕ → List Bool
  | _, [] => []
  | bucket, now :: rest =>
    (draw burst rate bucket now).2 ::
      decisions burst rate (some (draw burst rate bucket now).1) rest

/-- How many of a list of calls pass at an instant with a property. -/
def passed (burst rate : α) (bucket : Option (Bucket α)) (within : ℕ → Bool)
    (instants : List ℕ) : ℕ :=
  (instants.zip (decisions burst rate bucket instants)).countP fun call ↦ call.2 && within call.1

variable {burst rate : α} {bucket other : Option (Bucket α)} {now : ℕ}

/-! ### One call -/

@[simp] theorem draw_updated : (draw burst rate bucket now).1.updated = now := by
  unfold draw
  split <;> rfl

/-- A call costs one token if it passes and none if it does not. -/
theorem draw_tokens : (draw burst rate bucket now).1.tokens =
    level burst rate bucket now - if (draw burst rate bucket now).2 then 1 else 0 := by
  unfold draw
  split
  · simp
  · simp

theorem level_le_burst : level burst rate bucket now ≤ burst := by
  cases bucket with
  | none => exact le_rfl
  | some bucket => exact min_le_right _ _

/-! ### A list of calls -/

/-- One more call at the end of a list. -/
theorem after_concat (instants : List ℕ) : after burst rate bucket (instants ++ [now]) =
    some (draw burst rate (after burst rate bucket instants) now).1 := by
  rw [after, List.foldl_append]
  rfl

theorem after_cons (instants : List ℕ) : after burst rate bucket (now :: instants) =
    after burst rate (some (draw burst rate bucket now).1) instants :=
  rfl

/-- One more decision at the end of a list. -/
theorem decisions_concat (instants : List ℕ) : decisions burst rate bucket (instants ++ [now]) =
    decisions burst rate bucket instants ++
      [(draw burst rate (after burst rate bucket instants) now).2] := by
  induction instants generalizing bucket with
  | nil => rfl
  | cons first rest ih =>
    rw [List.cons_append, decisions, ih, after_cons, decisions, List.cons_append]

theorem passed_cons (within : ℕ → Bool) (instants : List ℕ) :
    passed burst rate bucket within (now :: instants) =
      passed burst rate (some (draw burst rate bucket now).1) within instants +
        if (draw burst rate bucket now).2 && within now then 1 else 0 := by
  rw [passed, decisions, List.zip_cons_cons, List.countP_cons]
  rfl

/-- Assumes: no call is at an instant with the property. None of them counts. -/
theorem passed_eq_zero {within : ℕ → Bool} {instants : List ℕ}
    (houtside : ∀ instant ∈ instants, within instant = false) :
    passed burst rate bucket within instants = 0 := by
  rw [passed, List.countP_eq_zero]
  intro call hcall
  rw [houtside call.1 (List.of_mem_zip hcall).1, Bool.and_false]
  exact Bool.false_ne_true

/-! ### Buckets that agree -/

/-- Two buckets hold the same at every instant from one on. -/
def Agree (burst rate : α) (start : ℕ) (bucket other : Option (Bucket α)) : Prop :=
  ∀ now, start ≤ now → level burst rate bucket now = level burst rate other now

theorem Agree.refl (start : ℕ) (bucket : Option (Bucket α)) :
    Agree burst rate start bucket bucket :=
  fun _ _ ↦ rfl

theorem Agree.later {start later : ℕ} (hagree : Agree burst rate start bucket other)
    (hlater : start ≤ later) : Agree burst rate later bucket other :=
  fun now hnow ↦ hagree now (hlater.trans hnow)

theorem Agree.trans {third : Option (Bucket α)} {start : ℕ}
    (hfirst : Agree burst rate start bucket other) (hsecond : Agree burst rate start other third) :
    Agree burst rate start bucket third :=
  fun now hnow ↦ (hfirst now hnow).trans (hsecond now hnow)

/-- Assumes: two buckets that agree from an instant on. A call from then on leaves the same bucket
and gets the same decision. -/
theorem Agree.draw_eq {start : ℕ} (hagree : Agree burst rate start bucket other)
    (hnow : start ≤ now) : draw burst rate bucket now = draw burst rate other now := by
  unfold draw
  rw [hagree now hnow]

variable [IsStrictOrderedRing α]

/-- Assumes: a bucket that is full again at an instant. From then on it agrees with an absent one.
-/
theorem agree_none {held : Bucket α} (hrate : 0 ≤ rate)
    (hfull : burst ≤ held.tokens + ((now - held.updated : ℕ) : α) * rate) :
    Agree burst rate now none (some held) := by
  intro later hlater
  have hgrown : ((now - held.updated : ℕ) : α) ≤ ((later - held.updated : ℕ) : α) :=
    Nat.cast_le.mpr (Nat.sub_le_sub_right hlater _)
  exact (min_eq_right (hfull.trans (by gcongr))).symm

/-! ### The rate bound -/

/-- The tokens of a bucket are not negative. -/
def Solvent (bucket : Option (Bucket α)) : Prop :=
  ∀ held, bucket = some held → 0 ≤ held.tokens

theorem level_nonneg (hburst : 0 ≤ burst) (hrate : 0 ≤ rate) (hsolvent : Solvent bucket) :
    0 ≤ level burst rate bucket now := by
  cases bucket with
  | none => exact hburst
  | some held =>
    have hrefill : 0 ≤ ((now - held.updated : ℕ) : α) * rate := mul_nonneg (Nat.cast_nonneg _) hrate
    exact le_min (add_nonneg (hsolvent held rfl) hrefill) hburst

/-- A call never overdraws a bucket. -/
theorem draw_solvent (now : ℕ) (hburst : 0 ≤ burst) (hrate : 0 ≤ rate)
    (hsolvent : Solvent bucket) : Solvent (some (draw burst rate bucket now).1) := by
  have hlevel : 0 ≤ level burst rate bucket now := level_nonneg hburst hrate hsolvent
  intro held hheld
  rw [← Option.some.inj hheld, draw]
  split
  · exact hlevel
  · rename_i henough
    exact sub_nonneg.mpr (not_lt.mp henough)

/-- Assumes: calls in order, none before the last refill of a bucket. Up to an instant, no more pass
than the bucket holds and is refilled until then. -/
theorem passed_until_le (held : Bucket α) (hi : ℕ) (within : ℕ → Bool) (hburst : 0 ≤ burst)
    (hrate : 0 ≤ rate) (hwithin : ∀ instant, within instant = true → instant ≤ hi)
    (instants : List ℕ) (hsolvent : 0 ≤ held.tokens) (hhi : held.updated ≤ hi)
    (horder : (held.updated :: instants).Pairwise (· ≤ ·)) :
    (passed burst rate (some held) within instants : α) ≤
      held.tokens + ((hi - held.updated : ℕ) : α) * rate := by
  induction instants generalizing held with
  | nil =>
    rw [passed_eq_zero (fun _ hmem ↦ absurd hmem List.not_mem_nil), Nat.cast_zero]
    exact add_nonneg hsolvent (mul_nonneg (Nat.cast_nonneg _) hrate)
  | cons now rest ih =>
    obtain ⟨hafter, hrest⟩ := List.pairwise_cons.mp horder
    by_cases hnow : now ≤ hi
    · -- The call costs what it is counted for, and the rest is bounded from its instant on.
      have hspent := ih (draw burst rate (some held) now).1
        (draw_solvent now hburst hrate (fun _ h ↦ Option.some.inj h ▸ hsolvent) _ rfl)
        (by rw [draw_updated]; exact hnow) (by rw [draw_updated]; exact hrest)
      have hlevel : level burst rate (some held) now ≤
          held.tokens + ((now - held.updated : ℕ) : α) * rate := min_le_left _ _
      have hsplit : ((hi - held.updated : ℕ) : α) =
          ((hi - now : ℕ) : α) + ((now - held.updated : ℕ) : α) := by
        rw [← Nat.cast_add, Nat.sub_add_sub_cancel hnow (hafter now List.mem_cons_self)]
      have hcounted : ((if (draw burst rate (some held) now).2 && within now then 1 else 0 : ℕ) : α)
          ≤ if (draw burst rate (some held) now).2 then 1 else 0 := by
        cases (draw burst rate (some held) now).2 with
        | false => simp
        | true => cases within now with
          | false => simp
          | true => simp
      rw [draw_updated, draw_tokens] at hspent
      rw [passed_cons, Nat.cast_add, hsplit, add_mul]
      linarith
    · have houtside : ∀ instant ∈ now :: rest, within instant = false := by
        intro instant hinstant
        have hbeyond : now ≤ instant := by
          rcases List.mem_cons.mp hinstant with rfl | hmem
          · exact le_rfl
          · exact (List.pairwise_cons.mp hrest).1 instant hmem
        rw [Bool.eq_false_iff]
        exact fun hin ↦ hnow (hbeyond.trans (hwithin instant hin))
      rw [passed_eq_zero houtside, Nat.cast_zero]
      exact add_nonneg hsolvent (mul_nonneg (Nat.cast_nonneg _) hrate)

/-- Assumes: calls in order. Of those whose instants lie between two, at most the burst and what is
refilled between the two pass. -/
theorem passed_le {lo hi : ℕ} (hburst : 0 ≤ burst) (hrate : 0 ≤ rate) 
    (instants : List ℕ) (horder : instants.Pairwise (· ≤ ·)) (hsolvent : Solvent bucket) :
    (passed burst rate bucket (fun now ↦ decide (lo ≤ now) && decide (now ≤ hi)) instants : α) ≤
      burst + ((hi - lo : ℕ) : α) * rate := by
  have hallowance : 0 ≤ burst + ((hi - lo : ℕ) : α) * rate :=
    add_nonneg hburst (mul_nonneg (Nat.cast_nonneg _) hrate)
  induction instants generalizing bucket with
  | nil =>
    rw [passed_eq_zero (fun _ hmem ↦ absurd hmem List.not_mem_nil), Nat.cast_zero]
    exact hallowance
  | cons now rest ih =>
    obtain ⟨hafter, hrest⟩ := List.pairwise_cons.mp horder
    have hnext := draw_solvent now hburst hrate hsolvent
    rw [passed_cons]
    by_cases hlo : lo ≤ now
    · by_cases hhi : now ≤ hi
      · -- The first call in the window finds at most a full bucket.
        have hinside : ∀ instant, (decide (lo ≤ instant) && decide (instant ≤ hi)) = true →
            instant ≤ hi := by
          intro instant hin
          exact of_decide_eq_true (Bool.and_eq_true_iff.mp hin).2
        have hspent := passed_until_le (draw burst rate bucket now).1 hi _ hburst hrate hinside rest
          (hnext _ rfl) (by rw [draw_updated]; exact hhi) (by rw [draw_updated]; exact horder)
        have hfull : level burst rate bucket now ≤ burst := level_le_burst
        have hshorter : ((hi - now : ℕ) : α) * rate ≤ ((hi - lo : ℕ) : α) * rate := by
          have hless : ((hi - now : ℕ) : α) ≤ ((hi - lo : ℕ) : α) :=
            Nat.cast_le.mpr (Nat.sub_le_sub_left hlo hi)
          gcongr
        rw [draw_updated, draw_tokens] at hspent
        rw [decide_eq_true hlo, decide_eq_true hhi, Bool.and_true, Bool.and_true, Nat.cast_add,
          Nat.cast_ite, Nat.cast_one, Nat.cast_zero]
        linarith
      · rw [decide_eq_false hhi, Bool.and_false, Bool.and_false, if_neg Bool.false_ne_true,
          Nat.add_zero]
        exact ih hrest hnext
    · rw [decide_eq_false hlo, Bool.false_and, Bool.and_false, if_neg Bool.false_ne_true,
        Nat.add_zero]
      exact ih hrest hnext

end Relayna.Library.TokenBucket

import Mathlib.Data.List.Basic
import Mathlib.Data.Nat.Notation

/-!
# A cache that is refreshed, but not too often

A cached value expires some time after it was stored, and an attempt to replace it is made only when
the last attempt is long enough ago, whether it had succeeded or not. `Proper` says of a history,
newest event first, that attempts keep their distance and that what was read had been stored last
and not too long ago. `Tracks` relates a cache to its history; the operations keep both. Times are
those of a clock that does not go back.

`Proper.attempts_within` bounds the attempts in any window of time.
-/

set_option autoImplicit false
set_option relaxedAutoImplicit false

namespace Relayna.Library.ThrottledCache

variable {Value : Type*}

/-- A value with the time at which it expires, and the time of the last attempt. -/
structure Cache (Value : Type*) where
  entry : Option (Value × ℕ)
  lastAttempt : Option ℕ

/-- Before the first attempt. -/
def Cache.empty : Cache Value :=
  ⟨none, none⟩

/-- The value, while it has not expired. -/
def Cache.get (cache : Cache Value) (now : ℕ) : Option Value :=
  cache.entry.bind fun entry ↦ if now < entry.2 then some entry.1 else none

/-- The last attempt is too recent for another one. -/
def Cache.cooling (cache : Cache Value) (cooldown now : ℕ) : Bool :=
  cache.lastAttempt.any fun last ↦ now - last < cooldown

def Cache.attempt (cache : Cache Value) (now : ℕ) : Cache Value :=
  { cache with lastAttempt := some now }

/-- A value is stored. -/
def Cache.store (cache : Cache Value) (value : Value) (expiresAt : ℕ) : Cache Value :=
  { cache with entry := some (value, expiresAt) }

/-! ### Histories -/

/-- What happens to a cache. -/
inductive Event (Value : Type*)
  | attempted (time : ℕ)
  | stored (value : Value) (time : ℕ)
  | used (value : Value) (time : ℕ)

/-- The value that was stored last, and when. -/
def latest : List (Event Value) → Option (Value × ℕ)
  | [] => none
  | .stored value time :: _ => some (value, time)
  | .attempted _ :: older => latest older
  | .used _ _ :: older => latest older

def attempts : List (Event Value) → List ℕ
  | [] => []
  | .attempted time :: older => time :: attempts older
  | .stored _ _ :: older => attempts older
  | .used _ _ :: older => attempts older

/-- Attempts keep their distance, and what is used was stored last and has not expired. -/
def Proper (cooldown ttl : ℕ) : List (Event Value) → Prop
  | [] => True
  | .attempted time :: older =>
    (∀ earlier ∈ attempts older, earlier + cooldown ≤ time) ∧ Proper cooldown ttl older
  | .stored _ _ :: older => Proper cooldown ttl older
  | .used value time :: older =>
    (∃ storedAt, latest older = some (value, storedAt) ∧ time < storedAt + ttl) ∧
      Proper cooldown ttl older

theorem Proper.spaced {cooldown ttl : ℕ} {history : List (Event Value)}
    (hproper : Proper cooldown ttl history) :
    (attempts history).Pairwise fun later earlier ↦ earlier + cooldown ≤ later := by
  induction history with
  | nil => exact List.Pairwise.nil
  | cons event older ih =>
    cases event with
    | attempted time => exact List.pairwise_cons.mpr ⟨hproper.1, ih hproper.2⟩
    | stored value time => exact ih hproper
    | used value time => exact ih hproper.2

/-- Times that keep their distance reach far: the first of them, the latest, is as late as the
others need. -/
theorem length_of_spaced {cooldown start : ℕ} {times : List ℕ}
    (hspaced : times.Pairwise fun later earlier ↦ earlier + cooldown ≤ later)
    (hstart : ∀ time ∈ times, start ≤ time) {last : ℕ} (hlast : times.head? = some last) :
    start + (times.length - 1) * cooldown ≤ last := by
  induction times generalizing last with
  | nil => cases hlast
  | cons first rest ih =>
    obtain rfl := Option.some.inj hlast
    obtain ⟨hfirst, hrest⟩ := List.pairwise_cons.mp hspaced
    cases rest with
    | nil =>
      have hle := hstart first List.mem_cons_self
      simpa using hle
    | cons second rest =>
      have hsecond := ih hrest (fun time htime ↦ hstart time (List.mem_cons_of_mem _ htime)) rfl
      have hgap := hfirst second List.mem_cons_self
      have hlength : (second :: rest).length - 1 + 1 = (first :: second :: rest).length - 1 := rfl
      calc start + ((first :: second :: rest).length - 1) * cooldown
          = start + ((second :: rest).length - 1) * cooldown + cooldown := by
            rw [← hlength, Nat.add_mul, Nat.one_mul, Nat.add_assoc]
        _ ≤ second + cooldown := Nat.add_le_add_right hsecond cooldown
        _ ≤ first := hgap

/-- A window of time holds at most one attempt, and one more for each time that the cooldown fits.
-/
theorem Proper.attempts_within {cooldown ttl : ℕ} {history : List (Event Value)}
    (hproper : Proper cooldown ttl history) (start width : ℕ) :
    ((attempts history).filter fun time ↦ start ≤ time && time < start + width).length * cooldown ≤
      width + cooldown := by
  generalize hwindow : ((attempts history).filter fun time ↦
    start ≤ time && time < start + width) = window
  have hspaced : window.Pairwise fun later earlier ↦ earlier + cooldown ≤ later :=
    hwindow ▸ hproper.spaced.filter _
  have hinside : ∀ time ∈ window, start ≤ time ∧ time < start + width := by
    intro time htime
    rw [← hwindow] at htime
    simpa using (List.mem_filter.mp htime).2
  cases window with
  | nil => simp
  | cons last rest =>
    have hreach := length_of_spaced hspaced (fun time htime ↦ (hinside time htime).1) rfl
    have hlast := (hinside last List.mem_cons_self).2
    rw [List.length_cons, Nat.add_sub_cancel] at hreach
    rw [List.length_cons, Nat.add_mul, Nat.one_mul]
    omega

/-- What was used had been stored last, and not too long ago. -/
theorem Proper.used {cooldown ttl : ℕ} {newer older : List (Event Value)} {value : Value} {time : ℕ}
    (hproper : Proper cooldown ttl (newer ++ .used value time :: older)) :
    ∃ storedAt, latest older = some (value, storedAt) ∧ time < storedAt + ttl := by
  induction newer with
  | nil => exact hproper.1
  | cons event newer ih =>
    cases event with
    | attempted earlier => exact ih hproper.2
    | stored other earlier => exact ih hproper
    | used other earlier => exact ih hproper.2

theorem mem_of_latest {history : List (Event Value)} {value : Value} {time : ℕ}
    (hlatest : latest history = some (value, time)) : .stored value time ∈ history := by
  induction history with
  | nil => cases hlatest
  | cons event older ih =>
    cases event with
    | attempted earlier => exact List.mem_cons_of_mem _ (ih hlatest)
    | stored other earlier =>
      obtain ⟨rfl, rfl⟩ := Prod.mk.inj (Option.some.inj hlatest)
      exact List.mem_cons_self
    | used other earlier => exact List.mem_cons_of_mem _ (ih hlatest)

/-! ### A cache and its history -/

/-- A cache holds what its history says, and nothing in the history is later than now. -/
structure Tracks (ttl : ℕ) (cache : Cache Value) (history : List (Event Value)) (now : ℕ) :
    Prop where
  entry : cache.entry = (latest history).map fun stored ↦ (stored.1, stored.2 + ttl)
  lastAttempt : cache.lastAttempt = (attempts history).head?
  past : ∀ time ∈ attempts history, time ≤ now

section Operations

variable {cooldown ttl : ℕ} {cache : Cache Value} {history : List (Event Value)} {now : ℕ}

theorem tracks_empty (ttl now : ℕ) : Tracks ttl (Cache.empty : Cache Value) [] now where
  entry := rfl
  lastAttempt := rfl
  past time htime := by cases htime

theorem Tracks.later (htracks : Tracks ttl cache history now) {later : ℕ} (hle : now ≤ later) :
    Tracks ttl cache history later :=
  { htracks with past := fun time htime ↦ Nat.le_trans (htracks.past time htime) hle }

/-- What is found was stored last, and not too long ago. -/
theorem Tracks.get (htracks : Tracks ttl cache history now) {value : Value}
    (hget : cache.get now = some value) :
    ∃ storedAt, latest history = some (value, storedAt) ∧ now < storedAt + ttl := by
  unfold Cache.get at hget
  rw [htracks.entry] at hget
  cases hlatest : latest history with
  | none =>
    rw [hlatest] at hget
    cases hget
  | some stored =>
    rw [hlatest] at hget
    simp only [Option.map_some, Option.bind_some] at hget
    split_ifs at hget with hfresh
    obtain rfl := Option.some.inj hget
    exact ⟨stored.2, rfl, hfresh⟩

theorem Tracks.used (htracks : Tracks ttl cache history now) (hproper : Proper cooldown ttl history)
    {value : Value} (hget : cache.get now = some value) :
    Tracks ttl cache (.used value now :: history) now ∧
      Proper cooldown ttl (.used value now :: history) :=
  ⟨⟨htracks.entry, htracks.lastAttempt, htracks.past⟩, htracks.get hget, hproper⟩

theorem Tracks.stored (htracks : Tracks ttl cache history now) (value : Value) :
    Tracks ttl (cache.store value (now + ttl)) (.stored value now :: history) now where
  entry := rfl
  lastAttempt := htracks.lastAttempt
  past := htracks.past

/-- Assumes: the last attempt is long enough ago. Another one keeps its distance from all of them.
-/
theorem Tracks.attempted (htracks : Tracks ttl cache history now)
    (hproper : Proper cooldown ttl history) (hcooled : cache.cooling cooldown now = false) :
    Tracks ttl (cache.attempt now) (.attempted now :: history) now ∧
      Proper cooldown ttl (.attempted now :: history) := by
  refine ⟨⟨htracks.entry, rfl, List.forall_mem_cons.mpr ⟨Nat.le_refl now, htracks.past⟩⟩, ?_,
    hproper⟩
  have hspaced := hproper.spaced
  have hpast := htracks.past
  unfold Cache.cooling at hcooled
  rw [htracks.lastAttempt] at hcooled
  cases htimes : attempts history with
  | nil => exact fun earlier hearlier ↦ by cases hearlier
  | cons last rest =>
    rw [htimes] at hcooled hspaced hpast
    have hlast : last + cooldown ≤ now := by
      have hle := hpast last List.mem_cons_self
      have hgap : ¬ now - last < cooldown := of_decide_eq_false hcooled
      omega
    refine List.forall_mem_cons.mpr ⟨hlast, fun earlier hearlier ↦ ?_⟩
    have hbefore := (List.pairwise_cons.mp hspaced).1 earlier hearlier
    omega

end Operations

end Relayna.Library.ThrottledCache

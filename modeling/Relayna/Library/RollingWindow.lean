import Mathlib.Algebra.BigOperators.Group.List.Basic
import Mathlib.Algebra.Ring.Nat
import Mathlib.Data.Finset.Card
import Mathlib.Data.List.Nodup
import Mathlib.Logic.Function.Basic
import Mathlib.Order.Interval.Finset.Nat

/-!
# Rolling windows of per-instant buckets

A rolling window keeps one bucket for each recent instant in which something was recorded. Old
buckets leave at the front when the window is written or read (`prune`), and a record goes to the
last bucket or, when that belongs to an earlier instant, to a new one (`write`).

`Represents` says what such a list stands for: a series that gives every instant its content, of
which the list has the last `retain` instants. Passing time, pruning and writing keep it, a write
being an update of the series at one instant. `Represents.length_le` bounds the list, and
`sum_countP_within` turns a sum over the buckets of a window into a count of the recorded events.
-/

set_option autoImplicit false
set_option relaxedAutoImplicit false

namespace Relayna.Library.RollingWindow

variable {Bucket Content Event : Type*} {second : Bucket → ℕ}

/-! ### Operations -/

/-- Drop the buckets at the front that are `retain` old. -/
def prune (second : Bucket → ℕ) (retain now : ℕ) (buckets : List Bucket) : List Bucket :=
  buckets.dropWhile fun bucket ↦ retain ≤ now - second bucket

/-- The buckets before the current one, and the current one: the last bucket when it belongs to this
instant, otherwise a fresh one. -/
def latest (second : Bucket → ℕ) (now : ℕ) (fresh : Bucket) (buckets : List Bucket) :
    List Bucket × Bucket :=
  match buckets.getLast? with
  | some last => if second last ≠ now then (buckets, fresh) else (buckets.dropLast, last)
  | none => (buckets, fresh)

/-- Prune, and change the current bucket. -/
def write (second : Bucket → ℕ) (retain now : ℕ) (fresh : Bucket) (change : Bucket → Bucket)
    (buckets : List Bucket) : List Bucket :=
  let opened := latest second now fresh (prune second retain now buckets)
  opened.1 ++ [change opened.2]

/-- The instants of the buckets increase. -/
def Increasing (second : Bucket → ℕ) (buckets : List Bucket) : Prop :=
  buckets.Pairwise fun earlier later ↦ second earlier < second later

/-! ### Pruning -/

theorem prune_sublist (retain now : ℕ) (buckets : List Bucket) :
    (prune second retain now buckets).Sublist buckets :=
  List.dropWhile_sublist _

/-- Assumes: increasing instants. Pruning keeps the buckets that are less than `retain` old. -/
theorem mem_prune {retain now : ℕ} {buckets : List Bucket} (hbuckets : Increasing second buckets)
    (bucket : Bucket) :
    bucket ∈ prune second retain now buckets ↔ bucket ∈ buckets ∧ now - second bucket < retain := by
  induction buckets with
  | nil => simp [prune]
  | cons first rest ih =>
    obtain ⟨hfirst, hrest⟩ := List.pairwise_cons.mp hbuckets
    by_cases hold : retain ≤ now - second first
    · have hprune : prune second retain now (first :: rest) = prune second retain now rest := by
        simp [prune, hold]
      rw [hprune, ih hrest]
      constructor
      · rintro ⟨hmem, hage⟩
        exact ⟨List.mem_cons_of_mem _ hmem, hage⟩
      · rintro ⟨hmem, hage⟩
        rcases List.mem_cons.mp hmem with rfl | hmem
        · omega
        · exact ⟨hmem, hage⟩
    · have hprune : prune second retain now (first :: rest) = first :: rest := by
        simp [prune, hold]
      rw [hprune]
      refine ⟨fun hmem ↦ ⟨hmem, ?_⟩, And.left⟩
      rcases List.mem_cons.mp hmem with rfl | hmem
      · omega
      · have hlater := hfirst bucket hmem
        omega

/-! ### The current bucket -/

/-- Assumes: increasing instants that have come. The buckets before the current one are those of
earlier instants. -/
theorem mem_latest_fst {now : ℕ} {buckets : List Bucket} (hbuckets : Increasing second buckets)
    (hpast : ∀ bucket ∈ buckets, second bucket ≤ now) (fresh bucket : Bucket) :
    bucket ∈ (latest second now fresh buckets).1 ↔ bucket ∈ buckets ∧ second bucket < now := by
  rcases List.eq_nil_or_concat' buckets with rfl | ⟨older, last, rfl⟩
  · simp [latest]
  · obtain ⟨-, -, hlast⟩ := List.pairwise_append.mp hbuckets
    have hearlier : ∀ other ∈ older, second other < second last := fun other hother ↦
      hlast other hother last (List.mem_singleton_self last)
    have hnow := hpast last (by simp)
    unfold latest
    rw [List.getLast?_concat]
    dsimp only
    split_ifs with hother
    · refine ⟨fun hmem ↦ ⟨hmem, ?_⟩, And.left⟩
      rcases List.mem_append.mp hmem with hmem | hmem
      · exact (hearlier bucket hmem).trans_le hnow
      · rw [List.mem_singleton.mp hmem]
        omega
    · rw [List.dropLast_concat]
      constructor
      · intro hmem
        exact ⟨List.mem_append_left _ hmem, (hearlier bucket hmem).trans_le hnow⟩
      · rintro ⟨hmem, hlt⟩
        rcases List.mem_append.mp hmem with hmem | hmem
        · exact hmem
        · rw [List.mem_singleton.mp hmem] at hlt
          omega

/-- Assumes: increasing instants that have come. The current bucket is the one of this instant, or
fresh when there is none. -/
theorem latest_snd_cases {now : ℕ} {buckets : List Bucket} (hbuckets : Increasing second buckets)
    (hpast : ∀ bucket ∈ buckets, second bucket ≤ now) (fresh : Bucket) :
    ((latest second now fresh buckets).2 ∈ buckets ∧
        second (latest second now fresh buckets).2 = now) ∨
      ((latest second now fresh buckets).2 = fresh ∧ ∀ bucket ∈ buckets, second bucket < now) := by
  rcases List.eq_nil_or_concat' buckets with rfl | ⟨older, last, rfl⟩
  · right
    simp [latest]
  · obtain ⟨-, -, hlast⟩ := List.pairwise_append.mp hbuckets
    have hnow := hpast last (by simp)
    unfold latest
    rw [List.getLast?_concat]
    dsimp only
    split_ifs with hother
    · refine Or.inr ⟨rfl, fun bucket hmem ↦ ?_⟩
      rcases List.mem_append.mp hmem with hmem | hmem
      · exact (hlast bucket hmem last (List.mem_singleton_self last)).trans_le hnow
      · rw [List.mem_singleton.mp hmem]
        omega
    · exact Or.inl ⟨by simp, not_not.mp hother⟩

theorem latest_fst_sublist (now : ℕ) (fresh : Bucket) (buckets : List Bucket) :
    (latest second now fresh buckets).1.Sublist buckets := by
  unfold latest
  split
  · split_ifs
    · exact List.Sublist.refl _
    · exact List.dropLast_sublist _
  · exact List.Sublist.refl _

/-! ### The series that a window represents -/

/-- The buckets of a window at an instant have the contents of a series, at every instant of the
last `retain` where the series is not empty. -/
structure Represents (second : Bucket → ℕ) (content : Bucket → Content) (empty : Content)
    (retain now : ℕ) (series : ℕ → Content) (buckets : List Bucket) : Prop where
  increasing : Increasing second buckets
  past : ∀ bucket ∈ buckets, second bucket ≤ now
  span : ∀ bucket ∈ buckets, ∀ later ∈ buckets, second later < second bucket + retain
  content_eq : ∀ bucket ∈ buckets, content bucket = series (second bucket)
  held : ∀ instant, now < instant + retain →
    (∃ bucket ∈ buckets, second bucket = instant) ∨ series instant = empty

section Represents

variable {content : Bucket → Content} {empty : Content} {retain now : ℕ} {series : ℕ → Content}
  {buckets : List Bucket}

/-- No buckets represent the empty series. -/
theorem represents_nil (now : ℕ) (hseries : ∀ instant, series instant = empty) :
    Represents second content empty retain now series [] where
  increasing := List.Pairwise.nil
  past := fun _ hmem ↦ absurd hmem (List.not_mem_nil)
  span := fun _ hmem ↦ absurd hmem (List.not_mem_nil)
  content_eq := fun _ hmem ↦ absurd hmem (List.not_mem_nil)
  held := fun instant _ ↦ Or.inr (hseries instant)

/-- Time passes. -/
theorem Represents.advance (h : Represents second content empty retain now series buckets)
    {later : ℕ} (hlater : now ≤ later) :
    Represents second content empty retain later series buckets where
  increasing := h.increasing
  past := fun bucket hmem ↦ (h.past bucket hmem).trans hlater
  span := h.span
  content_eq := h.content_eq
  held := fun instant hinstant ↦ h.held instant (hlater.trans_lt hinstant)

/-- Assumes: a reading of the clock that is not ahead of it. Pruning at the reading loses nothing.
-/
theorem Represents.pruned (h : Represents second content empty retain now series buckets)
    {reading : ℕ} (hreading : reading ≤ now) :
    Represents second content empty retain now series (prune second retain reading buckets) where
  increasing := h.increasing.sublist (prune_sublist retain reading buckets)
  past := fun bucket hmem ↦ h.past bucket ((prune_sublist retain reading buckets).subset hmem)
  span := fun bucket hmem later hlater ↦
    h.span bucket ((prune_sublist retain reading buckets).subset hmem) later
      ((prune_sublist retain reading buckets).subset hlater)
  content_eq := fun bucket hmem ↦
    h.content_eq bucket ((prune_sublist retain reading buckets).subset hmem)
  held := by
    intro instant hinstant
    rcases h.held instant hinstant with ⟨bucket, hmem, rfl⟩ | hempty
    · refine Or.inl ⟨bucket, (mem_prune h.increasing bucket).mpr ⟨hmem, ?_⟩, rfl⟩
      have hpast := h.past bucket hmem
      omega
    · exact Or.inr hempty

/-- Assumes: a fresh bucket of this instant that is empty, and a change of the current bucket that
keeps its instant. Writing updates the series at this instant. -/
theorem Represents.written (h : Represents second content empty retain now series buckets)
    (hretain : 0 < retain) {fresh : Bucket} (hfresh : second fresh = now)
    (hempty : content fresh = empty) {change : Bucket → Bucket} (update : Content → Content)
    (hsecond : ∀ bucket, second (change bucket) = second bucket)
    (hcontent : ∀ bucket, content (change bucket) = update (content bucket)) :
    Represents second content empty retain now
      (Function.update series now (update (series now)))
      (write second retain now fresh change buckets) := by
  have hpruned := h.pruned le_rfl
  set kept := prune second retain now buckets with hkept
  have hage : ∀ bucket ∈ kept, now - second bucket < retain := fun bucket hmem ↦
    ((mem_prune h.increasing bucket).mp hmem).2
  have hmem_older := mem_latest_fst hpruned.increasing hpruned.past fresh
  set opened := latest second now fresh kept with hopened
  -- the current bucket belongs to this instant and has the content of the series
  have hcurrent : second opened.2 = now ∧ content opened.2 = series now := by
    rcases latest_snd_cases hpruned.increasing hpruned.past fresh with
      ⟨hmem, hnow⟩ | ⟨hnew, hearlier⟩
    · exact ⟨hnow, hnow ▸ hpruned.content_eq _ hmem⟩
    · rw [← hopened] at hnew
      rw [hnew, hempty]
      refine ⟨hfresh, ?_⟩
      rcases hpruned.held now (by omega) with ⟨bucket, hmem, hnow⟩ | hseries
      · exact absurd (hearlier bucket hmem) (by omega)
      · exact hseries.symm
  have hwrite : write second retain now fresh change buckets = opened.1 ++ [change opened.2] := rfl
  have hcases : ∀ bucket ∈ write second retain now fresh change buckets,
      (bucket ∈ kept ∧ second bucket < now) ∨ bucket = change opened.2 := by
    intro bucket hmem
    rw [hwrite, List.mem_append, List.mem_singleton, hmem_older bucket] at hmem
    exact hmem
  have hinstant : second (change opened.2) = now := (hsecond _).trans hcurrent.1
  constructor
  · rw [hwrite]
    refine List.pairwise_append.mpr ⟨?_, List.pairwise_singleton _ _, ?_⟩
    · exact hpruned.increasing.sublist (latest_fst_sublist now fresh kept)
    · intro earlier hearlier later hlater
      rw [List.mem_singleton.mp hlater, hinstant]
      exact ((hmem_older earlier).mp hearlier).2
  · intro bucket hmem
    rcases hcases bucket hmem with ⟨-, hlt⟩ | rfl
    · exact hlt.le
    · exact hinstant.le
  · intro bucket hmem later hlater
    have hlater_le : second later ≤ now := by
      rcases hcases later hlater with ⟨-, hlt⟩ | rfl
      · exact hlt.le
      · exact hinstant.le
    rcases hcases bucket hmem with ⟨hbucket, -⟩ | rfl
    · have hyoung := hage bucket hbucket
      have hpast := hpruned.past bucket hbucket
      omega
    · omega
  · intro bucket hmem
    rcases hcases bucket hmem with ⟨hbucket, hlt⟩ | rfl
    · rw [Function.update_of_ne hlt.ne]
      exact hpruned.content_eq bucket hbucket
    · rw [hinstant, Function.update_self, hcontent, hcurrent.2]
  · intro instant hlive
    by_cases hnow : instant = now
    · exact Or.inl ⟨change opened.2, by simp [hwrite], hinstant.trans hnow.symm⟩
    · rw [Function.update_of_ne hnow]
      rcases hpruned.held instant hlive with ⟨bucket, hmem, rfl⟩ | hseries
      · refine Or.inl ⟨bucket, ?_, rfl⟩
        rw [hwrite]
        refine List.mem_append_left _ ((hmem_older bucket).mpr ⟨hmem, ?_⟩)
        exact lt_of_le_of_ne (hpruned.past bucket hmem) hnow
      · exact Or.inr hseries

theorem increasing_nodup (hbuckets : Increasing second buckets) : (buckets.map second).Nodup :=
  (List.pairwise_map.mpr hbuckets).imp fun hlt ↦ hlt.ne

/-- There are at most `retain` buckets. -/
theorem Represents.length_le (h : Represents second content empty retain now series buckets) :
    buckets.length ≤ retain := by
  rcases buckets with _ | ⟨first, rest⟩
  · exact Nat.zero_le _
  have hfirst := (List.pairwise_cons.mp h.increasing).1
  have hsubset : ((first :: rest).map second).toFinset ⊆
      Finset.Ico (second first) (second first + retain) := by
    intro instant hinstant
    obtain ⟨bucket, hmem, rfl⟩ := List.mem_map.mp (List.mem_toFinset.mp hinstant)
    refine Finset.mem_Ico.mpr ⟨?_, h.span first List.mem_cons_self bucket hmem⟩
    rcases List.mem_cons.mp hmem with rfl | hrest
    · exact le_rfl
    · exact (hfirst bucket hrest).le
  have hcard := Finset.card_le_card hsubset
  rw [List.toFinset_card_of_nodup (increasing_nodup h.increasing), List.length_map,
    Nat.card_Ico] at hcard
  omega

end Represents

/-! ### The events of a window -/

/-- Assumes: a bucket for an instant if it lies in the window. It does exactly when the window has a
bucket for it. -/
theorem mem_seconds_within {buckets : List Bucket} {width elapsed instant : ℕ} (hwidth : 0 < width)
    (hheld : elapsed < instant + width → ∃ bucket ∈ buckets, second bucket = instant) :
    instant ∈ (buckets.filter fun bucket ↦ elapsed - second bucket < width).map second ↔
      elapsed < instant + width := by
  rw [List.mem_map]
  constructor
  · rintro ⟨bucket, hmem, heq⟩
    have hage := (List.mem_filter.mp hmem).2
    rw [decide_eq_true_eq] at hage
    omega
  · intro hlive
    obtain ⟨bucket, hmem, heq⟩ := hheld hlive
    refine ⟨bucket, List.mem_filter.mpr ⟨hmem, ?_⟩, heq⟩
    rw [decide_eq_true_eq]
    omega

/-- Assumes: two properties that no event has both. The counts of the two add up. -/
theorem countP_add_countP_disjoint {left right : Event → Bool}
    (hdisjoint : ∀ event, left event → ¬ right event) (log : List Event) :
    log.countP left + log.countP right = log.countP fun event ↦ left event || right event := by
  induction log with
  | nil => rfl
  | cons event log ih =>
    rw [List.countP_cons, List.countP_cons, List.countP_cons, ← ih]
    by_cases hleft : left event
    · simp [hleft, hdisjoint event hleft]
      omega
    · simp [hleft]
      omega

/-- Assumes: keys without repetition. Counting the events of each key counts the events that have
one of the keys. -/
theorem sum_countP_keys {keys : List ℕ} (hkeys : keys.Nodup) (instant : Event → ℕ)
    (holds : Event → Bool) (log : List Event) :
    (keys.map fun key ↦ log.countP fun event ↦ instant event = key ∧ holds event).sum =
      log.countP fun event ↦ instant event ∈ keys ∧ holds event := by
  induction keys with
  | nil => simp
  | cons key rest ih =>
    obtain ⟨hkey, hrest⟩ := List.nodup_cons.mp hkeys
    rw [List.map_cons, List.sum_cons, ih hrest, countP_add_countP_disjoint]
    · refine List.countP_congr fun event _ ↦ ?_
      simp [or_and_right]
    · intro event hfirst hother
      rw [decide_eq_true_eq] at hfirst hother
      exact hkey (hfirst.1 ▸ hother.1)

/-- Assumes: increasing instants, and a bucket for every counted event of the window. The counts of
the buckets of the window add up to the number of counted events of the window. -/
theorem sum_countP_within {buckets : List Bucket} (hbuckets : Increasing second buckets)
    {width elapsed : ℕ} (hwidth : 0 < width) (instant : Event → ℕ) (holds : Event → Bool)
    {log : List Event}
    (hheld : ∀ event ∈ log, elapsed < instant event + width → holds event →
      ∃ bucket ∈ buckets, second bucket = instant event) :
    ((buckets.filter fun bucket ↦ elapsed - second bucket < width).map fun bucket ↦
        log.countP fun event ↦ instant event = second bucket ∧ holds event).sum =
      log.countP fun event ↦ elapsed < instant event + width ∧ holds event := by
  set kept := buckets.filter fun bucket ↦ elapsed - second bucket < width with hkept
  have hnodup : (kept.map second).Nodup :=
    increasing_nodup (hbuckets.sublist List.filter_sublist)
  have hsum := sum_countP_keys hnodup instant holds log
  rw [List.map_map] at hsum
  refine hsum.trans (List.countP_congr fun event hevent ↦ ?_)
  simp only [decide_eq_true_eq]
  refine and_congr_left fun hholds ↦ mem_seconds_within hwidth fun hlive ↦ ?_
  exact hheld event hevent hlive hholds

/-- Assumes: keys without repetition. Collecting the events of each key collects the events that
have one of the keys. -/
theorem sum_filter_keys {keys : List ℕ} (hkeys : keys.Nodup) (instant : Event → ℕ)
    (log : Multiset Event) :
    (keys.map fun key ↦ log.filter fun event ↦ instant event = key).sum =
      log.filter fun event ↦ instant event ∈ keys := by
  induction keys with
  | nil => simp
  | cons key rest ih =>
    obtain ⟨hkey, hrest⟩ := List.nodup_cons.mp hkeys
    rw [List.map_cons, List.sum_cons, ih hrest, Multiset.filter_add_filter]
    have hnone : (log.filter fun event ↦ instant event = key ∧ instant event ∈ rest) = 0 := by
      refine Multiset.filter_eq_nil.mpr fun event _ hboth ↦ ?_
      exact hkey (hboth.1 ▸ hboth.2)
    rw [hnone, add_zero]
    refine Multiset.filter_congr fun event _ ↦ ?_
    rw [List.mem_cons]

/-- Assumes: increasing instants, and a bucket for every event of the window. The events of the
buckets of the window are the events of the window. -/
theorem sum_filter_within {buckets : List Bucket} (hbuckets : Increasing second buckets)
    {width elapsed : ℕ} (hwidth : 0 < width) (instant : Event → ℕ) {log : Multiset Event}
    (hheld : ∀ event ∈ log, elapsed < instant event + width →
      ∃ bucket ∈ buckets, second bucket = instant event) :
    ((buckets.filter fun bucket ↦ elapsed - second bucket < width).map fun bucket ↦
        log.filter fun event ↦ instant event = second bucket).sum =
      log.filter fun event ↦ elapsed < instant event + width := by
  set kept := buckets.filter fun bucket ↦ elapsed - second bucket < width with hkept
  have hnodup : (kept.map second).Nodup :=
    increasing_nodup (hbuckets.sublist List.filter_sublist)
  have hsum := sum_filter_keys hnodup instant log
  rw [List.map_map] at hsum
  refine hsum.trans (Multiset.filter_congr fun event hevent ↦ ?_)
  exact mem_seconds_within hwidth (hheld event hevent)

end Relayna.Library.RollingWindow

import Mathlib.Data.List.Infix
import Mathlib.Data.List.Nodup

/-!
# Bounded queues of keys that expire

A queue holds keys with the times at which they came. A key comes at the back, with the present
time, when the queue does not hold it alive. Before that the front gives way, as long as it has
expired or the queue is full. Nothing else leaves the queue but by a purge, which removes the front
as long as it has expired.

`Traced` relates a queue to the history of all the keys that ever came: the queue is the end of the
history, and whatever of the history is neither in the queue nor expired was followed by a whole
queue of other keys, without a repetition. `Traced.insert` and `Traced.purge` keep it. As the times
never decrease along a queue, what has expired is at its front, so `mem_purge_iff` holds: a purge
removes what has expired, and nothing else.
-/

set_option autoImplicit false
set_option relaxedAutoImplicit false

namespace Relayna.Library.ExpiringQueue

variable {Key : Type*} {capacity lifetime now : ℕ} {queue history : List (Key × ℕ)}

/-! ### Operations -/

/-- An entry that has not expired. -/
abbrev Live (lifetime now : ℕ) (entry : Key × ℕ) : Prop :=
  now - entry.2 < lifetime

/-- The queue holds the key, alive. -/
def Holds (lifetime now : ℕ) (queue : List (Key × ℕ)) (key : Key) : Prop :=
  ∃ at', (key, at') ∈ queue ∧ now - at' < lifetime

def purge (lifetime now : ℕ) : List (Key × ℕ) → List (Key × ℕ)
  | [] => []
  | oldest :: queue =>
    if Live lifetime now oldest then oldest :: queue else purge lifetime now queue

/-- What is left when the front has given way to one more entry. -/
def room (capacity lifetime now : ℕ) : List (Key × ℕ) → List (Key × ℕ)
  | [] => []
  | oldest :: queue =>
    if queue.length + 1 < capacity ∧ Live lifetime now oldest then oldest :: queue
    else room capacity lifetime now queue

theorem purge_suffix (queue : List (Key × ℕ)) : purge lifetime now queue <:+ queue := by
  induction queue with
  | nil => exact List.suffix_refl _
  | cons oldest queue ih =>
    unfold purge
    split_ifs
    · exact List.suffix_refl _
    · exact ih.trans (List.suffix_cons oldest queue)

theorem room_suffix (queue : List (Key × ℕ)) : room capacity lifetime now queue <:+ queue := by
  induction queue with
  | nil => exact List.suffix_refl _
  | cons oldest queue ih =>
    unfold room
    split_ifs
    · exact List.suffix_refl _
    · exact ih.trans (List.suffix_cons oldest queue)

/-- Assumes: a positive capacity. One more entry fits into the room. -/
theorem length_room_lt (hcapacity : 0 < capacity) (queue : List (Key × ℕ)) :
    (room capacity lifetime now queue).length < capacity := by
  induction queue with
  | nil => exact hcapacity
  | cons oldest queue ih =>
    unfold room
    split_ifs with hfits
    · exact hfits.1
    · exact ih

/-- A live entry gives way to nothing but a full queue behind it. -/
theorem mem_room_or {entry : Key × ℕ} {before behind : List (Key × ℕ)}
    (hlive : Live lifetime now entry) :
    entry ∈ room capacity lifetime now (before ++ entry :: behind) ∨
      capacity ≤ behind.length + 1 := by
  induction before with
  | nil =>
    show entry ∈ room capacity lifetime now (entry :: behind) ∨ _
    unfold room
    split_ifs with hfits
    · exact .inl List.mem_cons_self
    · exact .inr (not_lt.mp fun hlt ↦ hfits ⟨hlt, hlive⟩)
  | cons oldest before ih =>
    show entry ∈ room capacity lifetime now (oldest :: (before ++ entry :: behind)) ∨ _
    unfold room
    split_ifs
    · exact .inl (List.mem_cons_of_mem _ (List.mem_append_right _ List.mem_cons_self))
    · exact ih

/-! ### Well-formed queues -/

/-- The keys are different, the times do not decrease and are not in the future, and the queue is
within its capacity. -/
structure WellFormed (capacity now : ℕ) (queue : List (Key × ℕ)) : Prop where
  nodup : (queue.map Prod.fst).Nodup
  sorted : queue.Pairwise fun older newer ↦ older.2 ≤ newer.2
  past : ∀ entry ∈ queue, entry.2 ≤ now
  length_le : queue.length ≤ capacity

theorem WellFormed.nil (capacity now : ℕ) : WellFormed capacity now ([] : List (Key × ℕ)) :=
  ⟨List.nodup_nil, List.Pairwise.nil, fun _ hentry ↦ absurd hentry List.not_mem_nil,
    Nat.zero_le _⟩

theorem WellFormed.later {now' : ℕ} (hqueue : WellFormed capacity now queue) (hle : now ≤ now') :
    WellFormed capacity now' queue :=
  { hqueue with past := fun entry hentry ↦ (hqueue.past entry hentry).trans hle }

theorem WellFormed.of_suffix {rest : List (Key × ℕ)} (hqueue : WellFormed capacity now queue)
    (hsuffix : rest <:+ queue) : WellFormed capacity now rest where
  nodup := hqueue.nodup.sublist (hsuffix.sublist.map Prod.fst)
  sorted := hqueue.sorted.sublist hsuffix.sublist
  past entry hentry := hqueue.past entry (hsuffix.subset hentry)
  length_le := hsuffix.sublist.length_le.trans hqueue.length_le

/-- Assumes: times that do not decrease. What is behind a live entry is live. -/
theorem live_of_behind {oldest entry : Key × ℕ}
    (hsorted : (oldest :: queue).Pairwise fun older newer ↦ older.2 ≤ newer.2)
    (hlive : Live lifetime now oldest) (hentry : entry ∈ oldest :: queue) :
    Live lifetime now entry := by
  rcases List.mem_cons.mp hentry with rfl | hbehind
  · exact hlive
  · have hle := List.rel_of_pairwise_cons hsorted hbehind
    exact (Nat.sub_le_sub_left hle now).trans_lt hlive

/-- Assumes: times that do not decrease. A purge removes what has expired, and nothing else. -/
theorem mem_purge_iff {entry : Key × ℕ}
    (hsorted : queue.Pairwise fun older newer ↦ older.2 ≤ newer.2) :
    entry ∈ purge lifetime now queue ↔ entry ∈ queue ∧ Live lifetime now entry := by
  induction queue with
  | nil => simp [purge]
  | cons oldest queue ih =>
    unfold purge
    split_ifs with hlive
    · exact (and_iff_left_of_imp (live_of_behind hsorted hlive)).symm
    · rw [ih hsorted.of_cons]
      constructor
      · rintro ⟨hentry, hfresh⟩
        exact ⟨List.mem_cons_of_mem _ hentry, hfresh⟩
      · rintro ⟨hentry, hfresh⟩
        rcases List.mem_cons.mp hentry with rfl | hbehind
        · exact absurd hfresh hlive
        · exact ⟨hbehind, hfresh⟩

/-- Assumes: times that do not decrease. What has not given way is live. -/
theorem live_of_mem_room {entry : Key × ℕ}
    (hsorted : queue.Pairwise fun older newer ↦ older.2 ≤ newer.2)
    (hentry : entry ∈ room capacity lifetime now queue) : Live lifetime now entry := by
  induction queue with
  | nil => exact absurd hentry List.not_mem_nil
  | cons oldest queue ih =>
    unfold room at hentry
    split_ifs at hentry with hfits
    · exact live_of_behind hsorted hfits.2 hentry
    · exact ih hsorted.of_cons hentry

/-- Assumes: a key that the queue does not hold alive. There is no entry of it in the room. -/
theorem not_mem_room {key : Key}
    (hsorted : queue.Pairwise fun older newer ↦ older.2 ≤ newer.2)
    (hholds : ¬ Holds lifetime now queue key) :
    key ∉ (room capacity lifetime now queue).map Prod.fst := by
  intro hkey
  obtain ⟨⟨_, at'⟩, hentry, rfl⟩ := List.mem_map.mp hkey
  exact hholds ⟨at', (room_suffix queue).subset hentry, live_of_mem_room hsorted hentry⟩

/-- Assumes: a positive capacity, and a key that the queue does not hold alive. The queue with the
key at its back is well formed. -/
theorem WellFormed.insert {key : Key} (hqueue : WellFormed capacity now queue)
    (hcapacity : 0 < capacity) (hholds : ¬ Holds lifetime now queue key) :
    WellFormed capacity now (room capacity lifetime now queue ++ [(key, now)]) := by
  have hroom : WellFormed capacity now (room capacity lifetime now queue) :=
    hqueue.of_suffix (room_suffix queue)
  constructor
  · rw [List.map_append, List.map_singleton, List.nodup_append]
    refine ⟨hroom.nodup, List.nodup_singleton key, ?_⟩
    rintro held hheld _ hnew rfl
    obtain rfl := List.mem_singleton.mp hnew
    exact not_mem_room hqueue.sorted hholds hheld
  · rw [List.pairwise_append]
    refine ⟨hroom.sorted, List.pairwise_singleton _ _, fun entry hentry added hadded ↦ ?_⟩
    obtain rfl := List.mem_singleton.mp hadded
    exact hroom.past entry hentry
  · intro entry hentry
    rcases List.mem_append.mp hentry with hkept | hadded
    · exact hroom.past entry hkept
    · obtain rfl := List.mem_singleton.mp hadded
      exact le_refl now
  · rw [List.length_append, List.length_singleton]
    exact length_room_lt hcapacity queue

/-! ### The history of a queue -/

/-- A whole queue of other keys came in a row, without a repetition. -/
def Displaced (capacity : ℕ) (key : Key) (later : List (Key × ℕ)) : Prop :=
  ∃ since, since <:+: later ∧ since.length = capacity ∧ (key :: since.map Prod.fst).Nodup

theorem Displaced.append {key : Key} {later : List (Key × ℕ)}
    (hdisplaced : Displaced capacity key later) (added : List (Key × ℕ)) :
    Displaced capacity key (later ++ added) := by
  obtain ⟨since, hinfix, hlength, hnodup⟩ := hdisplaced
  exact ⟨since, hinfix.trans (List.prefix_append later added).isInfix, hlength, hnodup⟩

/-- The queue is the end of the history. What is in the history and neither in the queue nor expired
has been displaced. -/
structure Traced (capacity lifetime now : ℕ) (history queue : List (Key × ℕ)) : Prop where
  suffix : queue <:+ history
  lost : ∀ earlier key at' later, history = earlier ++ (key, at') :: later →
    (key, at') ∈ queue ∨ lifetime ≤ now - at' ∨ Displaced capacity key later

theorem Traced.nil (capacity lifetime now : ℕ) :
    Traced capacity lifetime now ([] : List (Key × ℕ)) [] :=
  ⟨List.suffix_refl _, fun _ _ _ _ hhistory ↦ by simp at hhistory⟩

theorem Traced.later {now' : ℕ} (htraced : Traced capacity lifetime now history queue)
    (hle : now ≤ now') : Traced capacity lifetime now' history queue where
  suffix := htraced.suffix
  lost earlier key at' later hhistory := by
    rcases htraced.lost earlier key at' later hhistory with hheld | hexpired | hdisplaced
    · exact .inl hheld
    · exact .inr (.inl (hexpired.trans (Nat.sub_le_sub_right hle at')))
    · exact .inr (.inr hdisplaced)

/-- A purge keeps the trace. -/
theorem Traced.purge (hqueue : WellFormed capacity now queue)
    (htraced : Traced capacity lifetime now history queue) :
    Traced capacity lifetime now history (purge lifetime now queue) where
  suffix := (purge_suffix queue).trans htraced.suffix
  lost earlier key at' later hhistory := by
    rcases htraced.lost earlier key at' later hhistory with hheld | hgone
    · by_cases hlive : Live lifetime now (key, at')
      · exact .inl ((mem_purge_iff hqueue.sorted).mpr ⟨hheld, hlive⟩)
      · exact .inr (.inl (not_lt.mp hlive))
    · exact .inr hgone

/-- Assumes: a queue without a repetition at the end of the history. What is behind an entry in the
queue is behind every occurrence of it in the history. -/
theorem suffix_of_occurrence {entry : Key × ℕ} {before behind earlier later : List (Key × ℕ)}
    (hnodup : (before ++ entry :: behind).Nodup)
    (hsuffix : before ++ entry :: behind <:+ earlier ++ entry :: later) : behind <:+ later := by
  have hfresh : entry ∉ behind := (List.nodup_cons.mp (List.nodup_append.mp hnodup).2.1).1
  have hbehind : behind <:+ earlier ++ entry :: later :=
    ((List.suffix_cons entry behind).trans (List.suffix_append before _)).trans hsuffix
  rcases List.suffix_or_suffix_of_suffix hbehind (List.suffix_append earlier _) with hle | hge
  · rcases List.suffix_cons_iff.mp hle with rfl | hrest
    · exact absurd List.mem_cons_self hfresh
    · exact hrest
  · exact absurd (hge.subset List.mem_cons_self) hfresh

/-- Assumes: a key that the queue does not hold alive. A live entry of the queue either stays or has
been displaced once the key has come. -/
theorem WellFormed.kept_or_displaced {key added : Key} {at' : ℕ}
    {before behind : List (Key × ℕ)}
    (hqueue : WellFormed capacity now (before ++ (key, at') :: behind))
    (hholds : ¬ Holds lifetime now (before ++ (key, at') :: behind) added)
    (hlive : Live lifetime now (key, at')) :
    (key, at') ∈ room capacity lifetime now (before ++ (key, at') :: behind) ∨
      Displaced capacity key (behind ++ [(added, now)]) := by
  rcases mem_room_or hlive with hkept | hfull
  · exact .inl hkept
  · refine .inr ⟨behind ++ [(added, now)], List.infix_refl _, ?_, ?_⟩
    · have hlength := hqueue.length_le
      rw [List.length_append, List.length_cons] at hlength
      rw [List.length_append, List.length_singleton]
      omega
    · have hrest := hqueue.of_suffix (List.suffix_append before _)
      have hadded : added ∉ ((key, at') :: behind).map Prod.fst := by
        intro hmem
        obtain ⟨⟨_, insertedAt⟩, hentry, rfl⟩ := List.mem_map.mp hmem
        exact hholds ⟨insertedAt, List.mem_append_right _ hentry,
          live_of_behind hrest.sorted hlive hentry⟩
      have hnodup := hrest.nodup
      rw [List.map_cons] at hnodup hadded
      rw [List.map_append, List.map_singleton, ← List.cons_append, List.nodup_append]
      refine ⟨hnodup, List.nodup_singleton added, ?_⟩
      rintro held hheld _ hnew rfl
      obtain rfl := List.mem_singleton.mp hnew
      exact hadded hheld

/-- Assumes: a key that the queue does not hold alive. The trace is kept when the key comes. -/
theorem Traced.insert {key : Key} (hqueue : WellFormed capacity now queue)
    (htraced : Traced capacity lifetime now history queue)
    (hholds : ¬ Holds lifetime now queue key) :
    Traced capacity lifetime now (history ++ [(key, now)])
      (room capacity lifetime now queue ++ [(key, now)]) where
  suffix := by
    obtain ⟨lost, hlost⟩ := (room_suffix queue).trans htraced.suffix
    exact ⟨lost, by rw [← List.append_assoc, hlost]⟩
  lost earlier old at' later hhistory := by
    rcases List.eq_nil_or_concat later with rfl | ⟨later, last, rfl⟩
    · obtain ⟨-, hlast⟩ := List.append_inj' hhistory rfl
      rw [← List.singleton_inj.mp hlast]
      exact .inl (List.mem_append_right _ (List.mem_singleton_self _))
    · rw [List.concat_eq_append, ← List.cons_append, ← List.append_assoc] at hhistory
      obtain ⟨hold, hlast⟩ := List.append_inj' hhistory rfl
      obtain rfl := List.singleton_inj.mp hlast
      rw [List.concat_eq_append]
      rcases htraced.lost earlier old at' later hold with hheld | hexpired | hdisplaced
      · by_cases hlive : Live lifetime now (old, at')
        · obtain ⟨before, behind, rfl⟩ := List.append_of_mem hheld
          rcases hqueue.kept_or_displaced hholds hlive with hkept | ⟨since, hinfix, hsince⟩
          · exact .inl (List.mem_append_left _ hkept)
          · obtain ⟨skipped, hskipped⟩ :=
              suffix_of_occurrence hqueue.nodup.of_map (hold ▸ htraced.suffix)
            refine .inr (.inr ⟨since, hinfix.trans (List.IsSuffix.isInfix ⟨skipped, ?_⟩), hsince⟩)
            rw [← List.append_assoc, hskipped]
        · exact .inr (.inl (not_lt.mp hlive))
      · exact .inr (.inl hexpired)
      · exact .inr (.inr (hdisplaced.append _))

end Relayna.Library.ExpiringQueue

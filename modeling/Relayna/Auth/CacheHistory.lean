import Relayna.Auth.VerificationCache
import Relayna.Library.ExpiringQueue

/-!
# Runs of the verification cache

The cache keeps its entries twice: a map gives the instant of a proof, and a queue gives the order
in which the proofs came. Here the two are read as one queue of proofs with instants, which
`Represents` says, and every operation becomes one of `Library.ExpiringQueue`.

`cache_represented` is the result over whole runs, whose clock never goes back. The queue and the
map have the same proofs, of which there are at most 1024, in the order of their instants. A lookup
finds only a proof that an insertion brought in, less than sixty seconds before, without finding it
there. A proof that is lost before it expires was followed by 1024 others. A purge removes what has
expired, and nothing else.
-/

set_option autoImplicit false
set_option relaxedAutoImplicit false

namespace Relayna.Auth

open Library.ExpiringQueue

variable {Proof : Type} [DecidableEq Proof]

/-! ### Calls -/

inductive CacheOperation (Proof : Type)
  | contains (proof : Proof)
  | insert (proof : Proof)
  | purgeExpired

/-- An operation with the instant it is given. -/
structure CacheCall (Proof : Type) where
  operation : CacheOperation Proof
  now : ℕ

def Entries.call (entries : Entries Proof) (call : CacheCall Proof) : Entries Proof :=
  match call.operation with
  | .contains _ => entries
  | .insert proof => entries.insert proof call.now
  | .purgeExpired => entries.purgeExpired call.now

/-- What calls leave, one after the other. -/
def Entries.after (entries : Entries Proof) : List (CacheCall Proof) → Entries Proof
  | [] => entries
  | call :: calls => (entries.call call).after calls

/-- The proof that a call brings in, with its instant: that of an insertion which does not find its
proof alive. -/
def Entries.broughtIn (entries : Entries Proof) (call : CacheCall Proof) : List (Proof × ℕ) :=
  match call.operation with
  | .contains _ => []
  | .insert proof => if entries.contains proof call.now then [] else [(proof, call.now)]
  | .purgeExpired => []

/-- The proofs that calls bring in. -/
def Entries.history (entries : Entries Proof) : List (CacheCall Proof) → List (Proof × ℕ)
  | [] => []
  | call :: calls => entries.broughtIn call ++ (entries.call call).history calls

/-- A proof of the history came with an insertion that did not find it alive. -/
theorem Entries.exists_of_mem_history {entries : Entries Proof} {calls : List (CacheCall Proof)}
    {proof : Proof} {at' : ℕ} (hmem : (proof, at') ∈ entries.history calls) :
    ∃ before behind, calls = before ++ ⟨.insert proof, at'⟩ :: behind ∧
      (entries.after before).contains proof at' = false := by
  induction calls generalizing entries with
  | nil => exact absurd hmem List.not_mem_nil
  | cons call calls ih =>
    rcases List.mem_append.mp hmem with hcame | hlater
    · obtain ⟨operation, now⟩ := call
      cases operation with
      | contains other => exact absurd hcame List.not_mem_nil
      | insert other =>
        simp only [broughtIn] at hcame
        split_ifs at hcame with hfound
        · exact absurd hcame List.not_mem_nil
        · obtain ⟨rfl, rfl⟩ := Prod.mk.inj (List.mem_singleton.mp hcame)
          exact ⟨[], calls, rfl, Bool.eq_false_of_not_eq_true hfound⟩
      | purgeExpired => exact absurd hcame List.not_mem_nil
    · obtain ⟨before, behind, rfl, habsent⟩ := ih hlater
      exact ⟨call :: before, behind, rfl, habsent⟩

/-! ### The map and the order as one queue -/

/-- The order lists the proofs of the queue, and the map has their instants. -/
structure Represents (entries : Entries Proof) (queue : List (Proof × ℕ)) : Prop where
  order_eq : entries.order = queue.map Prod.fst
  lookup_iff : ∀ proof at', entries.proofs.lookup proof = some at' ↔ (proof, at') ∈ queue

section Operations

variable {entries : Entries Proof} {proofs : AList fun _ : Proof ↦ ℕ} {order : List Proof}
  {queue : List (Proof × ℕ)} {proof : Proof} {now : ℕ}

theorem Represents.empty : Represents (Entries.empty : Entries Proof) [] where
  order_eq := rfl
  lookup_iff proof at' := by simp [Entries.empty]

theorem Represents.contains_iff (hqueue : Represents entries queue) :
    entries.contains proof now = true ↔ Holds timeToLive now queue proof := by
  simp only [Entries.contains, Option.any_eq_true, decide_eq_true_eq, hqueue.lookup_iff]
  rfl

theorem Represents.contains_oldest {oldest : Proof} {at' : ℕ}
    (hqueue : Represents ⟨proofs, order⟩ ((oldest, at') :: queue)) :
    Entries.contains ⟨proofs, order⟩ oldest now = true ↔
      Live timeToLive now (oldest, at') := by
  have hlookup : proofs.lookup oldest = some at' :=
    (hqueue.lookup_iff oldest at').mpr List.mem_cons_self
  simp [Entries.contains, hlookup]

/-- The map has as many proofs as the queue. -/
theorem Represents.length_eq (hqueue : Represents entries queue)
    (hnodup : (queue.map Prod.fst).Nodup) : entries.proofs.entries.length = queue.length := by
  have hkeys : entries.proofs.keys.Perm (queue.map Prod.fst) := by
    rw [List.perm_ext_iff_of_nodup entries.proofs.keys_nodup hnodup]
    intro proof
    rw [← AList.mem_keys, ← AList.lookup_isSome, Option.isSome_iff_exists]
    simp [hqueue.lookup_iff]
  simpa [AList.keys, List.keys] using hkeys.length_eq

/-- `Entries::remove_oldest` removes the front of the queue. -/
theorem Represents.removeOldest {oldest : Proof} {at' : ℕ}
    (hqueue : Represents ⟨proofs, oldest :: order⟩ ((oldest, at') :: queue))
    (hfresh : oldest ∉ queue.map Prod.fst) : Represents ⟨proofs.erase oldest, order⟩ queue where
  order_eq := (List.cons.inj hqueue.order_eq).2
  lookup_iff proof insertedAt := by
    have hlookup := hqueue.lookup_iff proof insertedAt
    by_cases hsame : proof = oldest
    · subst hsame
      have habsent : (proof, insertedAt) ∉ queue := fun hmem ↦
        hfresh (List.mem_map_of_mem hmem)
      simp [AList.lookup_erase, habsent]
    · rw [AList.lookup_erase_ne hsame]
      simpa [hsame] using hlookup

/-- A purge of the cache is a purge of its queue. -/
theorem Represents.purgeExpired (hqueue : Represents entries queue)
    (hnodup : (queue.map Prod.fst).Nodup) :
    Represents (entries.purgeExpired now) (purge timeToLive now queue) := by
  obtain ⟨proofs, order⟩ := entries
  obtain rfl : order = queue.map Prod.fst := hqueue.order_eq
  show Represents (purgeExpiredFrom now (queue.map Prod.fst) proofs) _
  induction queue generalizing proofs with
  | nil => exact hqueue
  | cons entry queue ih =>
    obtain ⟨oldest, at'⟩ := entry
    obtain ⟨hfresh, hrest⟩ := List.nodup_cons.mp hnodup
    simp only [List.map_cons, purgeExpiredFrom, purge]
    have hcontains : _ ↔ Live timeToLive now (oldest, at') := hqueue.contains_oldest
    split_ifs with hfound hlive hlive
    · exact hqueue
    · exact absurd (hcontains.mp hfound) hlive
    · exact absurd (hcontains.mpr hlive) hfound
    · exact ih hrest _ (hqueue.removeOldest hfresh)

/-- The loop of an insertion leaves the room of the queue. -/
theorem Represents.makeRoom (hqueue : Represents entries queue)
    (hnodup : (queue.map Prod.fst).Nodup) :
    Represents (makeRoomFrom now entries.order entries.proofs)
      (room capacity timeToLive now queue) := by
  obtain ⟨proofs, order⟩ := entries
  obtain rfl : order = queue.map Prod.fst := hqueue.order_eq
  show Represents (makeRoomFrom now (queue.map Prod.fst) proofs) _
  induction queue generalizing proofs with
  | nil => exact hqueue
  | cons entry queue ih =>
    obtain ⟨oldest, at'⟩ := entry
    obtain ⟨hfresh, hrest⟩ := List.nodup_cons.mp hnodup
    have hlength : proofs.entries.length = queue.length + 1 := hqueue.length_eq hnodup
    simp only [List.map_cons, makeRoomFrom, room, hlength]
    have hcontains : _ ↔ Live timeToLive now (oldest, at') := hqueue.contains_oldest
    split_ifs with hfound hlive hlive
    · exact hqueue
    · exact absurd ⟨hfound.1, hcontains.mp hfound.2⟩ hlive
    · exact absurd ⟨hlive.1, hcontains.mpr hlive.2⟩ hfound
    · exact ih hrest _ (hqueue.removeOldest hfresh)

/-- Assumes: a queue without a repetition that does not hold the proof alive. The insertion leaves
the room of the queue and the proof behind it. -/
theorem Represents.insert (hqueue : Represents entries queue)
    (hformed : WellFormed capacity now queue) (habsent : ¬ Holds timeToLive now queue proof) :
    Represents (entries.insert proof now)
      (room capacity timeToLive now queue ++ [(proof, now)]) := by
  have hroom : Represents (makeRoomFrom now entries.order entries.proofs)
    (room capacity timeToLive now queue) := hqueue.makeRoom hformed.nodup
  have hfresh : ∀ at', (proof, at') ∉ room capacity timeToLive now queue := fun at' hmem ↦
    not_mem_room hformed.sorted habsent (List.mem_map_of_mem hmem)
  have hvacant : (makeRoomFrom now entries.order entries.proofs).proofs.lookup proof = none := by
    rw [Option.eq_none_iff_forall_ne_some]
    intro at' hlookup
    exact hfresh at' ((hroom.lookup_iff proof at').mp hlookup)
  have hcontains : ¬ entries.contains proof now = true := fun hfound ↦
    habsent (hqueue.contains_iff.mp hfound)
  unfold Entries.insert
  rw [if_neg hcontains]
  dsimp only
  rw [hvacant, Option.isSome_none, if_neg Bool.false_ne_true]
  constructor
  · simp [hroom.order_eq]
  · intro other at'
    by_cases hsame : other = proof
    · subst hsame
      simp [AList.lookup_insert, hfresh at', eq_comm]
    · rw [AList.lookup_insert_ne hsame, hroom.lookup_iff]
      simp [hsame]

end Operations

/-! ### Runs -/

/-- The entries are a well-formed queue that ends the history. -/
def Remembers (now : ℕ) (history : List (Proof × ℕ)) (entries : Entries Proof) : Prop :=
  ∃ queue, Represents entries queue ∧ WellFormed capacity now queue ∧
    Traced capacity timeToLive now history queue

section Runs

variable {entries : Entries Proof} {history : List (Proof × ℕ)} {now : ℕ}
  {call : CacheCall Proof} {calls : List (CacheCall Proof)}

theorem Remembers.empty (now : ℕ) : Remembers now [] (Entries.empty : Entries Proof) :=
  ⟨[], .empty, .nil capacity now, .nil capacity timeToLive now⟩

theorem Remembers.later {now' : ℕ} (hentries : Remembers now history entries) (hle : now ≤ now') :
    Remembers now' history entries := by
  obtain ⟨queue, hqueue, hformed, htraced⟩ := hentries
  exact ⟨queue, hqueue, hformed.later hle, htraced.later hle⟩

/-- One call, at the present time. -/
theorem Remembers.step (hentries : Remembers call.now history entries) :
    Remembers call.now (history ++ entries.broughtIn call) (entries.call call) := by
  obtain ⟨queue, hqueue, hformed, htraced⟩ := hentries
  obtain ⟨operation, now⟩ := call
  cases operation with
  | contains proof =>
    show Remembers now (history ++ []) entries
    rw [List.append_nil]
    exact ⟨queue, hqueue, hformed, htraced⟩
  | insert proof =>
    show Remembers now (history ++ if _ then [] else [(proof, now)]) (entries.insert proof now)
    by_cases hfound : entries.contains proof now = true
    · rw [if_pos hfound, List.append_nil, Entries.insert, if_pos hfound]
      exact ⟨queue, hqueue, hformed, htraced⟩
    · rw [if_neg hfound]
      have habsent : ¬ Holds timeToLive now queue proof := fun hholds ↦
        hfound (hqueue.contains_iff.mpr hholds)
      exact ⟨_, hqueue.insert hformed habsent, hformed.insert (by decide) habsent,
        htraced.insert hformed habsent⟩
  | purgeExpired =>
    show Remembers now (history ++ []) (entries.purgeExpired now)
    rw [List.append_nil]
    exact ⟨_, hqueue.purgeExpired hformed.nodup, hformed.of_suffix (purge_suffix queue),
      htraced.purge hformed⟩

/-- Assumes: a clock that does not go back. Calls, one after the other. -/
theorem Remembers.after {start : ℕ} (hentries : Remembers start history entries)
    (hstart : ∀ call ∈ calls, start ≤ call.now)
    (hclock : calls.Pairwise fun earlier later ↦ earlier.now ≤ later.now)
    (hnow : ∀ call ∈ calls, call.now ≤ now) (hle : start ≤ now) :
    Remembers now (history ++ entries.history calls) (entries.after calls) := by
  induction calls generalizing start history entries with
  | nil =>
    show Remembers now (history ++ []) entries
    rw [List.append_nil]
    exact hentries.later hle
  | cons call calls ih =>
    obtain ⟨hbehind, hrest⟩ := List.pairwise_cons.mp hclock
    show Remembers now (history ++ (entries.broughtIn call ++ _)) _
    rw [← List.append_assoc]
    exact ih (hentries.later (hstart call List.mem_cons_self)).step hbehind hrest
      (fun later hlater ↦ hnow later (List.mem_cons_of_mem _ hlater))
      (hnow call List.mem_cons_self)

end Runs

/-- What holds of the cache after calls, at an instant that is not before them. -/
structure Represented (calls : List (CacheCall Proof)) (now : ℕ) : Prop where
  /-- The order has every proof once. -/
  order_nodup : (Entries.empty.after calls).order.Nodup
  /-- The order has the proofs of the map. -/
  mem_order_iff : ∀ proof,
    proof ∈ (Entries.empty.after calls).order ↔ proof ∈ (Entries.empty.after calls).proofs
  /-- The instants do not decrease along the order. -/
  order_sorted : (Entries.empty.after calls).order.Pairwise fun older newer ↦
    ∀ at' ∈ (Entries.empty.after calls).proofs.lookup older,
      ∀ at'' ∈ (Entries.empty.after calls).proofs.lookup newer, at' ≤ at''
  /-- There are no more proofs than the capacity. -/
  length_le : (Entries.empty.after calls).proofs.entries.length ≤ 1024
  /-- What is found was inserted in the last sixty seconds, by a call that did not find it. -/
  found : ∀ proof, (Entries.empty.after calls).contains proof now = true →
    ∃ before at' behind, calls = before ++ ⟨.insert proof, at'⟩ :: behind ∧
      (Entries.empty.after before).contains proof at' = false ∧
      at' ≤ now ∧ now < at' + 60000000000
  /-- What is not found, though it came in the last sixty seconds, was followed by 1024 others. -/
  lost : ∀ earlier proof at' later,
    Entries.empty.history calls = earlier ++ (proof, at') :: later → now < at' + 60000000000 →
    (Entries.empty.after calls).contains proof now = false →
    ∃ since, since <:+: later ∧ since.length = 1024 ∧ (proof :: since.map Prod.fst).Nodup
  /-- A purge removes what came sixty seconds before or earlier, and nothing else. -/
  purged : ∀ proof at',
    ((Entries.empty.after calls).purgeExpired now).proofs.lookup proof = some at' ↔
      (Entries.empty.after calls).proofs.lookup proof = some at' ∧ now < at' + 60000000000

/-- Assumes: calls whose clock does not go back, and an instant that is not before them. The cache
represents what they brought in. -/
theorem cache_represented (calls : List (CacheCall Proof)) (now : ℕ)
    (hclock : calls.Pairwise fun earlier later ↦ earlier.now ≤ later.now)
    (hnow : ∀ call ∈ calls, call.now ≤ now) : Represented calls now := by
  have hempty : Remembers 0 [] (Entries.empty : Entries Proof) := .empty 0
  obtain ⟨queue, hqueue, hformed, htraced⟩ : Remembers now (Entries.empty.history calls) _ :=
    hempty.after (fun _ _ ↦ Nat.zero_le _) hclock hnow (Nat.zero_le now)
  have hfresh : ∀ at', now - at' < timeToLive ↔ now < at' + 60000000000 := fun at' ↦ by
    rw [timeToLive]
    omega
  constructor
  · rw [hqueue.order_eq]
    exact hformed.nodup
  · intro proof
    rw [← AList.lookup_isSome, Option.isSome_iff_exists, hqueue.order_eq]
    simp [hqueue.lookup_iff]
  · rw [hqueue.order_eq, List.pairwise_map]
    refine hformed.sorted.imp_of_mem fun {older newer} holder hnewer hle at' hat' at'' hat'' ↦ ?_
    have holdest := (hqueue.lookup_iff older.1 older.2).mpr holder
    have hnewest := (hqueue.lookup_iff newer.1 newer.2).mpr hnewer
    rw [Option.mem_def, holdest] at hat'
    rw [Option.mem_def, hnewest] at hat''
    rwa [← Option.some.inj hat', ← Option.some.inj hat'']
  · rw [hqueue.length_eq hformed.nodup]
    exact hformed.length_le
  · intro proof hfound
    obtain ⟨at', hmem, hlive⟩ := hqueue.contains_iff.mp hfound
    obtain ⟨before, behind, hcalls, habsent⟩ :=
      Entries.exists_of_mem_history (htraced.suffix.subset hmem)
    exact ⟨before, at', behind, hcalls, habsent, hformed.past _ hmem, (hfresh at').mp hlive⟩
  · intro earlier proof at' later hhistory hlive habsent
    rcases htraced.lost earlier proof at' later hhistory with hheld | hexpired | hdisplaced
    · have hfound := hqueue.contains_iff.mpr ⟨at', hheld, (hfresh at').mpr hlive⟩
      rw [habsent] at hfound
      exact absurd hfound Bool.false_ne_true
    · exact absurd ((hfresh at').mpr hlive) (not_lt.mpr hexpired)
    · exact hdisplaced
  · intro proof at'
    rw [(hqueue.purgeExpired hformed.nodup).lookup_iff, hqueue.lookup_iff,
      mem_purge_iff hformed.sorted, ← hfresh at']

/-- A repeated insertion and a lookup, fifty-nine seconds after the first insertion. -/
theorem cache_represented_repeated :
    Represented [⟨.insert 0, 0⟩, ⟨.insert 0, 59000000000⟩, ⟨.contains 0, 59000000000⟩]
        59000000000 ∧
      (Entries.empty.after
          [⟨.insert 0, 0⟩, ⟨.insert 0, 59000000000⟩, ⟨.contains 0, 59000000000⟩]).proofs.lookup
        0 = some 0 := by
  refine ⟨cache_represented _ _ ?_ ?_, rfl⟩
  · decide
  · decide

end Relayna.Auth

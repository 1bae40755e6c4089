import Mathlib.Algebra.Order.Group.Int
import Mathlib.Algebra.Ring.Int.Defs
import Mathlib.Algebra.Order.BigOperators.Group.List
import Mathlib.Data.List.AList

/-!
# Counters that expire unless they are touched

A store holds counters under keys. Adding to a counter renews its lease: the counter is forgotten
when the clock passes the end of the lease, and the next addition then starts from zero. A counter
that would pass the ceiling of its integer type keeps its value, and the addition gives no answer.

`Exact` is the invariant of a store whose keys are each used inside an interval no longer than the
lease: every answer is the sum of all amounts added to the key up to and including the addition.
Every timely addition keeps it (`Exact.step`), and `sum_answered_le` draws the consequence for a
limiter: what was answered with at most `limit` sums to at most `limit`, in whatever order the
parties took part.
-/

set_option autoImplicit false
set_option relaxedAutoImplicit false

namespace Relayna.Library.ExpiringCounters

variable {Key : Type*} [DecidableEq Key]

/-! ### The store -/

/-- A counter and the last instant at which it still exists. -/
structure Cell where
  value : ℤ
  expiresAt : ℤ
  deriving DecidableEq

/-- The counters of a store and its clock. -/
structure Store (Key : Type*) where
  now : ℤ
  cells : AList fun _ : Key ↦ Cell

/-- The value of a counter that has not expired. -/
def Store.read (store : Store Key) (key : Key) : Option ℤ :=
  ((store.cells.lookup key).filter fun cell ↦ store.now ≤ cell.expiresAt).map Cell.value

/-- The counter with a renewed lease. -/
def Store.write (lease : ℤ) (store : Store Key) (key : Key) (value : ℤ) : Store Key :=
  { store with cells := store.cells.insert key ⟨value, store.now + lease⟩ }

/-- Add to a counter and renew its lease. -/
def Store.increment (lease ceiling : ℤ) (store : Store Key) (key : Key) (amount : ℤ) :
    Option ℤ × Store Key :=
  let old := store.read key
  let value := old.getD 0 + amount
  if value ≤ ceiling then (some value, store.write lease key value)
  else (none, (old.map (store.write lease key)).getD store)

/-! ### Runs that remember what they added -/

/-- An addition to a key, with the answer. -/
structure Entry (Key : Type*) where
  key : Key
  amount : ℤ
  answer : ℤ
  deriving DecidableEq

/-- A store, and the additions that were answered, the newest first. -/
structure History (Key : Type*) where
  store : Store Key
  entries : List (Entry Key)

/-- What a run is made of. -/
inductive Action (Key : Type*)
  | wait (elapsed : ℕ)
  | add (key : Key) (amount : ℤ)
  deriving DecidableEq

/-- One action on a store and its history. -/
def step (lease ceiling : ℤ) (history : History Key) : Action Key → History Key
  | .wait elapsed =>
    { history with store := { history.store with now := history.store.now + elapsed } }
  | .add key amount =>
    let (answer, store) := history.store.increment lease ceiling key amount
    { store, entries := (answer.map (Entry.mk key amount)).toList ++ history.entries }

def empty (now : ℤ) : History Key :=
  ⟨⟨now, ∅⟩, []⟩

/-- What the entries add to a key. -/
def demand (key : Key) (entries : List (Entry Key)) : ℤ :=
  ((entries.filter fun entry ↦ entry.key = key).map Entry.amount).sum

/-- Every answer is the demand at its key so far. -/
def AnswersExact : List (Entry Key) → Prop
  | [] => True
  | entry :: older =>
    0 ≤ entry.amount ∧ entry.answer = demand entry.key (entry :: older) ∧ AnswersExact older

theorem demand_cons_self (entry : Entry Key) (older : List (Entry Key)) :
    demand entry.key (entry :: older) = entry.amount + demand entry.key older := by
  simp [demand]

theorem demand_cons_of_ne {entry : Entry Key} {key : Key} (hkey : entry.key ≠ key)
    (older : List (Entry Key)) : demand key (entry :: older) = demand key older := by
  simp [demand, hkey]

theorem demand_eq_zero {key : Key} {entries : List (Entry Key)}
    (hnone : ∀ entry ∈ entries, entry.key ≠ key) : demand key entries = 0 := by
  have hfilter : entries.filter (fun entry ↦ entry.key = key) = [] :=
    List.filter_eq_nil_iff.mpr fun entry hentry ↦ by simpa using hnone entry hentry
  rw [demand, hfilter]
  rfl

theorem demand_nonneg {entries : List (Entry Key)} (hexact : AnswersExact entries) (key : Key) :
    0 ≤ demand key entries := by
  induction entries with
  | nil => exact le_rfl
  | cons entry older ih =>
    obtain ⟨hamount, -, holder⟩ := hexact
    by_cases hkey : entry.key = key
    · subst hkey
      rw [demand_cons_self]
      exact Int.add_nonneg hamount (ih holder)
    · rw [demand_cons_of_ne hkey]
      exact ih holder

theorem demand_le_cons {entry : Entry Key} (hamount : 0 ≤ entry.amount) (key : Key)
    (older : List (Entry Key)) : demand key older ≤ demand key (entry :: older) := by
  by_cases hkey : entry.key = key
  · subst hkey
    rw [demand_cons_self]
    omega
  · rw [demand_cons_of_ne hkey]

/-- Assumes: exact answers. An answer is at most the demand. -/
theorem answer_le_demand {entries : List (Entry Key)} (hexact : AnswersExact entries)
    {entry : Entry Key} (hentry : entry ∈ entries) : entry.answer ≤ demand entry.key entries := by
  induction entries with
  | nil => exact absurd hentry List.not_mem_nil
  | cons newest older ih =>
    obtain ⟨hamount, hanswer, holder⟩ := hexact
    obtain rfl | hold := List.mem_cons.mp hentry
    · exact hanswer.le
    · exact (ih holder hold).trans (demand_le_cons hamount entry.key older)

/-- Assumes: exact answers. An answer contains the amount it was given for. -/
theorem amount_le_answer {entries : List (Entry Key)} (hexact : AnswersExact entries)
    {entry : Entry Key} (hentry : entry ∈ entries) : entry.amount ≤ entry.answer := by
  induction entries with
  | nil => exact absurd hentry List.not_mem_nil
  | cons newest older ih =>
    obtain ⟨-, hanswer, holder⟩ := hexact
    obtain rfl | hold := List.mem_cons.mp hentry
    · rw [hanswer, demand_cons_self]
      exact le_add_of_nonneg_right (demand_nonneg holder entry.key)
    · exact ih holder hold

/-- Assumes: exact answers. What was added under a test of the entries is no more than the whole
demand. -/
theorem sum_filter_le_demand (key : Key) (test : Entry Key → Bool) {entries : List (Entry Key)}
    (hexact : AnswersExact entries) :
    ((entries.filter fun entry ↦ entry.key = key ∧ test entry).map Entry.amount).sum ≤
      demand key entries := by
  induction entries with
  | nil => rfl
  | cons entry older ih =>
    obtain ⟨hamount, _, holder⟩ := hexact
    have hle := ih holder
    by_cases hkey : entry.key = key
    · subst hkey
      rw [demand_cons_self]
      by_cases htest : test entry
      · simpa [htest] using hle
      · have hskip : ((entry :: older).filter fun other ↦
            other.key = entry.key ∧ test other) =
            older.filter fun other ↦ other.key = entry.key ∧ test other := by simp [htest]
        rw [hskip]
        omega
    · rw [demand_cons_of_ne hkey]
      simpa [hkey] using hle

/-- Assumes: exact answers. The entries of a key that were answered with at most `limit` add at most
`limit`, since the newest of them was answered with the sum of all before it. -/
theorem sum_answered_le {entries : List (Entry Key)} (hexact : AnswersExact entries) (key : Key)
    {limit : ℤ} (hlimit : 0 ≤ limit) :
    ((entries.filter fun entry ↦ entry.key = key ∧ entry.answer ≤ limit).map Entry.amount).sum ≤
      limit := by
  induction entries with
  | nil => exact hlimit
  | cons entry older ih =>
    by_cases hfirst : entry.key = key ∧ entry.answer ≤ limit
    · obtain ⟨rfl, hanswer⟩ := hfirst
      have hwhole := sum_filter_le_demand entry.key (fun other ↦ other.answer ≤ limit) hexact
      simp only [decide_eq_true_eq] at hwhole
      exact hwhole.trans (hexact.2.1 ▸ hanswer)
    · rw [List.filter_cons_of_neg (by simpa using hfirst)]
      exact ih hexact.2.2

/-! ### The invariant -/

section Windows

variable (lease ceiling : ℤ) (opens closes : Key → ℤ)

/-- The answers are exact, and the store still holds the demand of every key that was used, for as
long as the key may be used. -/
structure Exact (history : History Key) : Prop where
  answers : AnswersExact history.entries
  held : ∀ entry ∈ history.entries, ∃ cell, history.store.cells.lookup entry.key = some cell ∧
    cell.value = demand entry.key history.entries ∧ opens entry.key + lease ≤ cell.expiresAt
  fresh : ∀ key, (∀ entry ∈ history.entries, entry.key ≠ key) →
    history.store.cells.lookup key = none

/-- An addition is of an amount that is not negative, at a time when its key may be used. -/
def Timely (history : History Key) : Action Key → Prop
  | .wait _ => True
  | .add key amount =>
    0 ≤ amount ∧ amount ≤ ceiling ∧ opens key ≤ history.store.now ∧ history.store.now ≤ closes key

variable {lease ceiling opens closes}

/-- Assumes: the invariant and a key that may be used. The counter reads as the demand. -/
theorem Exact.read_getD (hlease : ∀ key, closes key ≤ opens key + lease) {history : History Key}
    (hexact : Exact lease opens history) {key : Key} (hcloses : history.store.now ≤ closes key) :
    (history.store.read key).getD 0 = demand key history.entries ∧
      (history.store.read key = none → ∀ entry ∈ history.entries, entry.key ≠ key) := by
  by_cases hused : ∃ entry ∈ history.entries, entry.key = key
  · obtain ⟨entry, hentry, rfl⟩ := hused
    obtain ⟨cell, hlookup, hvalue, hexpires⟩ := hexact.held entry hentry
    have hlive : history.store.now ≤ cell.expiresAt :=
      hcloses.trans ((hlease entry.key).trans hexpires)
    simp [Store.read, hlookup, hlive, hvalue, Option.filter_some]
  · have hnone : ∀ entry ∈ history.entries, entry.key ≠ key :=
      fun entry hentry hkey ↦ hused ⟨entry, hentry, hkey⟩
    refine ⟨?_, fun _ ↦ hnone⟩
    rw [demand_eq_zero hnone, Store.read, hexact.fresh key hnone]
    rfl

/-- Assumes: the invariant. Writing the demand of the new entries keeps it. -/
theorem Exact.write {history : History Key} (hexact : Exact lease opens history) {key : Key}
    {value : ℤ} {added : List (Entry Key)} (hadded : ∀ entry ∈ added, entry.key = key)
    (hanswers : AnswersExact (added ++ history.entries))
    (hused : ∃ entry ∈ added ++ history.entries, entry.key = key)
    (hvalue : value = demand key (added ++ history.entries))
    (hopens : opens key ≤ history.store.now) :
    Exact lease opens ⟨history.store.write lease key value, added ++ history.entries⟩ := by
  refine ⟨hanswers, fun entry hentry ↦ ?_, fun other hother ↦ ?_⟩
  · by_cases hkey : entry.key = key
    · refine ⟨⟨value, history.store.now + lease⟩, ?_, ?_, ?_⟩
      · rw [Store.write, hkey, AList.lookup_insert]
      · rw [hkey, hvalue]
      · rw [hkey]
        exact Int.add_le_add_right hopens lease
    · have hold : entry ∈ history.entries :=
        (List.mem_append.mp hentry).resolve_left fun hnew ↦ hkey (hadded entry hnew)
      obtain ⟨cell, hlookup, hcell, hexpires⟩ := hexact.held entry hold
      refine ⟨cell, ?_, ?_, hexpires⟩
      · rw [Store.write, AList.lookup_insert_ne hkey, hlookup]
      · have hnone : added.filter (fun other ↦ other.key = entry.key) = [] :=
          List.filter_eq_nil_iff.mpr fun other hother ↦ by
            simpa [hadded other hother] using Ne.symm hkey
        rw [hcell, demand, demand, List.filter_append, hnone, List.nil_append]
  · have hne : other ≠ key := by
      rintro rfl
      obtain ⟨entry, hentry, hkey⟩ := hused
      exact hother entry hentry hkey
    show (history.store.cells.insert key _).lookup other = none
    rw [AList.lookup_insert_ne hne]
    exact hexact.fresh other fun entry hentry ↦ hother entry (List.mem_append_right _ hentry)

/-- Every timely step keeps the invariant. -/
theorem Exact.step (hlease : ∀ key, closes key ≤ opens key + lease) (history : History Key)
    (action : Action Key) (htimely : Timely ceiling opens closes history action)
    (hexact : Exact lease opens history) :
    Exact lease opens (step lease ceiling history action) := by
  cases action with
  | wait elapsed => exact ⟨hexact.answers, hexact.held, hexact.fresh⟩
  | add key amount =>
    obtain ⟨hamount, hceiling, hopens, hcloses⟩ := htimely
    obtain ⟨hread, hunused⟩ := hexact.read_getD hlease hcloses
    unfold ExpiringCounters.step Store.increment
    by_cases hfits : (history.store.read key).getD 0 + amount ≤ ceiling
    · simp only [hfits, if_true, Option.map_some, Option.toList_some]
      have hvalue : (history.store.read key).getD 0 + amount = demand key
          (⟨key, amount, (history.store.read key).getD 0 + amount⟩ :: history.entries) := by
        rw [hread]
        exact (add_comm _ _).trans (demand_cons_self ⟨key, amount, _⟩ history.entries).symm
      exact hexact.write (by simp) ⟨hamount, hvalue, hexact.answers⟩ ⟨_, List.mem_cons_self, rfl⟩
        hvalue hopens
    · simp only [hfits, if_false, Option.map_none, Option.toList_none, List.nil_append]
      cases hold : history.store.read key with
      | none => exact hexact
      | some old =>
        -- A counter at its ceiling keeps its value, and its lease is renewed.
        have hvalue : old = demand key history.entries := by rw [← hread, hold]; rfl
        have hused : ∃ entry ∈ history.entries, entry.key = key := by
          by_contra hnone
          have hlookup := hexact.fresh key fun entry hentry hkey ↦ hnone ⟨entry, hentry, hkey⟩
          simp [Store.read, hlookup] at hold
        exact hexact.write (fun _ hmem ↦ absurd hmem List.not_mem_nil) hexact.answers hused
          hvalue hopens

theorem exact_empty (now : ℤ) : Exact lease opens (empty now : History Key) :=
  ⟨trivial, fun _ hentry ↦ absurd hentry List.not_mem_nil, fun _ _ ↦ rfl⟩

end Windows

end Relayna.Library.ExpiringCounters

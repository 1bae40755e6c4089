import Mathlib.Algebra.Order.Group.Nat
import Relayna.Auth.Flights
import Relayna.Library.KeyedSum
import Relayna.Library.Table
import Relayna.Library.Transition

/-!
# Bounds and isolation of the verification flights

`Moves` lists what a step can do to the flights, with the condition under which it is done, and
`step_moves` says that there is nothing else. Each invariant is then a case analysis: `Registered`
matches the entries with the live leaders, `Balanced` matches the free permits with the subscribers
that hold one, and `Answered` traces every value and every answer back to the work of the leader.

The permits of a proof belong to one flight. Followers of a flight that is gone may still be waiting
to be woken when followers of the next flight of the same proof join, so together they can be more
than the limit. `single_flight_isolated` states the bounds for the runs in which no follower joins
while that is the case.
-/

set_option autoImplicit false
set_option relaxedAutoImplicit false

namespace Relayna.Auth

open Library.KeyedSum Library.Transition

variable {Proof : Type}

section Registry

variable [DecidableEq Proof]

/-! ### What a step can do -/

/-- The flights after a follower has joined. -/
def Flights.followed (flights : Flights Proof) (proof : Proof) (channel : ℕ) : Flights Proof :=
  { (flights.setSubscriber flights.next ⟨proof, channel, true, none, .waiting⟩).setChannel channel
      { flights.channels channel with permits := (flights.channels channel).permits - 1 } with
    available := flights.available - 1
    next := flights.next + 1 }

/-- The flights after a leader has joined. -/
def Flights.led (flights : Flights Proof) (proof : Proof) : Flights Proof :=
  { ((flights.setLeader flights.next ⟨proof, none, .live⟩).setSubscriber flights.next
      ⟨proof, flights.next, false, none, .waiting⟩).setChannel flights.next
        ⟨none, true, maxFollowersPerProof⟩ with
    entries := flights.entries.insert proof flights.next
    next := flights.next + 1 }

/-- The flights after the drop of a leader has removed its entry. -/
def Flights.removed (flights : Flights Proof) (channel : ℕ) (proof : Proof)
    (work : Option (GatewayResult Unit)) : Flights Proof :=
  { flights.setLeader channel ⟨proof, work, .removed⟩ with entries := flights.entries.erase proof }

/-- The flights after a subscriber has returned its permit of the process. -/
def Flights.globalReturned (flights : Flights Proof) (id : ℕ) (waiting : Waiting Proof) :
    Flights Proof :=
  { flights.setSubscriber id { waiting with phase := .globalReturned } with
    available := flights.available + if waiting.follower then 1 else 0 }

/-- The flights after a subscriber has returned its permit of the flight. -/
def Flights.perProofReturned (flights : Flights Proof) (id : ℕ) (waiting : Waiting Proof) :
    Flights Proof :=
  (flights.setSubscriber id { waiting with phase := .returned }).setChannel waiting.channel
    { flights.channels waiting.channel with
      permits := (flights.channels waiting.channel).permits + if waiting.follower then 1 else 0 }

/-- What a step can do. -/
inductive Moves (flights : Flights Proof) : Flights Proof → Prop
  | stay : Moves flights flights
  | follow (proof : Proof) (channel : ℕ) (hentry : flights.entries.lookup proof = some channel)
      (hglobal : 0 < flights.available) (hpermits : 0 < (flights.channels channel).permits) :
      Moves flights (flights.followed proof channel)
  | lead (proof : Proof) (hentry : flights.entries.lookup proof = none)
      (hroom : flights.entries.entries.length < maxFlights) : Moves flights (flights.led proof)
  | workReturns (channel : ℕ) (proof : Proof) (result : GatewayResult Unit)
      (hleader : flights.leaders.lookup channel = some ⟨proof, none, .live⟩) :
      Moves flights (flights.setLeader channel ⟨proof, some result, .live⟩)
  | send (channel : ℕ) (proof : Proof) (result : GatewayResult Unit)
      (hleader : flights.leaders.lookup channel = some ⟨proof, some result, .live⟩) :
      Moves flights
        (flights.setChannel channel { flights.channels channel with value := some result })
  | removeEntry (channel : ℕ) (proof : Proof) (work : Option (GatewayResult Unit))
      (hleader : flights.leaders.lookup channel = some ⟨proof, work, .live⟩) :
      Moves flights (flights.removed channel proof work)
  | closeSender (channel : ℕ) (proof : Proof) (work : Option (GatewayResult Unit))
      (hleader : flights.leaders.lookup channel = some ⟨proof, work, .removed⟩) :
      Moves flights ((flights.setLeader channel ⟨proof, work, .closed⟩).setChannel channel
        { flights.channels channel with senderAlive := false })
  | leave (id : ℕ) (waiting : Waiting Proof) (outcome : Option (GatewayResult Unit))
      (hwaiting : flights.subscribers.lookup id = some waiting)
      (hphase : waiting.phase = .waiting)
      (houtcome : outcome = some (.ok ()) →
        (flights.channels waiting.channel).value = some (.ok ())) :
      Moves flights
        (flights.setSubscriber id { waiting with outcome := outcome, phase := .left })
  | returnGlobal (id : ℕ) (waiting : Waiting Proof)
      (hwaiting : flights.subscribers.lookup id = some waiting) (hphase : waiting.phase = .left) :
      Moves flights (flights.globalReturned id waiting)
  | returnPerProof (id : ℕ) (waiting : Waiting Proof)
      (hwaiting : flights.subscribers.lookup id = some waiting)
      (hphase : waiting.phase = .globalReturned) :
      Moves flights (flights.perProofReturned id waiting)

/-- A request that joins follows the flight of its proof, or leads a new one. -/
theorem Flights.join_cases {flights joined : Flights Proof} {proof : Proof} {ids : ℕ × Option ℕ}
    (hjoin : flights.join proof = .ok (ids, joined)) :
    (∃ channel, flights.entries.lookup proof = some channel ∧ 0 < flights.available ∧
        0 < (flights.channels channel).permits ∧ ids = (flights.next, none) ∧
        joined = flights.followed proof channel) ∨
      (flights.entries.lookup proof = none ∧ flights.entries.entries.length < maxFlights ∧
        ids = (flights.next, some flights.next) ∧ joined = flights.led proof) := by
  cases hentry : flights.entries.lookup proof with
  | none =>
    have hlead : flights.lead proof = .ok (ids, joined) := by
      simpa only [Flights.join, hentry] using hjoin
    unfold Flights.lead at hlead
    split_ifs at hlead with hfull
    obtain ⟨rfl, rfl⟩ := Prod.mk.inj (Except.ok.inj hlead)
    exact .inr ⟨rfl, Nat.lt_of_not_le hfull, rfl, rfl⟩
  | some channel =>
    have hfollow : flights.follow proof channel = .ok (ids, joined) := by
      simpa only [Flights.join, hentry] using hjoin
    unfold Flights.follow at hfollow
    split_ifs at hfollow with hglobal hpermits
    obtain ⟨rfl, rfl⟩ := Prod.mk.inj (Except.ok.inj hfollow)
    exact .inl ⟨channel, rfl, Nat.pos_of_ne_zero hglobal, Nat.pos_of_ne_zero hpermits, rfl, rfl⟩

theorem Flights.join_moves {flights joined : Flights Proof} {proof : Proof} {ids : ℕ × Option ℕ}
    (hjoin : flights.join proof = .ok (ids, joined)) : Moves flights joined := by
  rcases Flights.join_cases hjoin with ⟨channel, hentry, hglobal, hpermits, -, rfl⟩ |
    ⟨hentry, hroom, -, rfl⟩
  · exact .follow proof channel hentry hglobal hpermits
  · exact .lead proof hentry hroom

theorem Flights.workReturns_moves (flights : Flights Proof) (channel : ℕ)
    (result : GatewayResult Unit) : Moves flights (flights.workReturns channel result) := by
  unfold Flights.workReturns
  split
  · next proof hleader => exact .workReturns channel proof result hleader
  · exact .stay

theorem Flights.send_moves (flights : Flights Proof) (channel : ℕ) :
    Moves flights (flights.send channel) := by
  unfold Flights.send
  split
  · next proof result hleader => exact .send channel proof result hleader
  · exact .stay

theorem Flights.removeEntry_moves (flights : Flights Proof) (channel : ℕ) :
    Moves flights (flights.removeEntry channel) := by
  unfold Flights.removeEntry
  split
  · next proof work hleader => exact .removeEntry channel proof work hleader
  · exact .stay

theorem Flights.closeSender_moves (flights : Flights Proof) (channel : ℕ) :
    Moves flights (flights.closeSender channel) := by
  unfold Flights.closeSender
  split
  · next proof work hleader => exact .closeSender channel proof work hleader
  · exact .stay

/-- Assumes: an answer that is not a success, or is the value of the channel. -/
theorem Flights.leave_moves (flights : Flights Proof) (id : ℕ)
    (outcome : Option (GatewayResult Unit))
    (houtcome : ∀ waiting, flights.subscribers.lookup id = some waiting →
      outcome = some (.ok ()) → (flights.channels waiting.channel).value = some (.ok ())) :
    Moves flights (flights.leave id outcome) := by
  unfold Flights.leave
  split
  · next proof channel follower old hwaiting =>
    exact .leave id ⟨proof, channel, follower, old, .waiting⟩ outcome hwaiting rfl
      (houtcome _ hwaiting)
  · exact .stay

/-- A channel reads a success only when it has been sent. -/
theorem Channel.value_of_read {channel : Channel} (hread : channel.read = some (.ok ())) :
    channel.value = some (.ok ()) := by
  unfold Channel.read at hread
  split at hread
  · next result hvalue => rw [hvalue, hread]
  · split_ifs at hread
    exact absurd (Option.some.inj hread) (by simp)

theorem Flights.awaken_moves (flights : Flights Proof) (id : ℕ) :
    Moves flights (flights.awaken id) := by
  unfold Flights.awaken
  split
  · next waiting hwaiting =>
    split
    · next result hread =>
      refine flights.leave_moves id (some result) fun waiting' hwaiting' hok ↦ ?_
      rw [hwaiting] at hwaiting'
      obtain rfl := Option.some.inj hwaiting'
      exact Channel.value_of_read (hread.trans hok)
    · exact .stay
  · exact .stay

theorem Flights.returnGlobal_moves (flights : Flights Proof) (id : ℕ) :
    Moves flights (flights.returnGlobal id) := by
  unfold Flights.returnGlobal
  split
  · next proof channel follower outcome hwaiting =>
    exact .returnGlobal id ⟨proof, channel, follower, outcome, .left⟩ hwaiting rfl
  · exact .stay

theorem Flights.returnPerProof_moves (flights : Flights Proof) (id : ℕ) :
    Moves flights (flights.returnPerProof id) := by
  unfold Flights.returnPerProof
  split
  · next proof channel follower outcome hwaiting =>
    exact .returnPerProof id ⟨proof, channel, follower, outcome, .globalReturned⟩ hwaiting rfl
  · exact .stay

/-- Every step moves the flights. -/
theorem step_moves (flights : Flights Proof) (action : Action Proof) :
    Moves flights (step flights action) := by
  cases action with
  | join proof =>
    cases hjoin : flights.join proof with
    | error error =>
      simp only [step, hjoin]
      exact .stay
    | ok joined =>
      simp only [step, hjoin]
      exact Flights.join_moves hjoin
  | workReturns channel result => exact flights.workReturns_moves channel result
  | send channel => exact flights.send_moves channel
  | removeEntry channel => exact flights.removeEntry_moves channel
  | closeSender channel => exact flights.closeSender_moves channel
  | awaken id => exact flights.awaken_moves id
  | timeout id =>
    exact flights.leave_moves id _ fun _ _ hok ↦ absurd (Option.some.inj hok) (by simp)
  | cancel id => exact flights.leave_moves id none fun _ _ hok ↦ absurd hok (by simp)
  | returnGlobal id => exact flights.returnGlobal_moves id
  | returnPerProof id => exact flights.returnPerProof_moves id

/-! ### Entries and leaders -/

/-- The entries are the flights of the live leaders. -/
structure Registered (flights : Flights Proof) : Prop where
  length_le : flights.entries.entries.length ≤ maxFlights
  leader_lt : ∀ channel leader, flights.leaders.lookup channel = some leader →
    channel < flights.next
  entry_live : ∀ proof channel, flights.entries.lookup proof = some channel →
    ∃ work, flights.leaders.lookup channel = some ⟨proof, work, .live⟩
  live_entry : ∀ channel proof work,
    flights.leaders.lookup channel = some ⟨proof, work, .live⟩ →
      flights.entries.lookup proof = some channel

/-- Steps that change neither entries nor leaders do not matter. -/
theorem Registered.congr {flights moved : Flights Proof} (hregistered : Registered flights)
    (hentries : moved.entries = flights.entries) (hleaders : moved.leaders = flights.leaders)
    (hnext : flights.next ≤ moved.next) : Registered moved := by
  refine ⟨?_, fun channel leader hleader ↦ ?_, ?_, ?_⟩
  · rw [hentries]
    exact hregistered.length_le
  · rw [hleaders] at hleader
    exact (hregistered.leader_lt channel leader hleader).trans_le hnext
  · rw [hentries, hleaders]
    exact hregistered.entry_live
  · rw [hentries, hleaders]
    exact hregistered.live_entry

/-- Assumes: a live leader. It may note what its work returned. -/
theorem Registered.workReturns {flights : Flights Proof} (hregistered : Registered flights)
    {channel : ℕ} {proof : Proof} {work : Option (GatewayResult Unit)}
    (hleader : flights.leaders.lookup channel = some ⟨proof, work, .live⟩)
    (returned : Option (GatewayResult Unit)) :
    Registered (flights.setLeader channel ⟨proof, returned, .live⟩) := by
  refine ⟨hregistered.length_le, fun other leader hother ↦ ?_, fun proof' other hentry ↦ ?_,
    fun other proof' work' hother ↦ ?_⟩
  · rcases Library.Table.lookup_insert_cases hother with ⟨rfl, -⟩ | ⟨-, hold⟩
    · exact hregistered.leader_lt other _ hleader
    · exact hregistered.leader_lt other leader hold
  · obtain ⟨work', hwork'⟩ := hregistered.entry_live proof' other hentry
    by_cases hsame : other = channel
    · subst hsame
      rw [hleader] at hwork'
      obtain ⟨rfl, -, -⟩ := Leader.mk.inj (Option.some.inj hwork')
      exact ⟨returned, AList.lookup_insert _⟩
    · exact ⟨work', (AList.lookup_insert_ne hsame).trans hwork'⟩
  · rcases Library.Table.lookup_insert_cases hother with ⟨rfl, hnew⟩ | ⟨-, hold⟩
    · obtain ⟨rfl, -, -⟩ := Leader.mk.inj hnew
      exact hregistered.live_entry other _ work hleader
    · exact hregistered.live_entry other proof' work' hold

/-- A new leader has the only entry of its proof. -/
theorem Registered.lead {flights : Flights Proof} (hregistered : Registered flights) {proof : Proof}
    (hentry : flights.entries.lookup proof = none)
    (hroom : flights.entries.entries.length < maxFlights) : Registered (flights.led proof) := by
  have hfresh : ∀ other leader, flights.leaders.lookup other = some leader →
      other ≠ flights.next :=
    fun other leader hleader ↦ (hregistered.leader_lt other leader hleader).ne
  refine ⟨?_, fun other leader hother ↦ ?_, fun proof' other hentry' ↦ ?_,
    fun other proof' work' hother ↦ ?_⟩
  · show (flights.entries.insert proof flights.next).entries.length ≤ maxFlights
    rw [AList.entries_insert_of_notMem (AList.lookup_eq_none.mp hentry)]
    exact hroom
  · rcases Library.Table.lookup_insert_cases hother with ⟨rfl, -⟩ | ⟨-, hold⟩
    · exact Nat.lt_succ_self _
    · exact (hregistered.leader_lt other leader hold).trans (Nat.lt_succ_self _)
  · rcases Library.Table.lookup_insert_cases hentry' with ⟨rfl, rfl⟩ | ⟨-, hold⟩
    · exact ⟨none, AList.lookup_insert _⟩
    · obtain ⟨work, hwork⟩ := hregistered.entry_live proof' other hold
      exact ⟨work, (AList.lookup_insert_ne (hfresh other _ hwork)).trans hwork⟩
  · rcases Library.Table.lookup_insert_cases hother with ⟨rfl, hnew⟩ | ⟨-, hlookup⟩
    · obtain ⟨rfl, -, -⟩ := Leader.mk.inj hnew
      exact AList.lookup_insert _
    · have hold := hregistered.live_entry other proof' work' hlookup
      have hproof : proof' ≠ proof := by
        rintro rfl
        rw [hentry] at hold
        exact absurd hold (by simp)
      exact (AList.lookup_insert_ne hproof).trans hold

/-- Assumes: a leader that is not live any more. It has no entry, before and after. -/
theorem Registered.retire {flights moved : Flights Proof} (hregistered : Registered flights)
    {channel : ℕ} {retired : Leader Proof} (hretired : retired.phase ≠ .live)
    (hleader : (flights.leaders.lookup channel).isSome)
    (hleaders : moved.leaders = flights.leaders.insert channel retired)
    (hlength : moved.entries.entries.length ≤ flights.entries.entries.length)
    (hnext : moved.next = flights.next)
    (hentries : ∀ proof other, moved.entries.lookup proof = some other ↔
      flights.entries.lookup proof = some other ∧ other ≠ channel) : Registered moved := by
  refine ⟨hlength.trans hregistered.length_le, fun other leader hother ↦ ?_,
    fun proof other hentry ↦ ?_, fun other proof work hother ↦ ?_⟩
  · rw [hleaders] at hother
    rw [hnext]
    rcases Library.Table.lookup_insert_cases hother with ⟨rfl, -⟩ | ⟨-, hlookup⟩
    · obtain ⟨old, hold⟩ := Option.isSome_iff_exists.mp hleader
      exact hregistered.leader_lt other old hold
    · exact hregistered.leader_lt other leader hlookup
  · obtain ⟨hentry, hsame⟩ := (hentries proof other).mp hentry
    obtain ⟨work, hwork⟩ := hregistered.entry_live proof other hentry
    exact ⟨work, by rw [hleaders, AList.lookup_insert_ne hsame, hwork]⟩
  · rw [hleaders] at hother
    rcases Library.Table.lookup_insert_cases hother with ⟨-, hnew⟩ | ⟨hsame, hold⟩
    · exact absurd (congrArg Leader.phase hnew.symm) hretired
    · exact (hentries proof other).mpr ⟨hregistered.live_entry other proof work hold, hsame⟩

/-- The drop of a live leader removes the entry of its own flight. -/
theorem Registered.lookup_removed {flights : Flights Proof} (hregistered : Registered flights)
    {channel : ℕ} {proof : Proof} {work : Option (GatewayResult Unit)}
    (hleader : flights.leaders.lookup channel = some ⟨proof, work, .live⟩) (proof' : Proof)
    (other : ℕ) : (flights.removed channel proof work).entries.lookup proof' = some other ↔
      flights.entries.lookup proof' = some other ∧ other ≠ channel := by
  have hentry := hregistered.live_entry channel proof work hleader
  show (flights.entries.erase proof).lookup proof' = some other ↔ _
  by_cases hproof : proof' = proof
  · subst hproof
    rw [AList.lookup_erase, hentry]
    constructor
    · intro hnone
      exact absurd hnone (by simp)
    · rintro ⟨hsame, hne⟩
      exact absurd (Option.some.inj hsame).symm hne
  · rw [AList.lookup_erase_ne hproof]
    refine ⟨fun hother ↦ ⟨hother, ?_⟩, And.left⟩
    rintro rfl
    obtain ⟨work', hwork'⟩ := hregistered.entry_live proof' other hother
    rw [hleader] at hwork'
    exact hproof (congrArg Leader.proof (Option.some.inj hwork')).symm

/-- Every move keeps the entries those of the live leaders. -/
theorem Registered.moves {flights moved : Flights Proof} (hregistered : Registered flights)
    (hmoves : Moves flights moved) : Registered moved := by
  cases hmoves with
  | stay => exact hregistered
  | follow => exact hregistered.congr rfl rfl (Nat.le_succ _)
  | lead proof hentry hroom => exact hregistered.lead hentry hroom
  | workReturns channel proof result hleader => exact hregistered.workReturns hleader _
  | send => exact hregistered.congr rfl rfl le_rfl
  | removeEntry channel proof work hleader =>
    refine hregistered.retire (by simp) (by rw [hleader]; rfl) rfl ?_ rfl
      (hregistered.lookup_removed hleader)
    exact (List.kerase_sublist proof _).length_le
  | closeSender channel proof work hleader =>
    refine hregistered.retire (by simp) (by rw [hleader]; rfl) rfl le_rfl rfl
      fun proof' other ↦ ⟨fun hentry ↦ ⟨hentry, ?_⟩, And.left⟩
    rintro rfl
    obtain ⟨work', hwork'⟩ := hregistered.entry_live proof' other hentry
    rw [hleader] at hwork'
    exact absurd (congrArg Leader.phase (Option.some.inj hwork')) (by simp)
  | leave => exact hregistered.congr rfl rfl le_rfl
  | returnGlobal => exact hregistered.congr rfl rfl le_rfl
  | returnPerProof => exact hregistered.congr rfl rfl le_rfl

end Registry

/-! ### Permits -/

section Permits

/-- The permits of the process that subscribers hold. -/
def Flights.heldGlobal (flights : Flights Proof) : ℕ :=
  total (fun _ waiting ↦ if waiting.holdsGlobal then 1 else 0) flights.subscribers

/-- The permits of a flight that subscribers hold. -/
def Flights.heldPerProof (flights : Flights Proof) (channel : ℕ) : ℕ :=
  total (fun _ waiting ↦ if waiting.channel = channel ∧ waiting.holdsPerProof then 1 else 0)
    flights.subscribers

def Flights.followersOf [DecidableEq Proof] (flights : Flights Proof) (proof : Proof) : ℕ :=
  total (fun _ waiting ↦ if waiting.proof = proof ∧ waiting.following then 1 else 0)
    flights.subscribers

def Flights.followers (flights : Flights Proof) : ℕ :=
  total (fun _ waiting ↦ if waiting.following then 1 else 0) flights.subscribers

/-- Each permit is free or held. -/
structure Balanced (flights : Flights Proof) : Prop where
  subscriber_lt : ∀ id waiting, flights.subscribers.lookup id = some waiting →
    id < flights.next ∧ waiting.channel < flights.next
  global : flights.available + flights.heldGlobal = maxFollowers
  perProof : ∀ channel,
    (flights.channels channel).permits + flights.heldPerProof channel = maxFollowersPerProof

/-- Steps that change neither subscribers nor permits do not matter. -/
theorem Balanced.congr {flights moved : Flights Proof} (hbalanced : Balanced flights)
    (hsubscribers : moved.subscribers = flights.subscribers)
    (havailable : moved.available = flights.available)
    (hpermits : ∀ channel, (moved.channels channel).permits = (flights.channels channel).permits)
    (hnext : moved.next = flights.next) : Balanced moved := by
  refine ⟨?_, ?_, fun channel ↦ ?_⟩
  · rw [hsubscribers, hnext]
    exact hbalanced.subscriber_lt
  · unfold Flights.heldGlobal
    rw [hsubscribers, havailable]
    exact hbalanced.global
  · unfold Flights.heldPerProof
    rw [hsubscribers, hpermits]
    exact hbalanced.perProof channel

theorem Balanced.next_notMem {flights : Flights Proof} (hbalanced : Balanced flights) :
    flights.next ∉ flights.subscribers := by
  rw [← AList.lookup_eq_none]
  by_contra hsome
  obtain ⟨waiting, hwaiting⟩ := Option.ne_none_iff_exists'.mp hsome
  exact Nat.lt_irrefl _ (hbalanced.subscriber_lt _ _ hwaiting).1

/-- A new subscriber holds the permits that were taken for it. -/
theorem Balanced.join {flights moved : Flights Proof} (hbalanced : Balanced flights)
    {waiting : Waiting Proof}
    (hsubscribers : moved.subscribers = flights.subscribers.insert flights.next waiting)
    (hchannel : waiting.channel < moved.next) (hnext : moved.next = flights.next + 1)
    (havailable : moved.available + (if waiting.holdsGlobal then 1 else 0) = flights.available)
    (hpermits : ∀ channel, (moved.channels channel).permits +
        (if waiting.channel = channel ∧ waiting.holdsPerProof then 1 else 0) +
          flights.heldPerProof channel = maxFollowersPerProof) :
    Balanced moved := by
  have hnotMem := hbalanced.next_notMem
  refine ⟨fun id other hother ↦ ?_, ?_, fun channel ↦ ?_⟩
  · rw [hsubscribers] at hother
    rcases Library.Table.lookup_insert_cases hother with ⟨rfl, rfl⟩ | ⟨-, hold⟩
    · exact ⟨by omega, hchannel⟩
    · have hlt := hbalanced.subscriber_lt id other hold
      omega
  · have hheld := total_insert_of_notMem
      (fun _ (waiting : Waiting Proof) ↦ if waiting.holdsGlobal then 1 else 0) hnotMem waiting
    have hglobal := hbalanced.global
    unfold Flights.heldGlobal at hglobal ⊢
    rw [hsubscribers, hheld]
    omega
  · have hheld := total_insert_of_notMem
      (fun _ (waiting : Waiting Proof) ↦
        if waiting.channel = channel ∧ waiting.holdsPerProof then 1 else 0) hnotMem waiting
    have hperProof := hpermits channel
    unfold Flights.heldPerProof at hperProof ⊢
    rw [hsubscribers, hheld]
    omega

/-- Assumes: a subscriber that moves on within its flight. What it gives back is free. -/
theorem Balanced.release {flights moved : Flights Proof} (hbalanced : Balanced flights) {id : ℕ}
    {waiting after : Waiting Proof} (hwaiting : flights.subscribers.lookup id = some waiting)
    (hsubscribers : moved.subscribers = flights.subscribers.insert id after)
    (hchannel : after.channel = waiting.channel)
    (hnext : moved.next = flights.next)
    (havailable : moved.available + (if after.holdsGlobal then 1 else 0) =
      flights.available + if waiting.holdsGlobal then 1 else 0)
    (hpermits : ∀ channel, (moved.channels channel).permits +
        (if after.channel = channel ∧ after.holdsPerProof then 1 else 0) =
      (flights.channels channel).permits +
        if waiting.channel = channel ∧ waiting.holdsPerProof then 1 else 0) :
    Balanced moved := by
  refine ⟨fun other found hfound ↦ ?_, ?_, fun channel ↦ ?_⟩
  · rw [hsubscribers] at hfound
    rw [hnext]
    rcases Library.Table.lookup_insert_cases hfound with ⟨rfl, rfl⟩ | ⟨-, hold⟩
    · rw [hchannel]
      exact hbalanced.subscriber_lt other waiting hwaiting
    · exact hbalanced.subscriber_lt other found hold
  · have hheld := measure_add_total_insert
      (fun _ (waiting : Waiting Proof) ↦ if waiting.holdsGlobal then 1 else 0) hwaiting after
    have hglobal := hbalanced.global
    unfold Flights.heldGlobal at hglobal ⊢
    rw [hsubscribers]
    omega
  · have hheld := measure_add_total_insert
      (fun _ (waiting : Waiting Proof) ↦
        if waiting.channel = channel ∧ waiting.holdsPerProof then 1 else 0) hwaiting after
    have hperProof := hbalanced.perProof channel
    have hmoved := hpermits channel
    unfold Flights.heldPerProof at hperProof ⊢
    rw [hsubscribers]
    omega

/-- A flight that has not been registered has no subscribers. -/
theorem Balanced.heldPerProof_next {flights : Flights Proof} (hbalanced : Balanced flights) :
    flights.heldPerProof flights.next = 0 := by
  refine total_eq_zero _ fun id waiting hwaiting ↦ ?_
  have hlt := (hbalanced.subscriber_lt id waiting hwaiting).2
  exact if_neg fun hsame ↦ hlt.ne hsame.1

end Permits

section Runs

variable [DecidableEq Proof]

/-- Every move keeps each permit free or held. -/
theorem Balanced.moves {flights moved : Flights Proof} (hbalanced : Balanced flights)
    (hregistered : Registered flights) (hmoves : Moves flights moved) : Balanced moved := by
  have hupdate : ∀ (channel : ℕ) (shared : Channel) (other : ℕ),
      (Function.update flights.channels channel shared other).permits =
        if other = channel then shared.permits else (flights.channels other).permits := by
    intro channel shared other
    rw [Function.update_apply]
    split_ifs <;> rfl
  cases hmoves with
  | stay => exact hbalanced
  | follow proof channel hentry hglobal hpermits =>
    obtain ⟨work, hwork⟩ := hregistered.entry_live proof channel hentry
    have hlt := hregistered.leader_lt channel _ hwork
    refine hbalanced.join rfl (hlt.trans (Nat.lt_succ_self _)) rfl ?_ fun other ↦ ?_
    · exact Nat.sub_add_cancel hglobal
    · have hperProof := hbalanced.perProof other
      rw [← hperProof]
      congr 1
      refine (congrArg (· + _) (hupdate channel _ other)).trans ?_
      by_cases hsame : other = channel
      · subst hsame
        simp only [if_true, Waiting.holdsPerProof, true_and]
        exact Nat.sub_add_cancel hpermits
      · rw [if_neg hsame, if_neg fun hchannel ↦ hsame hchannel.1.symm, Nat.add_zero]
  | lead proof hentry hroom =>
    refine hbalanced.join rfl (Nat.lt_succ_self _) rfl rfl fun other ↦ ?_
    have hperProof := hbalanced.perProof other
    have hchannels : ((flights.led proof).channels other).permits =
        if other = flights.next then maxFollowersPerProof
        else (flights.channels other).permits :=
      hupdate flights.next ⟨none, true, maxFollowersPerProof⟩ other
    rw [hchannels]
    simp only [Waiting.holdsPerProof, Bool.false_and, Bool.false_eq_true, and_false, if_false]
    by_cases hsame : other = flights.next
    · rw [if_pos hsame, hsame, hbalanced.heldPerProof_next, Nat.add_zero]
    · rw [if_neg hsame]
      exact hperProof
  | workReturns => exact hbalanced.congr rfl rfl (fun _ ↦ rfl) rfl
  | send channel proof result hleader =>
    refine hbalanced.congr rfl rfl (fun other ↦ (hupdate channel _ other).trans ?_) rfl
    split_ifs with hsame
    · rw [hsame]
    · rfl
  | removeEntry => exact hbalanced.congr rfl rfl (fun _ ↦ rfl) rfl
  | closeSender channel proof work hleader =>
    refine hbalanced.congr rfl rfl (fun other ↦ (hupdate channel _ other).trans ?_) rfl
    split_ifs with hsame
    · rw [hsame]
    · rfl
  | leave id waiting outcome hwaiting hphase houtcome =>
    refine hbalanced.release hwaiting rfl rfl rfl ?_ fun channel ↦ ?_
    · simp [Waiting.holdsGlobal, hphase, Flights.setSubscriber]
    · simp [Waiting.holdsPerProof, hphase, Flights.setSubscriber]
  | returnGlobal id waiting hwaiting hphase =>
    refine hbalanced.release hwaiting rfl rfl rfl ?_ fun channel ↦ ?_
    · simp [Waiting.holdsGlobal, hphase, Flights.globalReturned]
    · simp [Waiting.holdsPerProof, hphase, Flights.globalReturned, Flights.setSubscriber]
  | returnPerProof id waiting hwaiting hphase =>
    refine hbalanced.release hwaiting rfl rfl rfl ?_ fun channel ↦ ?_
    · simp [Waiting.holdsGlobal, hphase, Flights.perProofReturned, Flights.setSubscriber,
        Flights.setChannel]
    · refine (congrArg (· + _) (hupdate waiting.channel _ channel)).trans ?_
      by_cases hsame : channel = waiting.channel
      · simp [hsame, Waiting.holdsPerProof, hphase]
      · rw [if_neg hsame, if_neg fun hchannel ↦ hsame hchannel.1.symm,
          if_neg fun hchannel ↦ hsame hchannel.1.symm]

/-! ### Answers -/

/-- Leaders keep their proof and what their work returned. -/
theorem Moves.leader_persists {flights moved : Flights Proof} (hmoves : Moves flights moved)
    (hregistered : Registered flights) {channel : ℕ} {leader : Leader Proof}
    (hleader : flights.leaders.lookup channel = some leader) :
    ∃ later, moved.leaders.lookup channel = some later ∧ later.proof = leader.proof ∧
      ∀ result, leader.work = some result → later.work = some result := by
  -- A leader is only replaced by one with the same proof, and its work only while it has none.
  have hinsert : ∀ {other : ℕ} {old new : Leader Proof},
      flights.leaders.lookup other = some old → new.proof = old.proof →
        (∀ result, old.work = some result → new.work = some result) →
          ∃ later, (flights.leaders.insert other new).lookup channel = some later ∧
            later.proof = leader.proof ∧
              ∀ result, leader.work = some result → later.work = some result := by
    intro other old new hold hproof hwork
    by_cases hsame : channel = other
    · subst hsame
      rw [hleader] at hold
      obtain rfl := Option.some.inj hold
      exact ⟨new, AList.lookup_insert _, hproof, hwork⟩
    · exact ⟨leader, (AList.lookup_insert_ne hsame).trans hleader, rfl, fun _ hresult ↦ hresult⟩
  cases hmoves with
  | lead proof hentry hroom =>
    have hne : channel ≠ flights.next := (hregistered.leader_lt channel leader hleader).ne
    exact ⟨leader, (AList.lookup_insert_ne hne).trans hleader, rfl, fun _ hresult ↦ hresult⟩
  | workReturns other proof result hother =>
    exact hinsert hother rfl fun _ hnone ↦ absurd hnone (by simp)
  | removeEntry other proof work hother => exact hinsert hother rfl fun _ hresult ↦ hresult
  | closeSender other proof work hother => exact hinsert hother rfl fun _ hresult ↦ hresult
  | _ => exact ⟨leader, hleader, rfl, fun _ hresult ↦ hresult⟩

/-- The leader of a flight has a proof, and its work has returned a result if one is given. -/
def Flights.LedBy (flights : Flights Proof) (channel : ℕ) (proof : Proof)
    (result : Option (GatewayResult Unit)) : Prop :=
  ∃ leader, flights.leaders.lookup channel = some leader ∧ leader.proof = proof ∧
    ∀ returned, result = some returned → leader.work = some returned

theorem Flights.LedBy.moves {flights moved : Flights Proof} {channel : ℕ} {proof : Proof}
    {result : Option (GatewayResult Unit)} (hled : flights.LedBy channel proof result)
    (hregistered : Registered flights) (hmoves : Moves flights moved) :
    moved.LedBy channel proof result := by
  obtain ⟨leader, hleader, hproof, hwork⟩ := hled
  obtain ⟨later, hlater, hsame, hkept⟩ := hmoves.leader_persists hregistered hleader
  exact ⟨later, hlater, hsame.trans hproof, fun returned hresult ↦
    hkept returned (hwork returned hresult)⟩

/-- Every subscriber has the proof of its leader, every value sent is what the work of the leader
returned, and so is every success that a subscriber was answered. -/
structure Answered (flights : Flights Proof) : Prop where
  joined : ∀ id waiting, flights.subscribers.lookup id = some waiting →
    flights.LedBy waiting.channel waiting.proof none
  sent : ∀ channel result, (flights.channels channel).value = some result →
    ∃ proof, flights.LedBy channel proof (some result)
  answered : ∀ id waiting, flights.subscribers.lookup id = some waiting →
    waiting.outcome = some (.ok ()) →
      flights.LedBy waiting.channel waiting.proof (some (.ok ()))

omit [DecidableEq Proof] in
/-- Assumes: a value that was sent in the flight of a subscriber. The leader has its proof. -/
theorem Answered.value_of_subscriber {flights : Flights Proof} (hanswered : Answered flights)
    {id : ℕ} {waiting : Waiting Proof} (hwaiting : flights.subscribers.lookup id = some waiting)
    {result : GatewayResult Unit}
    (hvalue : (flights.channels waiting.channel).value = some result) :
    flights.LedBy waiting.channel waiting.proof (some result) := by
  obtain ⟨leader, hleader, hproof, -⟩ := hanswered.joined id waiting hwaiting
  obtain ⟨-, leader', hleader', -, hwork⟩ := hanswered.sent waiting.channel result hvalue
  rw [hleader] at hleader'
  obtain rfl := Option.some.inj hleader'
  exact ⟨leader, hleader, hproof, hwork⟩

/-- What a move does to a subscriber: it was there and has at most left, with an answer that was
sent if it is a success, or it is new and follows the flight of its proof or leads its own. -/
theorem Moves.subscriber_cases {flights moved : Flights Proof} (hmoves : Moves flights moved)
    {id : ℕ} {waiting : Waiting Proof} (hwaiting : moved.subscribers.lookup id = some waiting) :
    (∃ old, flights.subscribers.lookup id = some old ∧ waiting.channel = old.channel ∧
        waiting.proof = old.proof ∧ (waiting.following = true → old.following = true) ∧
        (waiting.outcome = some (.ok ()) → old.outcome = some (.ok ()) ∨
          (flights.channels old.channel).value = some (.ok ()))) ∨
      (id = flights.next ∧ waiting.outcome = none ∧
        (flights.entries.lookup waiting.proof = some waiting.channel ∨
          moved.LedBy waiting.channel waiting.proof none)) := by
  have hsame : ∀ {waiting}, flights.subscribers.lookup id = some waiting →
      ∃ old, flights.subscribers.lookup id = some old ∧ waiting.channel = old.channel ∧
        waiting.proof = old.proof ∧ (waiting.following = true → old.following = true) ∧
        (waiting.outcome = some (.ok ()) → old.outcome = some (.ok ()) ∨
          (flights.channels old.channel).value = some (.ok ())) :=
    fun {waiting} hold ↦ ⟨waiting, hold, rfl, rfl, fun hfollowing ↦ hfollowing, .inl⟩
  have hinsert : ∀ {other : ℕ} {new : Waiting Proof},
      (flights.subscribers.insert other new).lookup id = some waiting →
        id = other ∧ new = waiting ∨ flights.subscribers.lookup id = some waiting := by
    intro other new hlookup
    rcases Library.Table.lookup_insert_cases hlookup with ⟨hid, hnew⟩ | ⟨-, hold⟩
    · exact .inl ⟨hid, hnew.symm⟩
    · exact .inr hold
  cases hmoves with
  | follow proof channel hentry hglobal hpermits =>
    rcases hinsert hwaiting with ⟨hid, rfl⟩ | hold
    · exact .inr ⟨hid, rfl, .inl hentry⟩
    · exact .inl (hsame hold)
  | lead proof hentry hroom =>
    rcases hinsert hwaiting with ⟨hid, rfl⟩ | hold
    · refine .inr ⟨hid, rfl, .inr ⟨⟨proof, none, .live⟩, AList.lookup_insert _, rfl, ?_⟩⟩
      exact fun _ hnone ↦ absurd hnone (by simp)
    · exact .inl (hsame hold)
  | leave other old outcome hother hphase houtcome =>
    rcases hinsert hwaiting with ⟨rfl, rfl⟩ | hold
    · refine .inl ⟨old, hother, rfl, rfl, fun hfollowing ↦ ?_, fun hok ↦ .inr (houtcome hok)⟩
      simp [Waiting.following] at hfollowing
    · exact .inl (hsame hold)
  | returnGlobal other old hother hphase =>
    rcases hinsert hwaiting with ⟨rfl, rfl⟩ | hold
    · refine .inl ⟨old, hother, rfl, rfl, fun hfollowing ↦ ?_, .inl⟩
      simp [Waiting.following] at hfollowing
    · exact .inl (hsame hold)
  | returnPerProof other old hother hphase =>
    rcases hinsert hwaiting with ⟨rfl, rfl⟩ | hold
    · refine .inl ⟨old, hother, rfl, rfl, fun hfollowing ↦ ?_, .inl⟩
      simp [Waiting.following] at hfollowing
    · exact .inl (hsame hold)
  | _ => exact .inl (hsame hwaiting)

/-- Subscribers keep their flight and their proof. -/
theorem Moves.subscriber_persists {flights moved : Flights Proof} (hmoves : Moves flights moved)
    (hbalanced : Balanced flights) {id : ℕ} {waiting : Waiting Proof}
    (hwaiting : flights.subscribers.lookup id = some waiting) :
    ∃ later, moved.subscribers.lookup id = some later ∧ later.channel = waiting.channel ∧
      later.proof = waiting.proof := by
  have hne : id ≠ flights.next := (hbalanced.subscriber_lt id waiting hwaiting).1.ne
  have hinsert : ∀ {other : ℕ} {old new : Waiting Proof},
      flights.subscribers.lookup other = some old → new.channel = old.channel →
        new.proof = old.proof →
          ∃ later, (flights.subscribers.insert other new).lookup id = some later ∧
            later.channel = waiting.channel ∧ later.proof = waiting.proof := by
    intro other old new hold hchannel hproof
    by_cases hsame : id = other
    · subst hsame
      rw [hwaiting] at hold
      obtain rfl := Option.some.inj hold
      exact ⟨new, AList.lookup_insert _, hchannel, hproof⟩
    · exact ⟨waiting, (AList.lookup_insert_ne hsame).trans hwaiting, rfl, rfl⟩
  cases hmoves with
  | follow => exact ⟨waiting, (AList.lookup_insert_ne hne).trans hwaiting, rfl, rfl⟩
  | lead => exact ⟨waiting, (AList.lookup_insert_ne hne).trans hwaiting, rfl, rfl⟩
  | leave other old outcome hother hphase houtcome => exact hinsert hother rfl rfl
  | returnGlobal other old hother hphase => exact hinsert hother rfl rfl
  | returnPerProof other old hother hphase => exact hinsert hother rfl rfl
  | _ => exact ⟨waiting, hwaiting, rfl, rfl⟩

/-- A value of a channel was there, or its leader has sent it. -/
theorem Moves.value_cases {flights moved : Flights Proof} (hmoves : Moves flights moved)
    {channel : ℕ} {result : GatewayResult Unit}
    (hvalue : (moved.channels channel).value = some result) :
    (flights.channels channel).value = some result ∨
      ∃ proof, flights.LedBy channel proof (some result) := by
  have hupdate : ∀ {other : ℕ} {shared : Channel},
      (Function.update flights.channels other shared channel).value = some result →
        channel = other ∧ shared.value = some result ∨
          (flights.channels channel).value = some result := by
    intro other shared hshared
    rw [Function.update_apply] at hshared
    split_ifs at hshared with hsame
    · exact .inl ⟨hsame, hshared⟩
    · exact .inr hshared
  cases hmoves with
  | follow proof other hentry hglobal hpermits =>
    rcases hupdate hvalue with ⟨rfl, hshared⟩ | hold
    · exact .inl hshared
    · exact .inl hold
  | lead proof hentry hroom =>
    rcases hupdate hvalue with ⟨-, hshared⟩ | hold
    · exact absurd hshared (by simp)
    · exact .inl hold
  | send other proof sent hleader =>
    rcases hupdate hvalue with ⟨rfl, hshared⟩ | hold
    · obtain rfl := Option.some.inj hshared
      exact .inr ⟨proof, _, hleader, rfl, fun _ hresult ↦ hresult⟩
    · exact .inl hold
  | closeSender other proof work hleader =>
    rcases hupdate hvalue with ⟨rfl, hshared⟩ | hold
    · exact .inl hshared
    · exact .inl hold
  | returnPerProof id waiting hwaiting hphase =>
    rcases hupdate hvalue with ⟨rfl, hshared⟩ | hold
    · exact .inl hshared
    · exact .inl hold
  | _ => exact .inl hvalue

/-- Every move keeps every answer that of a leader with the same proof. -/
theorem Answered.moves {flights moved : Flights Proof} (hanswered : Answered flights)
    (hregistered : Registered flights) (hmoves : Moves flights moved) : Answered moved := by
  refine ⟨fun id waiting hwaiting ↦ ?_, fun channel result hresult ↦ ?_,
    fun id waiting hwaiting hok ↦ ?_⟩
  · rcases hmoves.subscriber_cases hwaiting with ⟨old, hold, hchannel, hproof, -⟩ | ⟨-, -, hnew⟩
    · rw [hchannel, hproof]
      exact (hanswered.joined id old hold).moves hregistered hmoves
    · rcases hnew with hentry | hled
      · obtain ⟨work, hwork⟩ := hregistered.entry_live _ _ hentry
        have hled : flights.LedBy waiting.channel waiting.proof none :=
          ⟨_, hwork, rfl, fun _ hnone ↦ absurd hnone (by simp)⟩
        exact hled.moves hregistered hmoves
      · exact hled
  · rcases hmoves.value_cases hresult with hold | ⟨proof, hled⟩
    · obtain ⟨proof, hled⟩ := hanswered.sent channel result hold
      exact ⟨proof, hled.moves hregistered hmoves⟩
    · exact ⟨proof, hled.moves hregistered hmoves⟩
  · rcases hmoves.subscriber_cases hwaiting with
      ⟨old, hold, hchannel, hproof, -, houtcome⟩ | ⟨-, hnone, -⟩
    · rw [hchannel, hproof]
      rcases houtcome hok with hok' | hsent
      · exact (hanswered.answered id old hold hok').moves hregistered hmoves
      · exact (hanswered.value_of_subscriber hold hsent).moves hregistered hmoves
    · rw [hnone] at hok
      exact absurd hok (by simp)

/-! ### Runs -/

/-- What every run keeps. -/
structure Coherent (flights : Flights Proof) : Prop where
  registered : Registered flights
  balanced : Balanced flights
  answered : Answered flights

theorem Coherent.moves {flights moved : Flights Proof} (hcoherent : Coherent flights)
    (hmoves : Moves flights moved) : Coherent moved :=
  ⟨hcoherent.registered.moves hmoves, hcoherent.balanced.moves hcoherent.registered hmoves,
    hcoherent.answered.moves hcoherent.registered hmoves⟩

theorem coherent_initial : Coherent (Flights.initial : Flights Proof) where
  registered := by
    refine ⟨Nat.zero_le _, fun _ _ hleader ↦ ?_, fun _ _ hentry ↦ ?_, fun _ _ _ hleader ↦ ?_⟩
    · exact absurd hleader (by simp [Flights.initial])
    · exact absurd hentry (by simp [Flights.initial])
    · exact absurd hleader (by simp [Flights.initial])
  balanced := by
    refine ⟨fun _ _ hwaiting ↦ ?_, rfl, fun _ ↦ rfl⟩
    exact absurd hwaiting (by simp [Flights.initial])
  answered := by
    refine ⟨fun _ _ hwaiting ↦ ?_, fun _ _ hvalue ↦ ?_, fun _ _ hwaiting ↦ ?_⟩
    · exact absurd hwaiting (by simp [Flights.initial])
    · exact absurd hvalue (by simp [Flights.initial])
    · exact absurd hwaiting (by simp [Flights.initial])

theorem coherent_run (actions : List (Action Proof)) :
    Coherent (run step (Flights.initial : Flights Proof) actions) :=
  run_invariant (fun flights action hcoherent ↦ hcoherent.moves (step_moves flights action))
    actions _ coherent_initial

/-- All followers of one proof follow one flight. -/
def Unmixed (flights : Flights Proof) : Prop :=
  ∀ id id' waiting waiting', flights.subscribers.lookup id = some waiting →
    flights.subscribers.lookup id' = some waiting' → waiting.following = true →
      waiting'.following = true → waiting.proof = waiting'.proof →
        waiting.channel = waiting'.channel

/-- A request that finds a flight of its proof finds no follower of an earlier flight of that proof,
one whose entry is gone. -/
def NoneStale (flights : Flights Proof) : Action Proof → Prop
  | .join proof => ∀ channel ∈ flights.entries.lookup proof,
    ∀ entry ∈ flights.subscribers.entries, entry.2.following = true → entry.2.proof = proof →
      entry.2.channel = channel
  | _ => True

instance (flights : Flights Proof) (action : Action Proof) :
    Decidable (NoneStale flights action) :=
  match action with
  | .join proof =>
    match hentry : flights.entries.lookup proof with
    | none => isTrue fun _ hchannel ↦ absurd (hentry.symm.trans hchannel) (by simp)
    | some channel =>
      decidable_of_iff (∀ entry ∈ flights.subscribers.entries, entry.2.following = true →
          entry.2.proof = proof → entry.2.channel = channel) (by
        constructor
        · intro hall other hother
          obtain rfl := Option.some.inj (hentry.symm.trans hother)
          exact hall
        · exact fun hall ↦ hall channel hentry)
  | .workReturns .. | .send _ | .removeEntry _ | .closeSender _ | .awaken _ | .timeout _
  | .cancel _ | .returnGlobal _ | .returnPerProof _ => isTrue trivial

/-- Only a request that joins is given a number. -/
theorem step_next (flights : Flights Proof) {action : Action Proof}
    (haction : ∀ proof, action ≠ .join proof) : (step flights action).next = flights.next := by
  have hleave : ∀ id outcome, (flights.leave id outcome).next = flights.next := by
    intro id outcome
    unfold Flights.leave
    split <;> rfl
  cases action with
  | join proof => exact absurd rfl (haction proof)
  | workReturns channel result => simp only [step, Flights.workReturns]; split <;> rfl
  | send channel => simp only [step, Flights.send]; split <;> rfl
  | removeEntry channel => simp only [step, Flights.removeEntry]; split <;> rfl
  | closeSender channel => simp only [step, Flights.closeSender]; split <;> rfl
  | awaken id =>
    simp only [step, Flights.awaken]
    split
    · split
      · exact hleave _ _
      · rfl
    · rfl
  | timeout id => exact hleave _ _
  | cancel id => exact hleave _ _
  | returnGlobal id => simp only [step, Flights.returnGlobal]; split <;> rfl
  | returnPerProof id => simp only [step, Flights.returnPerProof]; split <;> rfl

omit [DecidableEq Proof] in
/-- Assumes: followers that were all there. They still follow one flight. -/
theorem Unmixed.of_old {flights moved : Flights Proof} (hunmixed : Unmixed flights)
    (hold : ∀ id waiting, moved.subscribers.lookup id = some waiting → waiting.following = true →
      ∃ old, flights.subscribers.lookup id = some old ∧ waiting.channel = old.channel ∧
        waiting.proof = old.proof ∧ old.following = true) : Unmixed moved := by
  intro id id' waiting waiting' hwaiting hwaiting' hfollowing hfollowing' hproof
  obtain ⟨old, hlookup, hchannel, hsame, hold₁⟩ := hold id waiting hwaiting hfollowing
  obtain ⟨old', hlookup', hchannel', hsame', hold₂⟩ := hold id' waiting' hwaiting' hfollowing'
  rw [hchannel, hchannel']
  exact hunmixed id id' old old' hlookup hlookup' hold₁ hold₂
    (hsame.symm.trans (hproof.trans hsame'))

omit [DecidableEq Proof] in
/-- Assumes: no follower of an earlier flight of the proof. A new follower mixes with none. -/
theorem Unmixed.followed {flights : Flights Proof} (hunmixed : Unmixed flights) {proof : Proof}
    {channel : ℕ}
    (hstale : ∀ entry ∈ flights.subscribers.entries, entry.2.following = true →
      entry.2.proof = proof → entry.2.channel = channel) :
    Unmixed (flights.followed proof channel) := by
  have hcases : ∀ {id waiting},
      (flights.followed proof channel).subscribers.lookup id = some waiting →
        waiting.proof = proof ∧ waiting.channel = channel ∨
          flights.subscribers.lookup id = some waiting := by
    intro id waiting hwaiting
    rcases Library.Table.lookup_insert_cases hwaiting with ⟨-, rfl⟩ | ⟨-, hold⟩
    · exact .inl ⟨rfl, rfl⟩
    · exact .inr hold
  have hold : ∀ {id waiting}, flights.subscribers.lookup id = some waiting →
      waiting.following = true → waiting.proof = proof → waiting.channel = channel :=
    fun hlookup ↦ hstale _ (AList.mem_lookup_iff.mp hlookup)
  intro id id' waiting waiting' hwaiting hwaiting' hfollowing hfollowing' hsame
  rcases hcases hwaiting with ⟨hproof, hchannel⟩ | hlookup <;>
    rcases hcases hwaiting' with ⟨hproof', hchannel'⟩ | hlookup'
  · exact hchannel.trans hchannel'.symm
  · exact hchannel.trans (hold hlookup' hfollowing' (hsame.symm.trans hproof)).symm
  · exact (hold hlookup hfollowing (hsame.trans hproof')).trans hchannel'.symm
  · exact hunmixed id id' waiting waiting' hlookup hlookup' hfollowing hfollowing' hsame

/-- Assumes: no follower of an earlier flight when a request follows. All followers of a proof
follow one flight. -/
theorem unmixed_step (flights : Flights Proof) (action : Action Proof)
    (hstale : NoneStale flights action) (hcoherent : Coherent flights)
    (hunmixed : Unmixed flights) : Unmixed (step flights action) := by
  have hmoves := step_moves flights action
  by_cases haction : ∃ proof, action = .join proof
  · obtain ⟨proof, rfl⟩ := haction
    cases hjoin : flights.join proof with
    | error error =>
      simp only [step, hjoin]
      exact hunmixed
    | ok result =>
      simp only [step, hjoin]
      obtain ⟨ids, joined⟩ := result
      rcases Flights.join_cases hjoin with ⟨channel, hentry, -, -, -, rfl⟩ | ⟨-, -, -, rfl⟩
      · exact hunmixed.followed (hstale channel hentry)
      · refine hunmixed.of_old fun id waiting hwaiting hfollowing ↦ ?_
        rcases Library.Table.lookup_insert_cases hwaiting with ⟨-, rfl⟩ | ⟨-, hold⟩
        · exact absurd hfollowing (by simp [Waiting.following])
        · exact ⟨waiting, hold, rfl, rfl, hfollowing⟩
  · refine hunmixed.of_old fun id waiting hwaiting hfollowing ↦ ?_
    rcases hmoves.subscriber_cases hwaiting with
      ⟨old, hold, hchannel, hproof, hold', -⟩ | ⟨hid, -, -⟩
    · exact ⟨old, hold, hchannel, hproof, hold' hfollowing⟩
    · have hlt := ((hcoherent.moves hmoves).balanced.subscriber_lt id waiting hwaiting).1
      rw [step_next flights fun proof hjoin ↦ haction ⟨proof, hjoin⟩] at hlt
      exact absurd hid hlt.ne

omit [DecidableEq Proof] in
/-- A follower that has not left holds both permits. -/
theorem Waiting.holds_of_following {waiting : Waiting Proof}
    (hfollowing : waiting.following = true) :
    waiting.holdsGlobal = true ∧ waiting.holdsPerProof = true := by
  obtain ⟨hfollower, hphase⟩ := Bool.and_eq_true_iff.mp hfollowing
  have hphase : waiting.phase = .waiting := of_decide_eq_true hphase
  simp [Waiting.holdsGlobal, Waiting.holdsPerProof, hfollower, hphase]

omit [DecidableEq Proof] in
theorem Balanced.followers_le {flights : Flights Proof} (hbalanced : Balanced flights) :
    flights.followers ≤ maxFollowers := by
  have hle : flights.followers ≤ flights.heldGlobal := by
    refine total_le_total _ _ fun id waiting _ ↦ ?_
    by_cases hfollowing : waiting.following = true
    · rw [if_pos hfollowing, if_pos (Waiting.holds_of_following hfollowing).1]
    · rw [if_neg hfollowing]
      exact Nat.zero_le _
  have hglobal := hbalanced.global
  omega

/-- Assumes: all followers of a proof in one flight. They are within its permits. -/
theorem Balanced.followersOf_le {flights : Flights Proof} (hbalanced : Balanced flights)
    (hunmixed : Unmixed flights) (proof : Proof) :
    flights.followersOf proof ≤ maxFollowersPerProof := by
  by_cases hany : ∃ id waiting, flights.subscribers.lookup id = some waiting ∧
      waiting.following = true ∧ waiting.proof = proof
  · obtain ⟨id, first, hfirst, hfollowing, hproof⟩ := hany
    have hle : flights.followersOf proof ≤ flights.heldPerProof first.channel := by
      refine total_le_total _ _ fun id' waiting hwaiting ↦ ?_
      by_cases hcounted : waiting.proof = proof ∧ waiting.following = true
      · have hchannel := hunmixed id' id waiting first hwaiting hfirst hcounted.2 hfollowing
          (hcounted.1.trans hproof.symm)
        rw [if_pos hcounted, if_pos ⟨hchannel, (Waiting.holds_of_following hcounted.2).2⟩]
      · rw [if_neg hcounted]
        exact Nat.zero_le _
    have hperProof := hbalanced.perProof first.channel
    omega
  · have hnone : flights.followersOf proof = 0 := by
      refine total_eq_zero _ fun id waiting hwaiting ↦ if_neg fun hcounted ↦ ?_
      exact hany ⟨id, waiting, hwaiting, hcounted.2, hcounted.1⟩
    rw [hnone]
    exact Nat.zero_le _

theorem unmixed_run (actions : List (Action Proof))
    (hstale : Guarded step NoneStale (Flights.initial : Flights Proof) actions) :
    Unmixed (run step Flights.initial actions) := by
  have hinvariant := @run_guarded_invariant _ _ step NoneStale
    (fun flights : Flights Proof ↦ Coherent flights ∧ Unmixed flights)
    (fun flights action hnone hboth ↦ ⟨hboth.1.moves (step_moves flights action),
      unmixed_step flights action hnone hboth.1 hboth.2⟩)
    actions Flights.initial hstale
  refine (hinvariant ⟨coherent_initial, fun _ _ _ _ hwaiting ↦ ?_⟩).2
  exact absurd hwaiting (by simp [Flights.initial])

/-- The drop of a follower that has left returns one permit to each semaphore. -/
theorem permits_returned {flights : Flights Proof} {id : ℕ} {waiting : Waiting Proof}
    (hwaiting : flights.subscribers.lookup id = some waiting) (hphase : waiting.phase = .left)
    (hfollower : waiting.follower = true) :
    let dropped := run step flights [.returnGlobal id, .returnPerProof id]
    dropped.available = flights.available + 1 ∧
      (dropped.channels waiting.channel).permits =
        (flights.channels waiting.channel).permits + 1 := by
  obtain ⟨proof, channel, follower, outcome, phase⟩ := waiting
  obtain rfl : phase = .left := hphase
  obtain rfl : follower = true := hfollower
  have hglobal : step flights (.returnGlobal id) =
      flights.globalReturned id ⟨proof, channel, true, outcome, .left⟩ := by
    simp only [step, Flights.returnGlobal, hwaiting]
    rfl
  have hlookup : (flights.globalReturned id
      ⟨proof, channel, true, outcome, .left⟩).subscribers.lookup id =
        some ⟨proof, channel, true, outcome, .globalReturned⟩ :=
    AList.lookup_insert _
  simp only [run_cons, run_nil, hglobal]
  simp only [step, Flights.returnPerProof, hlookup]
  refine ⟨rfl, ?_⟩
  simp [Flights.setChannel, Flights.setSubscriber, Flights.globalReturned]

/-- Assumes: no request follows a flight while followers of an earlier flight of the same proof have
not left. In every state that is reached there are at most `maxFlights` flights, one live leader for
each proof, and followers within both limits; every permit is free or held, and the drop of a
follower returns its two; a subscriber that was answered with success shares its proof with the
leader of its flight, whose work returned success; and the drop of a live leader removes the entry
of its own flight and no other. -/
theorem single_flight_isolated (actions : List (Action Proof))
    (hstale : Guarded step NoneStale (Flights.initial : Flights Proof) actions) :
    let flights := run step (Flights.initial : Flights Proof) actions
    flights.entries.entries.length ≤ maxFlights ∧
      (∀ channel channel' leader leader', flights.leaders.lookup channel = some leader →
        flights.leaders.lookup channel' = some leader' → leader.phase = .live →
          leader'.phase = .live → leader.proof = leader'.proof → channel = channel') ∧
      (∀ proof, flights.followersOf proof ≤ maxFollowersPerProof) ∧
      flights.followers ≤ maxFollowers ∧
      flights.available + flights.heldGlobal = maxFollowers ∧
      (∀ channel,
        (flights.channels channel).permits + flights.heldPerProof channel = maxFollowersPerProof) ∧
      (∀ id waiting, flights.subscribers.lookup id = some waiting → waiting.phase = .left →
        waiting.follower = true →
          let dropped := run step flights [.returnGlobal id, .returnPerProof id]
          dropped.available = flights.available + 1 ∧
            (dropped.channels waiting.channel).permits =
              (flights.channels waiting.channel).permits + 1) ∧
      (∀ id waiting, flights.subscribers.lookup id = some waiting →
        waiting.outcome = some (.ok ()) →
          ∃ leader, flights.leaders.lookup waiting.channel = some leader ∧
            leader.proof = waiting.proof ∧ leader.work = some (.ok ())) ∧
      (∀ channel leader, flights.leaders.lookup channel = some leader → leader.phase = .live →
        ∀ proof other, (step flights (.removeEntry channel)).entries.lookup proof = some other ↔
          flights.entries.lookup proof = some other ∧ other ≠ channel) := by
  intro flights
  have hcoherent : Coherent flights := coherent_run actions
  have hunmixed : Unmixed flights := unmixed_run actions hstale
  refine ⟨hcoherent.registered.length_le, ?_, hcoherent.balanced.followersOf_le hunmixed,
    hcoherent.balanced.followers_le, hcoherent.balanced.global, hcoherent.balanced.perProof,
    fun _ _ hwaiting hphase hfollower ↦ permits_returned hwaiting hphase hfollower, ?_, ?_⟩
  · rintro channel channel' ⟨proof, work, phase⟩ ⟨proof', work', phase'⟩
      hleader hleader' rfl rfl rfl
    have hentry := hcoherent.registered.live_entry channel _ _ hleader
    rw [hcoherent.registered.live_entry channel' _ _ hleader'] at hentry
    exact (Option.some.inj hentry).symm
  · intro id waiting hwaiting hok
    obtain ⟨leader, hleader, hproof, hwork⟩ := hcoherent.answered.answered id waiting hwaiting hok
    exact ⟨leader, hleader, hproof, hwork _ rfl⟩
  · rintro channel ⟨proof, work, phase⟩ hleader rfl
    have hremove : step flights (.removeEntry channel) = flights.removed channel proof work := by
      simp only [step, Flights.removeEntry, hleader]
      rfl
    rw [hremove]
    exact hcoherent.registered.lookup_removed hleader

end Runs

/-- A flight with a follower that is answered and leaves, and then a second flight of the same proof
with a follower. -/
def successiveFlights : List (Action (BitVec 256)) :=
  [.join 0, .join 0, .workReturns 0 (.ok ()), .send 0, .awaken 1, .returnGlobal 1,
    .returnPerProof 1, .removeEntry 0, .join 0, .join 0]

theorem single_flight_isolated_successive :
    (run step Flights.initial successiveFlights).followersOf 0 = 1 ∧
      (run step Flights.initial successiveFlights).followersOf 0 ≤ maxFollowersPerProof :=
  ⟨by decide, (single_flight_isolated successiveFlights (by decide)).2.2.1 0⟩

/-- A flight with 63 followers fails, its entry is removed before they are woken, and the next
flight of the same proof gets a follower. -/
def overlappingFlights : List (Action (BitVec 256)) :=
  .join 0 :: List.replicate 63 (.join 0) ++
    [.workReturns 0 (.error .invalidVirtualKey), .send 0, .removeEntry 0, .join 0, .join 0]

/-- One proof has 64 followers. -/
theorem followers_exceed_proof_limit :
    ¬ ∀ (actions : List (Action (BitVec 256))) (proof : BitVec 256),
      (run step Flights.initial actions).followersOf proof ≤ maxFollowersPerProof := by
  intro hbound
  have hcount : (run step Flights.initial overlappingFlights).followersOf 0 = 64 := by
    decide +kernel
  have hle := hbound overlappingFlights 0
  rw [hcount] at hle
  exact absurd hle (by decide)

end Relayna.Auth

import Mathlib.Data.List.AList
import Mathlib.Logic.Function.Basic

/-!
# Shared verification flights

`crates/gateway-core/src/verification_flight.rs` lets concurrent requests with one proof share one
verification. The first request registers a flight and its work runs in a task of its own, which
owns the `Leader`; later requests follow the flight with permits of two semaphores, one of the
process and one of the flight.

What a flight shares, its watch channel and its semaphore, is a `Channel` under the number of the
flight, which outlives the entry of the flight because followers hold references to it. The drop of
a leader removes its entry under the lock and closes the channel afterwards, and the drop of a
follower returns its two permits one after the other, so these are separate steps. `join` is one
step: it runs under the lock, and a permit that is returned meanwhile does not change what it
answers at the moment of its last acquisition. The leaders and the followers stay in the state after
they are gone, with what their work returned or what they were answered. Nothing panics under the
lock, so it is never poisoned.
-/

set_option autoImplicit false
set_option relaxedAutoImplicit false

namespace Relayna.Auth

/-- The errors of authentication. `store` is any error of the key store. -/
inductive GatewayError
  | authenticationOverloaded
  | invalidVirtualKey
  | disabledVirtualKey
  | revokedVirtualKey
  | expiredVirtualKey
  | store
  deriving DecidableEq

abbrev GatewayResult (Value : Type) := Except GatewayError Value

def maxFlights : ℕ := 10

def maxFollowersPerProof : ℕ := 63

/-- The permits of `Flights::followers`. -/
def maxFollowers : ℕ := 64

/-- What a flight shares: the value and the sender of its watch channel, and the free permits of its
semaphore. -/
structure Channel where
  value : Option (GatewayResult Unit)
  senderAlive : Bool
  permits : ℕ

/-- How far a leader has come: it is live until its drop has removed its entry. -/
inductive LeaderPhase
  | live
  | removed
  | closed
  deriving DecidableEq

/-- `Leader`, with what its work returned. -/
structure Leader (Proof : Type) where
  proof : Proof
  work : Option (GatewayResult Unit)
  phase : LeaderPhase

/-- How far a subscriber has come. -/
inductive WaitingPhase
  | waiting
  | left
  | globalReturned
  | returned
  deriving DecidableEq

/-- `Waiting`, with the proof it joined with and what `wait` returned. A follower has a permit of
each semaphore, the request of the leader has none. -/
structure Waiting (Proof : Type) where
  proof : Proof
  channel : ℕ
  follower : Bool
  outcome : Option (GatewayResult Unit)
  phase : WaitingPhase

/-- `Flights`, with its channels, leaders and subscribers. -/
structure Flights (Proof : Type) where
  entries : AList fun _ : Proof ↦ ℕ
  available : ℕ
  channels : ℕ → Channel
  leaders : AList fun _ : ℕ ↦ Leader Proof
  subscribers : AList fun _ : ℕ ↦ Waiting Proof
  next : ℕ

variable {Proof : Type}

/-- No flight has been registered. -/
def Flights.initial : Flights Proof where
  entries := ∅
  available := maxFollowers
  channels := fun _ ↦ ⟨none, false, maxFollowersPerProof⟩
  leaders := ∅
  subscribers := ∅
  next := 0

/-- Whether a subscriber holds a permit of the process. -/
def Waiting.holdsGlobal (waiting : Waiting Proof) : Bool :=
  waiting.follower && (waiting.phase = .waiting || waiting.phase = .left)

/-- Whether a subscriber holds a permit of its flight. -/
def Waiting.holdsPerProof (waiting : Waiting Proof) : Bool :=
  waiting.follower && (waiting.phase ≠ .returned)

/-- Whether a subscriber is a follower that has not left. -/
def Waiting.following (waiting : Waiting Proof) : Bool :=
  waiting.follower && (waiting.phase = .waiting)

/-! ### Operations -/

section Operations

variable [DecidableEq Proof]

/-- The follower branch of `Flights::join`. -/
def Flights.follow (flights : Flights Proof) (proof : Proof) (channel : ℕ) :
    GatewayResult ((ℕ × Option ℕ) × Flights Proof) :=
  if flights.available = 0 then .error .authenticationOverloaded
  else if (flights.channels channel).permits = 0 then .error .authenticationOverloaded
  else .ok ((flights.next, none), { flights with
    available := flights.available - 1
    channels := Function.update flights.channels channel
      { flights.channels channel with permits := (flights.channels channel).permits - 1 }
    subscribers := flights.subscribers.insert flights.next ⟨proof, channel, true, none, .waiting⟩
    next := flights.next + 1 })

/-- The leader branch of `Flights::join`. -/
def Flights.lead (flights : Flights Proof) (proof : Proof) :
    GatewayResult ((ℕ × Option ℕ) × Flights Proof) :=
  if maxFlights ≤ flights.entries.entries.length then .error .authenticationOverloaded
  else .ok ((flights.next, some flights.next), { flights with
    entries := flights.entries.insert proof flights.next
    channels := Function.update flights.channels flights.next ⟨none, true, maxFollowersPerProof⟩
    leaders := flights.leaders.insert flights.next ⟨proof, none, .live⟩
    subscribers :=
      flights.subscribers.insert flights.next ⟨proof, flights.next, false, none, .waiting⟩
    next := flights.next + 1 })

/-- `Flights::join`: the number of the subscriber, and that of the flight for its leader. -/
def Flights.join (flights : Flights Proof) (proof : Proof) :
    GatewayResult ((ℕ × Option ℕ) × Flights Proof) :=
  match flights.entries.lookup proof with
  | some channel => flights.follow proof channel
  | none => flights.lead proof

def Flights.setLeader (flights : Flights Proof) (channel : ℕ) (leader : Leader Proof) :
    Flights Proof :=
  { flights with leaders := flights.leaders.insert channel leader }

def Flights.setSubscriber (flights : Flights Proof) (id : ℕ) (waiting : Waiting Proof) :
    Flights Proof :=
  { flights with subscribers := flights.subscribers.insert id waiting }

/-- Change what a flight shares. -/
def Flights.setChannel (flights : Flights Proof) (channel : ℕ) (shared : Channel) :
    Flights Proof :=
  { flights with channels := Function.update flights.channels channel shared }

/-- The work of a live leader returns. -/
def Flights.workReturns (flights : Flights Proof) (channel : ℕ) (result : GatewayResult Unit) :
    Flights Proof :=
  match flights.leaders.lookup channel with
  | some ⟨proof, none, .live⟩ => flights.setLeader channel ⟨proof, some result, .live⟩
  | _ => flights

/-- A live leader sends what its work returned. -/
def Flights.send (flights : Flights Proof) (channel : ℕ) : Flights Proof :=
  match flights.leaders.lookup channel with
  | some ⟨_, some result, .live⟩ =>
    flights.setChannel channel { flights.channels channel with value := some result }
  | _ => flights

/-- `Leader::drop`, which also runs when the task of the leader panics or is cancelled. -/
def Flights.removeEntry (flights : Flights Proof) (channel : ℕ) : Flights Proof :=
  match flights.leaders.lookup channel with
  | some ⟨proof, work, .live⟩ =>
    { flights.setLeader channel ⟨proof, work, .removed⟩ with
      entries := flights.entries.erase proof }
  | _ => flights

/-- The drop of the sender, after `Leader::drop`. -/
def Flights.closeSender (flights : Flights Proof) (channel : ℕ) : Flights Proof :=
  match flights.leaders.lookup channel with
  | some ⟨proof, work, .removed⟩ =>
    (flights.setLeader channel ⟨proof, work, .closed⟩).setChannel channel
      { flights.channels channel with senderAlive := false }
  | _ => flights

/-- What the loop of `Waiting::wait` returns now, when it does not go on waiting: the value of the
channel, or an error once the sender is gone. -/
def Channel.read (channel : Channel) : Option (GatewayResult Unit) :=
  match channel.value with
  | some result => some result
  | none => if channel.senderAlive then none else some (.error .authenticationOverloaded)

/-- A subscriber that is waiting leaves, with a result or cancelled. -/
def Flights.leave (flights : Flights Proof) (id : ℕ) (outcome : Option (GatewayResult Unit)) :
    Flights Proof :=
  match flights.subscribers.lookup id with
  | some ⟨proof, channel, follower, _, .waiting⟩ =>
    flights.setSubscriber id ⟨proof, channel, follower, outcome, .left⟩
  | _ => flights

/-- A subscriber that is waiting reads its channel, and leaves when there is a result. -/
def Flights.awaken (flights : Flights Proof) (id : ℕ) : Flights Proof :=
  match flights.subscribers.lookup id with
  | some waiting =>
    match (flights.channels waiting.channel).read with
    | some result => flights.leave id (some result)
    | none => flights
  | none => flights

/-- The drop of `_global` of a subscriber that has left. -/
def Flights.returnGlobal (flights : Flights Proof) (id : ℕ) : Flights Proof :=
  match flights.subscribers.lookup id with
  | some ⟨proof, channel, follower, outcome, .left⟩ =>
    { flights.setSubscriber id ⟨proof, channel, follower, outcome, .globalReturned⟩ with
      available := flights.available + if follower then 1 else 0 }
  | _ => flights

/-- The drop of `_per_proof`, after that of `_global`. -/
def Flights.returnPerProof (flights : Flights Proof) (id : ℕ) : Flights Proof :=
  match flights.subscribers.lookup id with
  | some ⟨proof, channel, follower, outcome, .globalReturned⟩ =>
    (flights.setSubscriber id ⟨proof, channel, follower, outcome, .returned⟩).setChannel channel
      { flights.channels channel with
        permits := (flights.channels channel).permits + if follower then 1 else 0 }
  | _ => flights

end Operations

/-! ### Steps -/

/-- A step of a request, of the task of a leader or of a subscriber. -/
inductive Action (Proof : Type)
  | join (proof : Proof)
  | workReturns (channel : ℕ) (result : GatewayResult Unit)
  | send (channel : ℕ)
  | removeEntry (channel : ℕ)
  | closeSender (channel : ℕ)
  | awaken (id : ℕ)
  | timeout (id : ℕ)
  | cancel (id : ℕ)
  | returnGlobal (id : ℕ)
  | returnPerProof (id : ℕ)

/-- One step. A `join` that fails changes nothing. -/
def step [DecidableEq Proof] (flights : Flights Proof) : Action Proof → Flights Proof
  | .join proof =>
    match flights.join proof with
    | .ok (_, joined) => joined
    | .error _ => flights
  | .workReturns channel result => flights.workReturns channel result
  | .send channel => flights.send channel
  | .removeEntry channel => flights.removeEntry channel
  | .closeSender channel => flights.closeSender channel
  | .awaken id => flights.awaken id
  | .timeout id => flights.leave id (some (.error .authenticationOverloaded))
  | .cancel id => flights.leave id none
  | .returnGlobal id => flights.returnGlobal id
  | .returnPerProof id => flights.returnPerProof id

end Relayna.Auth

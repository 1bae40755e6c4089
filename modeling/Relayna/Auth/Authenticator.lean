import Relayna.Auth.SingleFlight
import Relayna.Auth.VerificationCache

/-!
# Authentication of virtual keys

`crates/gateway-core/src/auth.rs` authenticates a virtual key in a few steps: load the record of its
prefix and check its state, look for its proof in the cache, otherwise verify the secret in a shared
flight, load and check the record once more, and note the use of the key. Calls run concurrently,
and between any two steps other calls, verification jobs, the store and the clock move on.

A job is the closure that is handed to `run_key_crypto`: it looks for the proof once more, verifies
the secret with Argon2 and inserts the proof. Argon2 is an oracle whose answer is part of the step,
and `accepted` notes every answer that was positive. The crypto queue only decides whether and when
a job starts, so a queued job may start or fail at any time; a job that fails or panics returns an
error. `inserted` notes when a job has called `insert` for what it accepted.
-/

set_option autoImplicit false
set_option relaxedAutoImplicit false

namespace Relayna.Auth

/-! ### Keys -/

structure VirtualKey where
  raw : Text
  lookupPrefix : Text
  deriving DecidableEq

structure StoredVirtualKey where
  id : Uuid
  projectId : Option Uuid
  keyPrefix : Text
  keyHash : Text
  disabled : Bool
  revokedAt : Option Timestamp
  expiresAt : Option Timestamp
  deriving DecidableEq

structure AuthenticatedKey where
  keyId : Uuid
  projectId : Option Uuid
  keyPrefix : Text
  deriving DecidableEq

def validateKeyState (stored : StoredVirtualKey) (now : Timestamp) : GatewayResult Unit :=
  if stored.revokedAt.isSome then .error .revokedVirtualKey
  else if stored.disabled then .error .disabledVirtualKey
  else if stored.expiresAt.any (· ≤ now) then .error .expiredVirtualKey
  else .ok ()

/-- `chrono::Duration::from_std`, in nanoseconds. It fails beyond the milliseconds of an `i64`. -/
def durationFromStd (elapsed : ℕ) : Option ℤ :=
  if elapsed ≤ (2 ^ 63 - 1) * 1000000 then some elapsed else none

/-! ### Jobs and calls -/

/-- Who has spawned a job: a flight, or a call without a proof. -/
inductive JobId
  | flight (channel : ℕ)
  | own (call : ℕ)
  deriving DecidableEq

/-- A positive answer of the oracle, for a job and at an instant. -/
structure Acceptance where
  job : JobId
  id : Uuid
  hash : Text
  raw : Text
  acceptedAt : ℕ
  deriving DecidableEq

/-- How far a job has come. -/
inductive JobPhase
  | queued
  | started
  | missed
  | accepted (acceptance : Acceptance)
  | done (result : GatewayResult Unit)

/-- The closure that `authenticate_virtual_key` hands to `verify`, with the instant at which it
looked into the cache. -/
structure Job where
  id : Uuid
  hash : Text
  raw : Text
  spawnedAt : ℕ
  consultedAt : Option ℕ
  phase : JobPhase

/-- Where a call of `authenticate_virtual_key` stands. A record that was checked carries the time it
was checked with. -/
inductive CallPhase
  | finding
  | consulting (stored : StoredVirtualKey) (checkedAt : Timestamp)
  | verifying (stored : StoredVirtualKey)
  | joining (stored : StoredVirtualKey)
  | waiting (stored : StoredVirtualKey) (subscriber : ℕ)
  | working (stored : StoredVirtualKey)
  | refreshing (stored : StoredVirtualKey)
  | marking (first last : StoredVirtualKey) (checkedAt : Timestamp)
  | granted (first last : StoredVirtualKey) (checkedAt : Timestamp) (returnedAt : ℕ)
  | failed (error : GatewayError)
  | cancelled
  deriving DecidableEq

/-- A call, with the instants at which it looked into the cache and the subscriber it became. -/
structure Call where
  key : VirtualKey
  now : Timestamp
  startedAt : ℕ
  consulted : List ℕ
  subscriber : Option ℕ
  phase : CallPhase
  deriving DecidableEq

/-- The time of a call, `current_time`. -/
def Call.currentTime (call : Call) (clock : ℕ) : Timestamp :=
  call.now + (durationFromStd (clock - call.startedAt)).getD 0

def Call.result (call : Call) : Option (GatewayResult AuthenticatedKey) :=
  match call.phase with
  | .granted _ last _ _ => some (.ok ⟨last.id, last.projectId, last.keyPrefix⟩)
  | .failed error => some (.error error)
  | _ => none

/-! ### The process -/

/-- The store, the clock, the cache, the flights, the jobs and the calls. -/
structure World (Proof : Type) where
  clock : ℕ
  store : AList fun _ : Text ↦ StoredVirtualKey
  lookupSlots : ℕ
  cache : Entries Proof
  flights : Flights Proof
  jobs : AList fun _ : JobId ↦ Job
  calls : AList fun _ : ℕ ↦ Call
  accepted : List Acceptance
  inserted : List (Acceptance × ℕ)

variable {Proof : Type} [DecidableEq Proof]

/-- A process that has just started, with an empty store. -/
def World.initial : World Proof where
  clock := 0
  store := ∅
  lookupSlots := 64
  cache := .empty
  flights := .initial
  jobs := ∅
  calls := ∅
  accepted := []
  inserted := []

/-- Whether the cache contains a proof now, `verification_cache::contains`. -/
def World.contains (world : World Proof) (proof : Option Proof) : Bool :=
  proof.any fun proof ↦ world.cache.contains proof world.clock

def World.setCall (world : World Proof) (id : ℕ) (call : Call) : World Proof :=
  { world with calls := world.calls.insert id call }

/-- End a call, which returns its lookup slot. -/
def World.endCall (world : World Proof) (id : ℕ) (call : Call) (phase : CallPhase) : World Proof :=
  { world.setCall id { call with phase := phase } with lookupSlots := world.lookupSlots + 1 }

def World.setJob (world : World Proof) (id : JobId) (job : Job) : World Proof :=
  { world with jobs := world.jobs.insert id job }

section Steps

variable (hmac : Option (List UInt8 → Proof))

def Call.proof (call : Call) (stored : StoredVirtualKey) : Option Proof :=
  Auth.proof hmac stored.id call.key.raw stored.keyHash

def Job.proof (job : Job) : Option Proof :=
  Auth.proof hmac job.id job.raw job.hash

/-- The job of a call for a record. -/
def World.newJob (world : World Proof) (call : Call) (stored : StoredVirtualKey) : Job :=
  ⟨stored.id, stored.keyHash, call.key.raw, world.clock, none, .queued⟩

/-- Load the record of a call and check its state. -/
def World.load (world : World Proof) (call : Call) (failure : Option GatewayError) :
    GatewayResult (StoredVirtualKey × Timestamp) :=
  match failure with
  | some error => .error error
  | none =>
    match world.store.lookup call.key.lookupPrefix with
    | none => .error .invalidVirtualKey
    | some stored =>
      let checkedAt := call.currentTime world.clock
      match validateKeyState stored checkedAt with
      | .error error => .error error
      | .ok () => .ok (stored, checkedAt)

/-- A call begins, when there is a lookup slot. -/
def World.begin (world : World Proof) (id : ℕ) (key : VirtualKey) (now : Timestamp) :
    World Proof :=
  if id ∈ world.calls then world
  else
    let call := ⟨key, now, world.clock, [], none, .finding⟩
    if world.lookupSlots = 0 then
      world.setCall id { call with phase := .failed .authenticationOverloaded }
    else { world.setCall id call with lookupSlots := world.lookupSlots - 1 }

/-- The first lookup. -/
def World.find (world : World Proof) (id : ℕ) (call : Call) (failure : Option GatewayError) :
    World Proof :=
  match world.load call failure with
  | .error error => world.endCall id call (.failed error)
  | .ok (stored, checkedAt) =>
    world.setCall id { call with phase := .consulting stored checkedAt }

/-- The first look into the cache. -/
def World.consult (world : World Proof) (id : ℕ) (call : Call) (stored : StoredVirtualKey)
    (checkedAt : Timestamp) : World Proof :=
  let consulted := { call with consulted := world.clock :: call.consulted }
  if world.contains (call.proof hmac stored) then
    world.setCall id { consulted with phase := .marking stored stored checkedAt }
  else world.setCall id { consulted with phase := .verifying stored }

/-- The start of `verify`: without a proof the job runs by itself, and otherwise there is one more
look into the cache. -/
def World.verify (world : World Proof) (id : ℕ) (call : Call) (stored : StoredVirtualKey) :
    World Proof :=
  if (call.proof hmac stored).isNone then
    (world.setJob (.own id) (world.newJob call stored)).setCall id
      { call with phase := .working stored }
  else
    let consulted := { call with consulted := world.clock :: call.consulted }
    if world.contains (call.proof hmac stored) then
      world.setCall id { consulted with phase := .refreshing stored }
    else world.setCall id { consulted with phase := .joining stored }

/-- Join the flight of the proof. The job of a leader is spawned. -/
def World.join (world : World Proof) (id : ℕ) (call : Call) (stored : StoredVirtualKey) :
    World Proof :=
  match call.proof hmac stored with
  | none => world
  | some proof =>
    match world.flights.join proof with
    | .error error => world.endCall id call (.failed error)
    | .ok ((subscriber, leader), flights) =>
      let joined := { world with
        flights := flights
        jobs :=
          match leader with
          | some channel => world.jobs.insert (.flight channel) (world.newJob call stored)
          | none => world.jobs }
      joined.setCall id
        { call with subscriber := some subscriber, phase := .waiting stored subscriber }

/-- A subscriber leaves its flight. -/
def World.leave (world : World Proof) (subscriber : ℕ) (outcome : Option (GatewayResult Unit)) :
    World Proof :=
  { world with flights := world.flights.leave subscriber outcome }

/-- A call that is answered with a result of its verification goes on, or fails. -/
def World.answer (world : World Proof) (id : ℕ) (call : Call) (stored : StoredVirtualKey) :
    GatewayResult Unit → World Proof
  | .ok () => world.setCall id { call with phase := .refreshing stored }
  | .error error => world.endCall id call (.failed error)

/-- A call that waits in a flight is woken. -/
def World.awaken (world : World Proof) (id : ℕ) (call : Call) (stored : StoredVirtualKey)
    (subscriber : ℕ) : World Proof :=
  match world.flights.subscribers.lookup subscriber with
  | none => world
  | some waiting =>
    match (world.flights.channels waiting.channel).read with
    | none => world
    | some result =>
      (world.leave subscriber (some result)).answer id call stored result

/-- A call that runs its own job takes its result. -/
def World.collect (world : World Proof) (id : ℕ) (call : Call) (stored : StoredVirtualKey) :
    World Proof :=
  match world.jobs.lookup (.own id) with
  | some ⟨_, _, _, _, _, .done result⟩ => world.answer id call stored result
  | _ => world

/-- The second lookup, whose record must have the same id and hash. -/
def World.refresh (world : World Proof) (id : ℕ) (call : Call) (stored : StoredVirtualKey)
    (failure : Option GatewayError) : World Proof :=
  match world.load call failure with
  | .error error => world.endCall id call (.failed error)
  | .ok (refreshed, checkedAt) =>
    if refreshed.id ≠ stored.id ∨ refreshed.keyHash ≠ stored.keyHash then
      world.endCall id call (.failed .invalidVirtualKey)
    else world.setCall id { call with phase := .marking stored refreshed checkedAt }

inductive CallStep
  | find (failure : Option GatewayError)
  | consult
  | verify
  | join
  | awaken
  | timeout
  | collect
  | refresh (failure : Option GatewayError)
  | mark
  | cancel

/-- A step of a call where it stands. -/
def World.stepCall (world : World Proof) (id : ℕ) (call : Call) (action : CallStep) : World Proof :=
  match action, call.phase with
  | .find failure, .finding => world.find id call failure
  | .consult, .consulting stored checkedAt => world.consult hmac id call stored checkedAt
  | .verify, .verifying stored => world.verify hmac id call stored
  | .join, .joining stored => world.join hmac id call stored
  | .awaken, .waiting stored subscriber => world.awaken id call stored subscriber
  | .timeout, .waiting _ subscriber =>
    (world.leave subscriber (some (.error .authenticationOverloaded))).endCall id call
      (.failed .authenticationOverloaded)
  | .collect, .working stored => world.collect id call stored
  | .refresh failure, .refreshing stored => world.refresh id call stored failure
  | .mark, .marking first last checkedAt =>
    world.endCall id call (.granted first last checkedAt world.clock)
  | .cancel, .waiting _ subscriber =>
    (world.leave subscriber none).endCall id call .cancelled
  | .cancel, .granted _ _ _ _ => world
  | .cancel, .failed _ => world
  | .cancel, .cancelled => world
  | .cancel, _ => world.endCall id call .cancelled
  | _, _ => world

inductive JobStep
  | start
  | fail (error : GatewayError)
  | consult
  | verify (accepts : Bool)
  | insert

/-- A step of a job where it stands. -/
def World.stepJob (world : World Proof) (id : JobId) (job : Job) (action : JobStep) : World Proof :=
  match action, job.phase with
  | .start, .queued => world.setJob id { job with phase := .started }
  | .fail _, .done _ => world
  | .fail error, _ => world.setJob id { job with phase := .done (.error error) }
  | .consult, .started =>
    let consulted := { job with consultedAt := some world.clock }
    if world.contains (job.proof hmac) then
      world.setJob id { consulted with phase := .done (.ok ()) }
    else world.setJob id { consulted with phase := .missed }
  | .verify true, .missed =>
    let acceptance := ⟨id, job.id, job.hash, job.raw, world.clock⟩
    { world.setJob id { job with phase := .accepted acceptance } with
      accepted := acceptance :: world.accepted }
  | .verify false, .missed =>
    world.setJob id { job with phase := .done (.error .invalidVirtualKey) }
  | .insert, .accepted acceptance =>
    { world.setJob id { job with phase := .done (.ok ()) } with
      cache :=
        match job.proof hmac with
        | some proof => world.cache.insert proof world.clock
        | none => world.cache
      inserted := (acceptance, world.clock) :: world.inserted }
  | _, _ => world

/-- The leader of a flight receives the result of its job. -/
def World.deliver (world : World Proof) (channel : ℕ) : World Proof :=
  match world.jobs.lookup (.flight channel) with
  | some ⟨_, _, _, _, _, .done result⟩ =>
    { world with flights := world.flights.workReturns channel result }
  | _ => world

/-- A step of the process. -/
inductive WorldAction
  | begin (id : ℕ) (key : VirtualKey) (now : Timestamp)
  | call (id : ℕ) (action : CallStep)
  | job (id : JobId) (action : JobStep)
  | deliver (channel : ℕ)
  | send (channel : ℕ)
  | removeEntry (channel : ℕ)
  | closeSender (channel : ℕ)
  | returnGlobal (subscriber : ℕ)
  | returnPerProof (subscriber : ℕ)
  | purge
  | change (lookupPrefix : Text) (stored : Option StoredVirtualKey)
  | advance (elapsed : ℕ)

/-- One step of the process. -/
def World.step (world : World Proof) : WorldAction → World Proof
  | .begin id key now => world.begin id key now
  | .call id action =>
    match world.calls.lookup id with
    | some call => world.stepCall hmac id call action
    | none => world
  | .job id action =>
    match world.jobs.lookup id with
    | some job => world.stepJob hmac id job action
    | none => world
  | .deliver channel => world.deliver channel
  | .send channel => { world with flights := world.flights.send channel }
  | .removeEntry channel => { world with flights := world.flights.removeEntry channel }
  | .closeSender channel => { world with flights := world.flights.closeSender channel }
  | .returnGlobal subscriber => { world with flights := world.flights.returnGlobal subscriber }
  | .returnPerProof subscriber => { world with flights := world.flights.returnPerProof subscriber }
  | .purge => { world with cache := world.cache.purgeExpired world.clock }
  | .change lookupPrefix stored =>
    { world with store :=
        match stored with
        | some stored => world.store.insert lookupPrefix stored
        | none => world.store.erase lookupPrefix }
  | .advance elapsed => { world with clock := world.clock + elapsed }

end Steps

end Relayna.Auth

import Relayna.Auth.Authenticator
import Relayna.Library.Table

/-!
# Cached verification is sound

Whenever a call is granted, the oracle has accepted its secret for the very record it loaded.
`Supported` says where that acceptance comes from: it happened during the call, it was made by the
job of the flight that the call joined, or it was inserted into the cache less than sixty seconds
before the call, or the job it waited for, looked there.

`Sound` links every cache entry, every job and every call to an acceptance of the same proof, and
`Extends` says what no step takes back. `Sound.of_extends` is the step rule: what is new must be
justified, and what was there stays so. `cached_verification_sound` is the result for every
interleaving. The age of an acceptance is counted from its insertion, which may come any time after
it: `acceptance_older_than_ttl` is a run in which it is more than sixty seconds old when it is used.
-/

set_option autoImplicit false
set_option relaxedAutoImplicit false

namespace Relayna.Auth

open Library.Transition

variable {Proof : Type}

/-! ### Acceptances -/

/-- The acceptance is one of a secret against a hash, for a key id. -/
def Acceptance.For (acceptance : Acceptance) (id : Uuid) (raw hash : Text) : Prop :=
  acceptance.id = id ∧ acceptance.raw = raw ∧ acceptance.hash = hash

/-- A call has joined a flight. -/
def World.Joined (world : World Proof) (call : Call) (channel : ℕ) : Prop :=
  ∃ subscriber waiting, call.subscriber = some subscriber ∧
    world.flights.subscribers.lookup subscriber = some waiting ∧ waiting.channel = channel

/-- A call, its own job or the job of the flight it joined looked into the cache at an instant. -/
def World.Consulted (world : World Proof) (id : ℕ) (call : Call) (consultedAt : ℕ) : Prop :=
  consultedAt ∈ call.consulted ∨
    ∃ owner job,
      (owner = .own id ∨ ∃ channel, world.Joined call channel ∧ owner = .flight channel) ∧
      world.jobs.lookup owner = some job ∧ job.consultedAt = some consultedAt

/-- An acceptance was inserted into the cache less than `timeToLive` before an instant. -/
def World.Fresh (world : World Proof) (acceptance : Acceptance) (consultedAt : ℕ) : Prop :=
  ∃ insertedAt, (acceptance, insertedAt) ∈ world.inserted ∧ insertedAt ≤ consultedAt ∧
    consultedAt - insertedAt < timeToLive

/-- The acceptance that a call relies on for a record, when it ends at an instant. -/
def World.Supported (world : World Proof) (id : ℕ) (call : Call) (stored : StoredVirtualKey)
    (until' : ℕ) : Prop :=
  ∃ acceptance ∈ world.accepted, acceptance.For stored.id call.key.raw stored.keyHash ∧
    (call.startedAt ≤ acceptance.acceptedAt ∧ acceptance.acceptedAt ≤ until' ∨
      (∃ channel, world.Joined call channel ∧ acceptance.job = .flight channel) ∨
      ∃ consultedAt, world.Consulted id call consultedAt ∧ world.Fresh acceptance consultedAt)

/-- The record was neither revoked nor disabled, and had not expired at the time. -/
def StoredVirtualKey.ValidAt (stored : StoredVirtualKey) (time : Timestamp) : Prop :=
  stored.revokedAt = none ∧ stored.disabled = false ∧ ∀ expiry ∈ stored.expiresAt, time < expiry

theorem validAt_of_validate {stored : StoredVirtualKey} {time : Timestamp}
    (hvalidate : validateKeyState stored time = .ok ()) : stored.ValidAt time := by
  unfold validateKeyState at hvalidate
  split_ifs at hvalidate with hrevoked hdisabled hexpired
  refine ⟨by simpa using hrevoked, by simpa using hdisabled, fun expiry hexpiry ↦ ?_⟩
  rw [Option.mem_def] at hexpiry
  rw [hexpiry] at hexpired
  simpa using hexpired

/-! ### What holds of jobs and calls -/

section Invariant

variable (hmac : Option (List UInt8 → Proof))

/-- The acceptance that a job which has returned success relies on. -/
def World.Vouched (world : World Proof) (id : JobId) (job : Job) : Prop :=
  ∃ acceptance ∈ world.accepted, acceptance.For job.id job.raw job.hash ∧
    (acceptance.job = id ∧ job.spawnedAt ≤ acceptance.acceptedAt ∨
      ∃ consultedAt, job.consultedAt = some consultedAt ∧ world.Fresh acceptance consultedAt)

structure JobSound (world : World Proof) (id : JobId) (job : Job) : Prop where
  spawned_le : job.spawnedAt ≤ world.clock
  unconsulted : job.phase = .queued ∨ job.phase = .started → job.consultedAt = none
  accepted : ∀ acceptance, job.phase = .accepted acceptance → acceptance ∈ world.accepted ∧
    acceptance.For job.id job.raw job.hash ∧ acceptance.job = id ∧
      job.spawnedAt ≤ acceptance.acceptedAt
  done : job.phase = .done (.ok ()) → world.Vouched id job

/-- What holds of a call where it stands. -/
def World.PhaseSound (world : World Proof) (id : ℕ) (call : Call) : Prop :=
  match call.phase with
  | .consulting stored checkedAt => stored.ValidAt checkedAt
  | .waiting stored subscriber => call.subscriber = some subscriber ∧
    ∃ waiting, world.flights.subscribers.lookup subscriber = some waiting ∧
      call.proof hmac stored = some waiting.proof
  | .working stored => ∃ job, world.jobs.lookup (.own id) = some job ∧ job.id = stored.id ∧
    job.raw = call.key.raw ∧ job.hash = stored.keyHash ∧ call.startedAt ≤ job.spawnedAt
  | .refreshing stored => world.Supported id call stored world.clock
  | .marking first last checkedAt => world.Supported id call first world.clock ∧
    last.id = first.id ∧ last.keyHash = first.keyHash ∧ last.ValidAt checkedAt
  | .granted first last checkedAt returnedAt => world.Supported id call first returnedAt ∧
    last.id = first.id ∧ last.keyHash = first.keyHash ∧ last.ValidAt checkedAt
  | _ => True

/-- A call that is past the point at which it may spawn a job. -/
def CallPhase.spawned : CallPhase → Bool
  | .finding => false
  | .consulting _ _ => false
  | .verifying _ => false
  | _ => true

/-- A job belongs to a flight that has been registered, or to a call that has spawned it. -/
def World.Known (world : World Proof) : JobId → Prop
  | .flight channel => channel < world.flights.next
  | .own id => ∃ call, world.calls.lookup id = some call ∧ call.phase.spawned = true

/-- The job of a leader has its proof, and has returned what the work of the leader did. -/
def World.LeaderSound (world : World Proof) (channel : ℕ) (leader : Leader Proof) : Prop :=
  ∃ job, world.jobs.lookup (.flight channel) = some job ∧ job.proof hmac = some leader.proof ∧
    ∀ result, leader.work = some result → job.phase = .done result

/-- What every run keeps. -/
structure Sound [DecidableEq Proof] (world : World Proof) : Prop where
  coherent : Coherent world.flights
  accepted_le : ∀ acceptance ∈ world.accepted, acceptance.acceptedAt ≤ world.clock
  inserted : ∀ acceptance insertedAt, (acceptance, insertedAt) ∈ world.inserted →
    acceptance ∈ world.accepted ∧ insertedAt ≤ world.clock
  cached : ∀ proof insertedAt, world.cache.proofs.lookup proof = some insertedAt →
    ∃ acceptance, (acceptance, insertedAt) ∈ world.inserted ∧
      Auth.proof hmac acceptance.id acceptance.raw acceptance.hash = some proof
  known : ∀ id job, world.jobs.lookup id = some job → world.Known id
  jobs : ∀ id job, world.jobs.lookup id = some job → JobSound world id job
  leaders : ∀ channel leader, world.flights.leaders.lookup channel = some leader →
    world.LeaderSound hmac channel leader
  started_le : ∀ id call, world.calls.lookup id = some call → call.startedAt ≤ world.clock
  calls : ∀ id call, world.calls.lookup id = some call → world.PhaseSound hmac id call

end Invariant

/-! ### What no step takes back -/

/-- A job goes on: it keeps what it verifies, when it was spawned and when it looked into the cache,
and what it has returned. -/
structure Job.Continues (job later : Job) : Prop where
  id_eq : later.id = job.id
  raw_eq : later.raw = job.raw
  hash_eq : later.hash = job.hash
  spawned_eq : later.spawnedAt = job.spawnedAt
  consulted : ∀ consultedAt, job.consultedAt = some consultedAt →
    later.consultedAt = some consultedAt
  done : ∀ result, job.phase = .done result → later.phase = .done result

theorem Job.Continues.refl (job : Job) : job.Continues job :=
  ⟨rfl, rfl, rfl, rfl, fun _ hconsulted ↦ hconsulted, fun _ hdone ↦ hdone⟩

/-- What no step takes back. -/
structure World.Extends (world later : World Proof) : Prop where
  clock_le : world.clock ≤ later.clock
  accepted : ∀ acceptance ∈ world.accepted, acceptance ∈ later.accepted
  inserted : ∀ entry ∈ world.inserted, entry ∈ later.inserted
  subscribers : ∀ id waiting, world.flights.subscribers.lookup id = some waiting →
    ∃ waiting', later.flights.subscribers.lookup id = some waiting' ∧
      waiting'.channel = waiting.channel ∧ waiting'.proof = waiting.proof
  jobs : ∀ id job, world.jobs.lookup id = some job →
    ∃ job', later.jobs.lookup id = some job' ∧ job.Continues job'

section Extends

variable {world later : World Proof} (hextends : world.Extends later)

include hextends

theorem World.Joined.mono {call : Call} {channel : ℕ} (hjoined : world.Joined call channel) :
    later.Joined call channel := by
  obtain ⟨subscriber, waiting, hsubscriber, hwaiting, hchannel⟩ := hjoined
  obtain ⟨waiting', hwaiting', hchannel', -⟩ := hextends.subscribers subscriber waiting hwaiting
  exact ⟨subscriber, waiting', hsubscriber, hwaiting', hchannel'.trans hchannel⟩

theorem World.Consulted.mono {id : ℕ} {call : Call} {consultedAt : ℕ}
    (hconsulted : world.Consulted id call consultedAt) : later.Consulted id call consultedAt := by
  rcases hconsulted with hown | ⟨owner, job, howner, hjob, hat⟩
  · exact .inl hown
  · obtain ⟨job', hjob', hcontinues⟩ := hextends.jobs owner job hjob
    refine .inr ⟨owner, job', howner.imp_right fun ⟨channel, hjoined, hflight⟩ ↦ ?_, hjob',
      hcontinues.consulted consultedAt hat⟩
    exact ⟨channel, hjoined.mono hextends, hflight⟩

theorem World.Fresh.mono {acceptance : Acceptance} {consultedAt : ℕ}
    (hfresh : world.Fresh acceptance consultedAt) : later.Fresh acceptance consultedAt := by
  obtain ⟨insertedAt, hinserted, hle, hlt⟩ := hfresh
  exact ⟨insertedAt, hextends.inserted _ hinserted, hle, hlt⟩

theorem World.Supported.mono {id : ℕ} {call : Call} {stored : StoredVirtualKey} {until' : ℕ}
    (hsupported : world.Supported id call stored until') {until'' : ℕ} (hle : until' ≤ until'') :
    later.Supported id call stored until'' := by
  obtain ⟨acceptance, haccepted, hfor, hsource⟩ := hsupported
  refine ⟨acceptance, hextends.accepted acceptance haccepted, hfor, ?_⟩
  rcases hsource with ⟨hstart, hend⟩ | ⟨channel, hjoined, hjob⟩ | ⟨consultedAt, hconsulted, hfresh⟩
  · exact .inl ⟨hstart, hend.trans hle⟩
  · exact .inr (.inl ⟨channel, hjoined.mono hextends, hjob⟩)
  · exact .inr (.inr ⟨consultedAt, hconsulted.mono hextends, hfresh.mono hextends⟩)

theorem JobSound.mono {id : JobId} {job : Job} (hjob : JobSound world id job) :
    JobSound later id job := by
  refine ⟨hjob.spawned_le.trans hextends.clock_le, hjob.unconsulted, fun acceptance hphase ↦ ?_,
    fun hphase ↦ ?_⟩
  · obtain ⟨haccepted, hrest⟩ := hjob.accepted acceptance hphase
    exact ⟨hextends.accepted acceptance haccepted, hrest⟩
  · obtain ⟨acceptance, haccepted, hfor, hsource⟩ := hjob.done hphase
    refine ⟨acceptance, hextends.accepted acceptance haccepted, hfor, ?_⟩
    exact hsource.imp_right fun ⟨consultedAt, hconsulted, hfresh⟩ ↦
      ⟨consultedAt, hconsulted, hfresh.mono hextends⟩

theorem World.PhaseSound.mono {hmac : Option (List UInt8 → Proof)} {id : ℕ} {call : Call}
    (hcall : world.PhaseSound hmac id call) : later.PhaseSound hmac id call := by
  unfold World.PhaseSound at hcall ⊢
  split at hcall
  · exact hcall
  · obtain ⟨hsubscriber, waiting, hwaiting, hproof⟩ := hcall
    obtain ⟨waiting', hwaiting', -, hproof'⟩ := hextends.subscribers _ waiting hwaiting
    exact ⟨hsubscriber, waiting', hwaiting', by rw [hproof', hproof]⟩
  · obtain ⟨job, hjob, hid, hraw, hhash, hspawned⟩ := hcall
    obtain ⟨job', hjob', hcontinues⟩ := hextends.jobs _ job hjob
    exact ⟨job', hjob', hcontinues.id_eq.trans hid, hcontinues.raw_eq.trans hraw,
      hcontinues.hash_eq.trans hhash, hspawned.trans_eq hcontinues.spawned_eq.symm⟩
  · exact hcall.mono hextends hextends.clock_le
  · exact ⟨hcall.1.mono hextends hextends.clock_le, hcall.2⟩
  · exact ⟨hcall.1.mono hextends le_rfl, hcall.2⟩
  · trivial

theorem World.LeaderSound.mono {hmac : Option (List UInt8 → Proof)} {channel : ℕ}
    {leader : Leader Proof} (hleader : world.LeaderSound hmac channel leader) :
    later.LeaderSound hmac channel leader := by
  obtain ⟨job, hjob, hproof, hwork⟩ := hleader
  obtain ⟨job', hjob', hcontinues⟩ := hextends.jobs _ job hjob
  refine ⟨job', hjob', ?_, fun result hresult ↦ hcontinues.done result (hwork result hresult)⟩
  unfold Job.proof at hproof ⊢
  rw [hcontinues.id_eq, hcontinues.raw_eq, hcontinues.hash_eq, hproof]

end Extends

/-! ### Leaders that are kept -/

/-- The leaders of the later flights are old ones, which keep their proof and their work. -/
def Flights.LeadersKept (flights later : Flights Proof) : Prop :=
  ∀ channel leader, later.leaders.lookup channel = some leader →
    ∃ old, flights.leaders.lookup channel = some old ∧ leader.proof = old.proof ∧
      leader.work = old.work

theorem Flights.LeadersKept.of_eq {flights later : Flights Proof}
    (hleaders : later.leaders = flights.leaders) : flights.LeadersKept later :=
  fun _ leader hleader ↦ ⟨leader, hleaders ▸ hleader, rfl, rfl⟩

/-- Assumes: a leader that is replaced by one with the same proof and work. -/
theorem Flights.LeadersKept.setLeader {flights later : Flights Proof} {channel : ℕ}
    {old new : Leader Proof} (hold : flights.leaders.lookup channel = some old)
    (hleaders : later.leaders = flights.leaders.insert channel new)
    (hproof : new.proof = old.proof) (hwork : new.work = old.work) :
    flights.LeadersKept later := by
  intro other leader hother
  rw [hleaders] at hother
  rcases Library.Table.lookup_insert_cases hother with ⟨rfl, rfl⟩ | ⟨-, hkept⟩
  · exact ⟨old, hold, hproof, hwork⟩
  · exact ⟨leader, hkept, rfl, rfl⟩

/-- What the drops and the sending do to the flights keeps the leaders. -/
theorem Flights.leave_kept (flights : Flights Proof) (id : ℕ)
    (outcome : Option (GatewayResult Unit)) :
    flights.LeadersKept (flights.leave id outcome) ∧
      (flights.leave id outcome).next = flights.next := by
  unfold Flights.leave
  split <;> exact ⟨.of_eq rfl, rfl⟩

theorem Flights.send_kept (flights : Flights Proof) (channel : ℕ) :
    flights.LeadersKept (flights.send channel) ∧ (flights.send channel).next = flights.next := by
  unfold Flights.send
  split <;> exact ⟨.of_eq rfl, rfl⟩

theorem Flights.returnGlobal_kept (flights : Flights Proof) (id : ℕ) :
    flights.LeadersKept (flights.returnGlobal id) ∧
      (flights.returnGlobal id).next = flights.next := by
  unfold Flights.returnGlobal
  split <;> exact ⟨.of_eq rfl, rfl⟩

theorem Flights.returnPerProof_kept (flights : Flights Proof) (id : ℕ) :
    flights.LeadersKept (flights.returnPerProof id) ∧
      (flights.returnPerProof id).next = flights.next := by
  unfold Flights.returnPerProof
  split <;> exact ⟨.of_eq rfl, rfl⟩

theorem Flights.removeEntry_kept [DecidableEq Proof] (flights : Flights Proof) (channel : ℕ) :
    flights.LeadersKept (flights.removeEntry channel) ∧
      (flights.removeEntry channel).next = flights.next := by
  unfold Flights.removeEntry
  split
  · next hleader => exact ⟨.setLeader hleader rfl rfl rfl, rfl⟩
  · exact ⟨.of_eq rfl, rfl⟩

theorem Flights.closeSender_kept (flights : Flights Proof) (channel : ℕ) :
    flights.LeadersKept (flights.closeSender channel) ∧
      (flights.closeSender channel).next = flights.next := by
  unfold Flights.closeSender
  split
  · next hleader => exact ⟨.setLeader hleader rfl rfl rfl, rfl⟩
  · exact ⟨.of_eq rfl, rfl⟩

/-! ### The step rule -/

section Steps

variable [DecidableEq Proof] {hmac : Option (List UInt8 → Proof)}

variable (hmac) in
/-- What is new in a later world is justified. A part that a step leaves as it is needs no proof. -/
structure Justified (world later : World Proof) : Prop where
  coherent : Coherent later.flights
  next_le : world.flights.next ≤ later.flights.next := by exact le_rfl
  accepted : ∀ acceptance ∈ later.accepted,
    acceptance ∈ world.accepted ∨ acceptance.acceptedAt ≤ later.clock := by
      exact fun _ hmem ↦ .inl hmem
  inserted : ∀ acceptance insertedAt, (acceptance, insertedAt) ∈ later.inserted →
    (acceptance, insertedAt) ∈ world.inserted ∨
      acceptance ∈ later.accepted ∧ insertedAt ≤ later.clock := by
      exact fun _ _ hmem ↦ .inl hmem
  cached : ∀ proof insertedAt, later.cache.proofs.lookup proof = some insertedAt →
    world.cache.proofs.lookup proof = some insertedAt ∨
      ∃ acceptance, (acceptance, insertedAt) ∈ later.inserted ∧
        Auth.proof hmac acceptance.id acceptance.raw acceptance.hash = some proof := by
      exact fun _ _ hlookup ↦ .inl hlookup
  jobs : ∀ id job, later.jobs.lookup id = some job →
    world.jobs.lookup id = some job ∨ later.Known id ∧ JobSound later id job := by
      exact fun _ _ hjob ↦ .inl hjob
  leaders : ∀ channel leader, later.flights.leaders.lookup channel = some leader →
    (∃ old, world.flights.leaders.lookup channel = some old ∧ leader.proof = old.proof ∧
      leader.work = old.work) ∨ later.LeaderSound hmac channel leader := by
      exact fun _ leader hleader ↦ .inl ⟨leader, hleader, rfl, rfl⟩
  spawned : ∀ id call, world.calls.lookup id = some call →
    ∃ call', later.calls.lookup id = some call' ∧
      (call.phase.spawned = true → call'.phase.spawned = true) := by
      exact fun _ call hcall ↦ ⟨call, hcall, fun hspawned ↦ hspawned⟩
  calls : ∀ id call, later.calls.lookup id = some call →
    world.calls.lookup id = some call ∨
      call.startedAt ≤ later.clock ∧ later.PhaseSound hmac id call := by
      exact fun _ _ hcall ↦ .inl hcall

/-- A step from a sound world reaches a sound world, when it takes nothing back and what is new is
justified. -/
theorem Sound.of_extends {world later : World Proof} (hsound : Sound hmac world)
    (hextends : world.Extends later) (hnew : Justified hmac world later) : Sound hmac later := by
  have hclock := hextends.clock_le
  refine ⟨hnew.coherent, fun acceptance hacceptance ↦ ?_, fun acceptance insertedAt hentry ↦ ?_,
    fun proof insertedAt hlookup ↦ ?_, fun id job hjob ↦ ?_, fun id job hjob ↦ ?_,
    fun channel leader hleader ↦ ?_, fun id call hcall ↦ ?_, fun id call hcall ↦ ?_⟩
  · rcases hnew.accepted acceptance hacceptance with hold | hlater
    · exact (hsound.accepted_le acceptance hold).trans hclock
    · exact hlater
  · rcases hnew.inserted acceptance insertedAt hentry with hold | hlater
    · obtain ⟨hmem, hle⟩ := hsound.inserted acceptance insertedAt hold
      exact ⟨hextends.accepted acceptance hmem, hle.trans hclock⟩
    · exact hlater
  · rcases hnew.cached proof insertedAt hlookup with hold | hlater
    · obtain ⟨acceptance, hentry, hproof⟩ := hsound.cached proof insertedAt hold
      exact ⟨acceptance, hextends.inserted _ hentry, hproof⟩
    · exact hlater
  · rcases hnew.jobs id job hjob with hold | hlater
    · have hknown := hsound.known id job hold
      cases id with
      | flight channel => exact Nat.lt_of_lt_of_le hknown hnew.next_le
      | own caller =>
        obtain ⟨call, hcall, hphase⟩ := hknown
        obtain ⟨call', hcall', hkept⟩ := hnew.spawned caller call hcall
        exact ⟨call', hcall', hkept hphase⟩
    · exact hlater.1
  · rcases hnew.jobs id job hjob with hold | hlater
    · exact (hsound.jobs id job hold).mono hextends
    · exact hlater.2
  · rcases hnew.leaders channel leader hleader with ⟨old, hold, hproof, hwork⟩ | hlater
    · have hkept := (hsound.leaders channel old hold).mono hextends
      unfold World.LeaderSound at hkept ⊢
      rw [hproof, hwork]
      exact hkept
    · exact hlater
  · rcases hnew.calls id call hcall with hold | hlater
    · exact (hsound.started_le id call hold).trans hclock
    · exact hlater.1
  · rcases hnew.calls id call hcall with hold | hlater
    · exact (hsound.calls id call hold).mono hextends
    · exact hlater.2

omit [DecidableEq Proof] in
theorem World.Extends.refl_of {world later : World Proof} (hclock : later.clock = world.clock)
    (haccepted : later.accepted = world.accepted) (hinserted : later.inserted = world.inserted)
    (hsubscribers : later.flights.subscribers = world.flights.subscribers)
    (hjobs : later.jobs = world.jobs) : world.Extends later where
  clock_le := hclock.ge
  accepted := fun _ hmem ↦ haccepted ▸ hmem
  inserted := fun _ hmem ↦ hinserted ▸ hmem
  subscribers := fun _ waiting hwaiting ↦ ⟨waiting, hsubscribers ▸ hwaiting, rfl, rfl⟩
  jobs := fun _ job hjob ↦ ⟨job, hjobs ▸ hjob, .refl job⟩

/-- Flights that move take nothing back. -/
theorem World.Extends.flights {world : World Proof} (hcoherent : Coherent world.flights)
    {moved : Flights Proof} (hmoves : Moves world.flights moved) :
    world.Extends { world with flights := moved } where
  clock_le := le_rfl
  accepted := fun _ hmem ↦ hmem
  inserted := fun _ hmem ↦ hmem
  subscribers := fun _ _ hwaiting ↦ hmoves.subscriber_persists hcoherent.balanced hwaiting
  jobs := fun _ job hjob ↦ ⟨job, hjob, .refl job⟩

/-- Assumes: flights that moved and keep their leaders. The world stays sound. -/
theorem Sound.flights {world : World Proof} (hsound : Sound hmac world) {moved : Flights Proof}
    (hmoves : Moves world.flights moved) (hnext : world.flights.next ≤ moved.next)
    (hkept : world.flights.LeadersKept moved) : Sound hmac { world with flights := moved } :=
  hsound.of_extends (.flights hsound.coherent hmoves)
    { coherent := hsound.coherent.moves hmoves
      next_le := hnext
      leaders := fun channel leader hleader ↦ .inl (hkept channel leader hleader) }

/-- Assumes: a call that moves on, to where what holds of it is justified. The world stays sound. -/
theorem Sound.moveCall {world : World Proof} (hsound : Sound hmac world) {id : ℕ} {call : Call}
    (hcall : world.calls.lookup id = some call) (moved : Call)
    (hstarted : moved.startedAt = call.startedAt)
    (hspawned : call.phase.spawned = true → moved.phase.spawned = true)
    (hphase : world.PhaseSound hmac id moved) : Sound hmac (world.setCall id moved) := by
  have hextends : world.Extends (world.setCall id moved) := .refl_of rfl rfl rfl rfl rfl
  refine hsound.of_extends hextends
    { coherent := hsound.coherent
      spawned := fun other call' hother ↦ ?_
      calls := fun other call' hother ↦ ?_ }
  · by_cases hsame : other = id
    · subst hsame
      rw [hcall] at hother
      obtain rfl := Option.some.inj hother
      exact ⟨moved, AList.lookup_insert _, hspawned⟩
    · exact ⟨call', (AList.lookup_insert_ne hsame).trans hother, fun hphase ↦ hphase⟩
  · rcases Library.Table.lookup_insert_cases hother with ⟨rfl, rfl⟩ | ⟨-, hold⟩
    · refine .inr ⟨?_, hphase.mono hextends⟩
      rw [hstarted]
      exact hsound.started_le other call hcall
    · exact .inl hold

/-- The lookup slots and the store do not matter. -/
theorem Sound.congr {world later : World Proof} (hsound : Sound hmac world)
    (hclock : later.clock = world.clock) (hcache : later.cache = world.cache)
    (hflights : later.flights = world.flights) (hjobs : later.jobs = world.jobs)
    (hcalls : later.calls = world.calls) (haccepted : later.accepted = world.accepted)
    (hinserted : later.inserted = world.inserted) : Sound hmac later := by
  have hextends : world.Extends later := .refl_of hclock haccepted hinserted
    (congrArg Flights.subscribers hflights) hjobs
  refine hsound.of_extends hextends
    { coherent := hflights ▸ hsound.coherent
      next_le := (congrArg Flights.next hflights).ge
      accepted := fun _ hmem ↦ .inl (haccepted ▸ hmem)
      inserted := fun _ _ hmem ↦ .inl (hinserted ▸ hmem)
      cached := fun _ _ hlookup ↦ .inl (hcache ▸ hlookup)
      jobs := fun _ _ hjob ↦ .inl (hjobs ▸ hjob)
      leaders := fun _ leader hleader ↦ .inl ⟨leader, hflights ▸ hleader, rfl, rfl⟩
      spawned := fun _ call hcall ↦ ⟨call, hcalls ▸ hcall, fun hspawned ↦ hspawned⟩
      calls := fun _ _ hcall ↦ .inl (hcalls ▸ hcall) }

/-- Assumes: a job that goes on, to where what holds of it is justified. The world stays sound. -/
theorem Sound.moveJob {world : World Proof} (hsound : Sound hmac world) {id : JobId}
    {job moved : Job} (hjob : world.jobs.lookup id = some job) (hcontinues : job.Continues moved)
    (hmoved : JobSound world id moved) : Sound hmac (world.setJob id moved) := by
  have hextends : world.Extends (world.setJob id moved) := by
    refine ⟨le_rfl, fun _ hmem ↦ hmem, fun _ hmem ↦ hmem,
      fun _ waiting hwaiting ↦ ⟨waiting, hwaiting, rfl, rfl⟩, fun other job' hother ↦ ?_⟩
    by_cases hsame : other = id
    · subst hsame
      rw [hjob] at hother
      obtain rfl := Option.some.inj hother
      exact ⟨moved, AList.lookup_insert _, hcontinues⟩
    · exact ⟨job', (AList.lookup_insert_ne hsame).trans hother, .refl job'⟩
  refine hsound.of_extends hextends
    { coherent := hsound.coherent
      jobs := fun other job' hother ↦ ?_ }
  rcases Library.Table.lookup_insert_cases hother with ⟨rfl, rfl⟩ | ⟨-, hold⟩
  · exact .inr ⟨hsound.known other job hjob, hmoved.mono hextends⟩
  · exact .inl hold

/-- An acceptance of this instant may be noted. -/
theorem Sound.accept {world : World Proof} (hsound : Sound hmac world) {acceptance : Acceptance}
    (hat : acceptance.acceptedAt = world.clock) :
    Sound hmac { world with accepted := acceptance :: world.accepted } := by
  have hextends : world.Extends { world with accepted := acceptance :: world.accepted } :=
    ⟨le_rfl, fun _ hmem ↦ List.mem_cons_of_mem _ hmem, fun _ hmem ↦ hmem,
      fun _ waiting hwaiting ↦ ⟨waiting, hwaiting, rfl, rfl⟩,
      fun _ job hjob ↦ ⟨job, hjob, .refl job⟩⟩
  refine hsound.of_extends hextends
    { coherent := hsound.coherent
      accepted := fun other hother ↦ ?_ }
  rcases List.mem_cons.mp hother with rfl | hold
  · exact .inr hat.le
  · exact .inl hold

/-- Assumes: a noted acceptance, and a cache with at most a new entry for its proof. The insertion
may be noted. -/
theorem Sound.insert {world : World Proof} (hsound : Sound hmac world) {acceptance : Acceptance}
    (haccepted : acceptance ∈ world.accepted) {cache : Entries Proof}
    (hcache : ∀ proof insertedAt, cache.proofs.lookup proof = some insertedAt →
      world.cache.proofs.lookup proof = some insertedAt ∨ insertedAt = world.clock ∧
        Auth.proof hmac acceptance.id acceptance.raw acceptance.hash = some proof) :
    Sound hmac { world with
      cache := cache, inserted := (acceptance, world.clock) :: world.inserted } := by
  have hextends : world.Extends { world with
      cache := cache, inserted := (acceptance, world.clock) :: world.inserted } :=
    ⟨le_rfl, fun _ hmem ↦ hmem, fun _ hmem ↦ List.mem_cons_of_mem _ hmem,
      fun _ waiting hwaiting ↦ ⟨waiting, hwaiting, rfl, rfl⟩,
      fun _ job hjob ↦ ⟨job, hjob, .refl job⟩⟩
  refine hsound.of_extends hextends
    { coherent := hsound.coherent
      inserted := fun other insertedAt hother ↦ ?_
      cached := fun proof insertedAt hlookup ↦ ?_ }
  · rcases List.mem_cons.mp hother with hnew | hold
    · obtain ⟨rfl, rfl⟩ := Prod.mk.inj hnew
      exact .inr ⟨haccepted, le_rfl⟩
    · exact .inl hold
  · rcases hcache proof insertedAt hlookup with hold | ⟨rfl, hproof⟩
    · exact .inl hold
    · exact .inr ⟨acceptance, List.mem_cons_self, hproof⟩

/-- Assumes: a proof that the cache contains. Its secret was accepted, and the acceptance is fresh.
-/
theorem Sound.fresh_of_contains {world : World Proof} (hsound : Sound hmac world)
    (hcollision : ∀ mac ∈ hmac, Function.Injective mac) {id : Uuid} {raw hash : Text}
    (hcontains : world.contains (Auth.proof hmac id raw hash) = true) :
    ∃ acceptance ∈ world.accepted, acceptance.For id raw hash ∧
      world.Fresh acceptance world.clock := by
  unfold World.contains at hcontains
  cases hproof : Auth.proof hmac id raw hash with
  | none =>
    rw [hproof] at hcontains
    exact absurd hcontains (by simp)
  | some proof =>
    rw [hproof] at hcontains
    obtain ⟨insertedAt, hlookup, hfresh⟩ := Entries.lookup_of_contains hcontains
    obtain ⟨acceptance, hinserted, hsame⟩ := hsound.cached proof insertedAt hlookup
    obtain ⟨haccepted, hle⟩ := hsound.inserted acceptance insertedAt hinserted
    exact ⟨acceptance, haccepted, proof_injective hcollision hsame hproof, insertedAt, hinserted,
      hle, hfresh⟩

/-! ### Jobs -/

/-- A job that has not returned may move on. -/
theorem Job.Continues.move {job : Job} (hrunning : ∀ result, job.phase ≠ .done result)
    (phase : JobPhase) : job.Continues { job with phase := phase } :=
  ⟨rfl, rfl, rfl, rfl, fun _ hconsulted ↦ hconsulted,
    fun result hdone ↦ absurd hdone (hrunning result)⟩

/-- A job that has not looked into the cache and has not returned may look. -/
theorem Job.Continues.consult {job : Job} (hrunning : ∀ result, job.phase ≠ .done result)
    (hnone : job.consultedAt = none) (consultedAt : ℕ) (phase : JobPhase) :
    job.Continues { job with consultedAt := some consultedAt, phase := phase } := by
  refine ⟨rfl, rfl, rfl, rfl, fun earlier hearlier ↦ ?_, fun result hdone ↦ ?_⟩
  · rw [hnone] at hearlier
    exact absurd hearlier (by simp)
  · exact absurd hdone (hrunning result)

omit [DecidableEq Proof] in
/-- A job that has missed the cache or failed has nothing to justify. -/
theorem JobSound.quiet {world : World Proof} {id : JobId} {job : Job}
    (hspawned : job.spawnedAt ≤ world.clock)
    (hphase : job.phase = .missed ∨ ∃ error, job.phase = .done (.error error)) :
    JobSound world id job := by
  refine ⟨hspawned, fun hearly ↦ ?_, fun acceptance haccepted ↦ ?_, fun hdone ↦ ?_⟩
  · rcases hphase with hphase | ⟨error, hphase⟩ <;> rw [hphase] at hearly <;> simp at hearly
  · rcases hphase with hphase | ⟨error, hphase⟩ <;> rw [hphase] at haccepted <;> simp at haccepted
  · rcases hphase with hphase | ⟨error, hphase⟩ <;> rw [hphase] at hdone <;> simp at hdone

/-- A look into the cache keeps the world sound. Assumes: a job that has started. -/
theorem Sound.consultJob {world : World Proof} (hsound : Sound hmac world)
    (hcollision : ∀ mac ∈ hmac, Function.Injective mac) {id : JobId} {job : Job}
    (hjob : world.jobs.lookup id = some job) (hphase : job.phase = .started) :
    Sound hmac
      (if world.contains (job.proof hmac) then
        world.setJob id { job with consultedAt := some world.clock, phase := .done (.ok ()) }
      else world.setJob id { job with consultedAt := some world.clock, phase := .missed }) := by
  have hold := hsound.jobs id job hjob
  have hcontinues := @Job.Continues.consult job (fun _ ↦ by simp [hphase])
    (hold.unconsulted (.inr hphase)) world.clock
  split_ifs with hcontains
  · refine hsound.moveJob hjob (hcontinues _) ⟨hold.spawned_le, ?_, ?_, fun _ ↦ ?_⟩
    · simp
    · simp
    · obtain ⟨acceptance, haccepted, hfor, hfresh⟩ := hsound.fresh_of_contains hcollision hcontains
      exact ⟨acceptance, haccepted, hfor, .inr ⟨world.clock, rfl, hfresh⟩⟩
  · exact hsound.moveJob hjob (hcontinues _) (.quiet hold.spawned_le (.inl rfl))

/-- A positive answer of the oracle keeps the world sound. Assumes: a job that has missed the
cache. -/
theorem Sound.acceptJob {world : World Proof} (hsound : Sound hmac world) {id : JobId} {job : Job}
    (hjob : world.jobs.lookup id = some job) (hphase : job.phase = .missed) :
    Sound hmac { world.setJob id
        { job with phase := .accepted ⟨id, job.id, job.hash, job.raw, world.clock⟩ } with
      accepted := ⟨id, job.id, job.hash, job.raw, world.clock⟩ :: world.accepted } := by
  have hold := hsound.jobs id job hjob
  have haccept : Sound hmac { world with
      accepted := ⟨id, job.id, job.hash, job.raw, world.clock⟩ :: world.accepted } :=
    hsound.accept rfl
  refine haccept.moveJob hjob (.move (fun _ ↦ by simp [hphase]) _) ⟨hold.spawned_le, ?_, ?_, ?_⟩
  · simp
  · intro acceptance haccepted
    obtain rfl := JobPhase.accepted.inj haccepted
    exact ⟨List.mem_cons_self, ⟨rfl, rfl, rfl⟩, rfl, hold.spawned_le⟩
  · simp

/-- An insertion into the cache keeps the world sound. Assumes: a job whose secret was accepted. -/
theorem Sound.insertJob {world : World Proof} (hsound : Sound hmac world) {id : JobId} {job : Job}
    (hjob : world.jobs.lookup id = some job) {acceptance : Acceptance}
    (hphase : job.phase = .accepted acceptance) {cache : Entries Proof}
    (hcache : cache = match job.proof hmac with
      | some proof => world.cache.insert proof world.clock
      | none => world.cache) :
    Sound hmac { world.setJob id { job with phase := .done (.ok ()) } with
      cache := cache
      inserted := (acceptance, world.clock) :: world.inserted } := by
  have hold := hsound.jobs id job hjob
  obtain ⟨haccepted, hfor, hid, hspawned⟩ := hold.accepted acceptance hphase
  have hinsert : Sound hmac { world with
      cache := cache, inserted := (acceptance, world.clock) :: world.inserted } := by
    refine hsound.insert haccepted fun proof insertedAt hlookup ↦ ?_
    cases hproof : job.proof hmac with
    | none =>
      rw [hcache, hproof] at hlookup
      exact .inl hlookup
    | some inserted =>
      rw [hcache, hproof] at hlookup
      rcases lookup_insert_cases hlookup with hlookup | ⟨rfl, rfl⟩
      · exact .inl hlookup
      · refine .inr ⟨rfl, ?_⟩
        rw [hfor.1, hfor.2.1, hfor.2.2]
        exact hproof
  refine hinsert.moveJob hjob (.move (fun _ ↦ by simp [hphase]) _) ⟨hold.spawned_le, ?_, ?_, ?_⟩
  · simp
  · simp
  · exact fun _ ↦ ⟨acceptance, haccepted, hfor, .inl ⟨hid, hspawned⟩⟩

/-- A step of a job keeps the world sound. -/
theorem Sound.stepJob {world : World Proof} (hsound : Sound hmac world)
    (hcollision : ∀ mac ∈ hmac, Function.Injective mac) {id : JobId} {job : Job}
    (hjob : world.jobs.lookup id = some job) (action : JobStep) :
    Sound hmac (world.stepJob hmac id job action) := by
  have hold := hsound.jobs id job hjob
  unfold World.stepJob
  split
  · next hphase =>
    refine hsound.moveJob hjob (.move (fun _ ↦ by simp [hphase]) _) ⟨hold.spawned_le, ?_, ?_, ?_⟩
    · exact fun _ ↦ hold.unconsulted (.inl hphase)
    · simp
    · simp
  · exact hsound
  · next error hrunning =>
    exact hsound.moveJob hjob (.move hrunning _) (.quiet hold.spawned_le (.inr ⟨error, rfl⟩))
  · next hphase => exact hsound.consultJob hcollision hjob hphase
  · next hphase => exact hsound.acceptJob hjob hphase
  · next hphase =>
    exact hsound.moveJob hjob (.move (fun _ ↦ by simp [hphase]) _)
      (.quiet hold.spawned_le (.inr ⟨_, rfl⟩))
  · next hphase => exact hsound.insertJob hjob hphase rfl
  · exact hsound

/-- A leader that receives the result of its job keeps the world sound. -/
theorem Sound.deliver {world : World Proof} (hsound : Sound hmac world) (channel : ℕ) :
    Sound hmac (world.deliver channel) := by
  unfold World.deliver
  split
  · next id hash raw spawnedAt consultedAt result hjob =>
    unfold Flights.workReturns
    split
    · next proof hleader =>
      have hmoves := Moves.workReturns channel proof result hleader
      have hextends : world.Extends
          { world with flights := world.flights.setLeader channel ⟨proof, some result, .live⟩ } :=
        .refl_of rfl rfl rfl rfl rfl
      refine hsound.of_extends hextends
        { coherent := hsound.coherent.moves hmoves
          leaders := fun other leader hother ↦ ?_ }
      rcases Library.Table.lookup_insert_cases hother with ⟨rfl, rfl⟩ | ⟨-, hold⟩
      · obtain ⟨job, hjob', hproof, -⟩ := hsound.leaders other _ hleader
        rw [hjob] at hjob'
        obtain rfl := Option.some.inj hjob'
        exact .inr ⟨_, hjob, hproof, fun _ hresult ↦ congrArg _ (Option.some.inj hresult)⟩
      · exact .inl ⟨leader, hold, rfl, rfl⟩
    · exact hsound
  · exact hsound

/-! ### Calls -/

/-- A call that ends without success keeps the world sound. -/
theorem Sound.endCall {world : World Proof} (hsound : Sound hmac world) {id : ℕ} {call : Call}
    (hcall : world.calls.lookup id = some call) {phase : CallPhase}
    (hphase : phase = .cancelled ∨ ∃ error, phase = .failed error) :
    Sound hmac (world.endCall id call phase) := by
  refine (hsound.moveCall hcall { call with phase := phase } rfl (fun _ ↦ ?_) ?_).congr rfl rfl
    rfl rfl rfl rfl rfl
  · rcases hphase with rfl | ⟨error, rfl⟩ <;> rfl
  · rcases hphase with rfl | ⟨error, rfl⟩ <;> trivial

omit [DecidableEq Proof] in
/-- Assumes: a record that was loaded and checked. It was valid at the time of the check. -/
theorem World.load_valid {world : World Proof} {call : Call} {failure : Option GatewayError}
    {stored : StoredVirtualKey} {checkedAt : Timestamp}
    (hload : world.load call failure = .ok (stored, checkedAt)) : stored.ValidAt checkedAt := by
  unfold World.load at hload
  split at hload
  · exact absurd hload (by simp)
  · split at hload
    · exact absurd hload (by simp)
    · dsimp only at hload
      split at hload
      · exact absurd hload (by simp)
      · next hvalidate =>
        obtain ⟨rfl, rfl⟩ := Prod.mk.inj (Except.ok.inj hload)
        exact validAt_of_validate hvalidate

/-- A call that finds its proof in the cache is supported. -/
theorem Sound.supported_of_contains {world : World Proof} (hsound : Sound hmac world)
    (hcollision : ∀ mac ∈ hmac, Function.Injective mac) {id : ℕ} {call : Call}
    {stored : StoredVirtualKey} (hcontains : world.contains (call.proof hmac stored) = true)
    (phase : CallPhase) :
    world.Supported id { call with consulted := world.clock :: call.consulted, phase := phase }
      stored world.clock := by
  obtain ⟨acceptance, haccepted, hfor, hfresh⟩ := hsound.fresh_of_contains hcollision hcontains
  exact ⟨acceptance, haccepted, hfor, .inr (.inr ⟨world.clock, .inl List.mem_cons_self, hfresh⟩)⟩

theorem Sound.find {world : World Proof} (hsound : Sound hmac world) {id : ℕ} {call : Call}
    (hcall : world.calls.lookup id = some call) (hphase : call.phase = .finding)
    (failure : Option GatewayError) : Sound hmac (world.find id call failure) := by
  unfold World.find
  split
  · next error hload => exact hsound.endCall hcall (.inr ⟨error, rfl⟩)
  · next stored checkedAt hload =>
    refine hsound.moveCall hcall _ rfl (fun hspawned ↦ ?_) (World.load_valid hload)
    rw [hphase] at hspawned
    exact absurd hspawned (by simp [CallPhase.spawned])

theorem Sound.consult {world : World Proof} (hsound : Sound hmac world)
    (hcollision : ∀ mac ∈ hmac, Function.Injective mac) {id : ℕ} {call : Call}
    (hcall : world.calls.lookup id = some call) {stored : StoredVirtualKey} {checkedAt : Timestamp}
    (hphase : call.phase = .consulting stored checkedAt) :
    Sound hmac (world.consult hmac id call stored checkedAt) := by
  have hvalid : stored.ValidAt checkedAt := by
    have hold := hsound.calls id call hcall
    unfold World.PhaseSound at hold
    rwa [hphase] at hold
  unfold World.consult
  dsimp only
  split_ifs with hcontains
  · refine hsound.moveCall hcall _ rfl (fun _ ↦ rfl) ?_
    exact ⟨hsound.supported_of_contains hcollision hcontains _, rfl, rfl, hvalid⟩
  · refine hsound.moveCall hcall _ rfl (fun hspawned ↦ ?_) trivial
    rw [hphase] at hspawned
    exact absurd hspawned (by simp [CallPhase.spawned])

/-- A job of its own, for a call without a proof, keeps the world sound. -/
theorem Sound.spawnOwn {world : World Proof} (hsound : Sound hmac world) {id : ℕ} {call : Call}
    (hcall : world.calls.lookup id = some call) {stored : StoredVirtualKey}
    (hphase : call.phase = .verifying stored) :
    Sound hmac ((world.setJob (.own id) (world.newJob call stored)).setCall id
      { call with phase := .working stored }) := by
  have hfresh : ∀ other job, world.jobs.lookup other = some job → other ≠ .own id := by
    rintro other job hjob rfl
    obtain ⟨call', hcall', hspawned⟩ := hsound.known _ job hjob
    rw [hcall] at hcall'
    obtain rfl := Option.some.inj hcall'
    rw [hphase] at hspawned
    exact absurd hspawned (by simp [CallPhase.spawned])
  have hextends : world.Extends ((world.setJob (.own id) (world.newJob call stored)).setCall id
      { call with phase := .working stored }) := by
    refine ⟨le_rfl, fun _ hmem ↦ hmem, fun _ hmem ↦ hmem,
      fun _ waiting hwaiting ↦ ⟨waiting, hwaiting, rfl, rfl⟩, fun other job hjob ↦ ?_⟩
    exact ⟨job, (AList.lookup_insert_ne (hfresh other job hjob)).trans hjob, .refl job⟩
  refine hsound.of_extends hextends
    { coherent := hsound.coherent
      jobs := fun other job hjob ↦ ?_
      spawned := fun other call' hother ↦ ?_
      calls := fun other call' hother ↦ ?_ }
  · rcases Library.Table.lookup_insert_cases hjob with ⟨rfl, rfl⟩ | ⟨-, hold⟩
    · exact .inr ⟨⟨_, AList.lookup_insert _, rfl⟩, le_rfl, fun _ ↦ rfl, by simp [World.newJob],
        by simp [World.newJob]⟩
    · exact .inl hold
  · by_cases hsame : other = id
    · subst hsame
      exact ⟨{ call with phase := .working stored }, AList.lookup_insert _, fun _ ↦ rfl⟩
    · exact ⟨call', (AList.lookup_insert_ne hsame).trans hother, fun hspawned ↦ hspawned⟩
  · rcases Library.Table.lookup_insert_cases hother with ⟨rfl, rfl⟩ | ⟨-, hold⟩
    · have hstarted := hsound.started_le other call hcall
      exact .inr ⟨hstarted, _, AList.lookup_insert _, rfl, rfl, rfl, hstarted⟩
    · exact .inl hold

theorem Sound.verify {world : World Proof} (hsound : Sound hmac world)
    (hcollision : ∀ mac ∈ hmac, Function.Injective mac) {id : ℕ} {call : Call}
    (hcall : world.calls.lookup id = some call) {stored : StoredVirtualKey}
    (hphase : call.phase = .verifying stored) :
    Sound hmac (world.verify hmac id call stored) := by
  unfold World.verify
  dsimp only
  split_ifs with hnone hcontains
  · exact hsound.spawnOwn hcall hphase
  · exact hsound.moveCall hcall _ rfl (fun _ ↦ rfl)
      (hsound.supported_of_contains hcollision hcontains (.refreshing stored))
  · exact hsound.moveCall hcall _ rfl (fun _ ↦ rfl) trivial

/-- A leader that registers its flight and spawns its job keeps the world sound. -/
theorem Sound.lead {world : World Proof} (hsound : Sound hmac world) {call : Call}
    {stored : StoredVirtualKey} {proof : Proof} (hproof : call.proof hmac stored = some proof)
    (hmoves : Moves world.flights (world.flights.led proof)) :
    Sound hmac { world with
      flights := world.flights.led proof
      jobs := world.jobs.insert (.flight world.flights.next) (world.newJob call stored) } := by
  have hfresh : ∀ other job, world.jobs.lookup other = some job →
      other ≠ .flight world.flights.next := by
    rintro other job hjob rfl
    exact Nat.lt_irrefl _ (hsound.known _ job hjob)
  have hextends : world.Extends { world with
      flights := world.flights.led proof
      jobs := world.jobs.insert (.flight world.flights.next) (world.newJob call stored) } := by
    refine ⟨le_rfl, fun _ hmem ↦ hmem, fun _ hmem ↦ hmem,
      fun _ _ hwaiting ↦ hmoves.subscriber_persists hsound.coherent.balanced hwaiting,
      fun other job hjob ↦ ?_⟩
    exact ⟨job, (AList.lookup_insert_ne (hfresh other job hjob)).trans hjob, .refl job⟩
  refine hsound.of_extends hextends
    { coherent := hsound.coherent.moves hmoves
      next_le := Nat.le_succ _
      jobs := fun other job hjob ↦ ?_
      leaders := fun channel leader hleader ↦ ?_ }
  · rcases Library.Table.lookup_insert_cases hjob with ⟨rfl, rfl⟩ | ⟨-, hold⟩
    · exact .inr ⟨Nat.lt_succ_self _, le_rfl, fun _ ↦ rfl, by simp [World.newJob],
        by simp [World.newJob]⟩
    · exact .inl hold
  · rcases Library.Table.lookup_insert_cases hleader with ⟨rfl, rfl⟩ | ⟨-, hold⟩
    · exact .inr ⟨_, AList.lookup_insert _, hproof, fun _ hnone ↦ absurd hnone (by simp)⟩
    · exact .inl ⟨leader, hold, rfl, rfl⟩

theorem Sound.join {world : World Proof} (hsound : Sound hmac world) {id : ℕ} {call : Call}
    (hcall : world.calls.lookup id = some call) (stored : StoredVirtualKey) :
    Sound hmac (world.join hmac id call stored) := by
  unfold World.join
  split
  · exact hsound
  · next proof hproof =>
    split
    · next error hjoin => exact hsound.endCall hcall (.inr ⟨error, rfl⟩)
    · next subscriber leader flights hjoin =>
      have hmoves := Flights.join_moves hjoin
      rcases Flights.join_cases hjoin with ⟨channel, -, -, -, hids, rfl⟩ | ⟨-, -, hids, rfl⟩
      · obtain ⟨rfl, rfl⟩ := Prod.mk.inj hids
        refine (hsound.flights hmoves (Nat.le_succ _) (.of_eq rfl)).moveCall hcall _ rfl
          (fun _ ↦ rfl) ⟨rfl, _, AList.lookup_insert _, hproof⟩
      · obtain ⟨rfl, rfl⟩ := Prod.mk.inj hids
        refine (hsound.lead hproof hmoves).moveCall hcall _ rfl (fun _ ↦ rfl)
          ⟨rfl, _, AList.lookup_insert _, hproof⟩

/-- Assumes: a success in the channel of a call that waits. The call is supported. -/
theorem Sound.supported_of_value {world : World Proof} (hsound : Sound hmac world)
    (hcollision : ∀ mac ∈ hmac, Function.Injective mac) {id : ℕ} {call : Call}
    {stored : StoredVirtualKey} {subscriber : ℕ} {waiting : Waiting Proof}
    (hsubscriber : call.subscriber = some subscriber)
    (hwaiting : world.flights.subscribers.lookup subscriber = some waiting)
    (hproof : call.proof hmac stored = some waiting.proof)
    (hvalue : (world.flights.channels waiting.channel).value = some (.ok ())) :
    world.Supported id call stored world.clock := by
  obtain ⟨leader, hleader, hsame, hwork⟩ :=
    hsound.coherent.answered.value_of_subscriber hwaiting hvalue
  obtain ⟨job, hjob, hjobProof, hdone⟩ := hsound.leaders waiting.channel leader hleader
  rw [hsame] at hjobProof
  obtain ⟨hid, hraw, hhash⟩ := proof_injective hcollision hjobProof hproof
  have hjoined : world.Joined call waiting.channel :=
    ⟨subscriber, waiting, hsubscriber, hwaiting, rfl⟩
  obtain ⟨acceptance, haccepted, hfor, hsource⟩ :=
    (hsound.jobs _ job hjob).done (hdone _ (hwork _ rfl))
  rw [hid, hraw, hhash] at hfor
  refine ⟨acceptance, haccepted, hfor, .inr ?_⟩
  rcases hsource with ⟨hflight, -⟩ | ⟨consultedAt, hconsulted, hfresh⟩
  · exact .inl ⟨waiting.channel, hjoined, hflight⟩
  · exact .inr ⟨consultedAt, .inr ⟨_, job, .inr ⟨_, hjoined, rfl⟩, hjob, hconsulted⟩, hfresh⟩

/-- Assumes: a result that supports the call if it is a success. The answer keeps the world sound.
-/
theorem Sound.answer {world : World Proof} (hsound : Sound hmac world) {id : ℕ} {call : Call}
    (hcall : world.calls.lookup id = some call) {stored : StoredVirtualKey}
    {result : GatewayResult Unit}
    (hsupported : result = .ok () → world.Supported id call stored world.clock) :
    Sound hmac (world.answer id call stored result) := by
  cases result with
  | error error => exact hsound.endCall hcall (.inr ⟨error, rfl⟩)
  | ok value => exact hsound.moveCall hcall _ rfl (fun _ ↦ rfl) (hsupported rfl)

/-- A subscriber that leaves with an answer that was sent, or without success, keeps the world
sound. -/
theorem Sound.leave {world : World Proof} (hsound : Sound hmac world) (subscriber : ℕ)
    (outcome : Option (GatewayResult Unit))
    (houtcome : ∀ waiting, world.flights.subscribers.lookup subscriber = some waiting →
      outcome = some (.ok ()) → (world.flights.channels waiting.channel).value = some (.ok ())) :
    Sound hmac (world.leave subscriber outcome) :=
  have hkept := world.flights.leave_kept subscriber outcome
  hsound.flights (world.flights.leave_moves subscriber outcome houtcome) hkept.2.ge hkept.1

theorem Sound.awaken {world : World Proof} (hsound : Sound hmac world)
    (hcollision : ∀ mac ∈ hmac, Function.Injective mac) {id : ℕ} {call : Call}
    (hcall : world.calls.lookup id = some call) {stored : StoredVirtualKey} {subscriber : ℕ}
    (hphase : call.phase = .waiting stored subscriber) :
    Sound hmac (world.awaken id call stored subscriber) := by
  have hold := hsound.calls id call hcall
  unfold World.PhaseSound at hold
  rw [hphase] at hold
  obtain ⟨hsubscriber, waiting, hwaiting, hproof⟩ := hold
  unfold World.awaken
  simp only [hwaiting]
  split
  · exact hsound
  · next result hread =>
    have houtcome : ∀ waiting', world.flights.subscribers.lookup subscriber = some waiting' →
        some result = some (.ok ()) →
          (world.flights.channels waiting'.channel).value = some (.ok ()) := by
      intro waiting' hwaiting' hok
      rw [hwaiting] at hwaiting'
      obtain rfl := Option.some.inj hwaiting'
      exact Channel.value_of_read (hread.trans hok)
    refine (hsound.leave subscriber (some result) houtcome).answer hcall fun hok ↦ ?_
    have hvalue := houtcome waiting hwaiting (congrArg some hok)
    exact (hsound.supported_of_value hcollision hsubscriber hwaiting hproof hvalue).mono
      (.flights hsound.coherent (world.flights.leave_moves subscriber (some result) houtcome))
        le_rfl

theorem Sound.collect {world : World Proof} (hsound : Sound hmac world) {id : ℕ} {call : Call}
    (hcall : world.calls.lookup id = some call) {stored : StoredVirtualKey}
    (hphase : call.phase = .working stored) : Sound hmac (world.collect id call stored) := by
  have hold := hsound.calls id call hcall
  unfold World.PhaseSound at hold
  rw [hphase] at hold
  obtain ⟨job, hjob, hid, hraw, hhash, hspawned⟩ := hold
  unfold World.collect
  split
  · next id' hash raw spawnedAt consultedAt result hdone =>
    refine hsound.answer hcall fun hok ↦ ?_
    rw [hjob] at hdone
    have hphase : job.phase = .done (.ok ()) := by
      rw [Option.some.inj hdone, hok]
    obtain ⟨acceptance, haccepted, hfor, hsource⟩ := (hsound.jobs _ job hjob).done hphase
    rw [hid, hraw, hhash] at hfor
    refine ⟨acceptance, haccepted, hfor, ?_⟩
    rcases hsource with ⟨-, hafter⟩ | ⟨consultedAt, hconsulted, hfresh⟩
    · exact .inl ⟨hspawned.trans hafter, hsound.accepted_le acceptance haccepted⟩
    · exact .inr (.inr ⟨consultedAt, .inr ⟨_, job, .inl rfl, hjob, hconsulted⟩, hfresh⟩)
  · exact hsound

theorem Sound.refresh {world : World Proof} (hsound : Sound hmac world) {id : ℕ} {call : Call}
    (hcall : world.calls.lookup id = some call) {stored : StoredVirtualKey}
    (hphase : call.phase = .refreshing stored) (failure : Option GatewayError) :
    Sound hmac (world.refresh id call stored failure) := by
  have hsupported := hsound.calls id call hcall
  unfold World.PhaseSound at hsupported
  rw [hphase] at hsupported
  unfold World.refresh
  split
  · next error hload => exact hsound.endCall hcall (.inr ⟨error, rfl⟩)
  · next refreshed checkedAt hload =>
    split_ifs with hchanged
    · exact hsound.endCall hcall (.inr ⟨_, rfl⟩)
    · obtain ⟨hid, hhash⟩ := not_or.mp hchanged
      refine hsound.moveCall hcall _ rfl (fun _ ↦ rfl) ⟨hsupported, ?_, ?_, ?_⟩
      · exact not_not.mp hid
      · exact not_not.mp hhash
      · exact World.load_valid hload

theorem Sound.mark {world : World Proof} (hsound : Sound hmac world) {id : ℕ} {call : Call}
    (hcall : world.calls.lookup id = some call) {first last : StoredVirtualKey}
    {checkedAt : Timestamp} (hphase : call.phase = .marking first last checkedAt) :
    Sound hmac (world.endCall id call (.granted first last checkedAt world.clock)) := by
  have hold := hsound.calls id call hcall
  unfold World.PhaseSound at hold
  rw [hphase] at hold
  exact (hsound.moveCall hcall { call with phase := .granted first last checkedAt world.clock } rfl
    (fun _ ↦ rfl) hold).congr rfl rfl rfl rfl rfl rfl rfl

/-- A step of a call keeps the world sound. -/
theorem Sound.stepCall {world : World Proof} (hsound : Sound hmac world)
    (hcollision : ∀ mac ∈ hmac, Function.Injective mac) {id : ℕ} {call : Call}
    (hcall : world.calls.lookup id = some call) (action : CallStep) :
    Sound hmac (world.stepCall hmac id call action) := by
  unfold World.stepCall
  split
  · next failure hphase => exact hsound.find hcall hphase failure
  · next stored checkedAt hphase => exact hsound.consult hcollision hcall hphase
  · next stored hphase => exact hsound.verify hcollision hcall hphase
  · next stored hphase => exact hsound.join hcall stored
  · next stored subscriber hphase => exact hsound.awaken hcollision hcall hphase
  · next stored subscriber hphase =>
    refine (hsound.leave subscriber _ fun _ _ hok ↦ ?_).endCall hcall (.inr ⟨_, rfl⟩)
    exact absurd (Option.some.inj hok) (by simp)
  · next stored hphase => exact hsound.collect hcall hphase
  · next failure stored hphase => exact hsound.refresh hcall hphase failure
  · next first last checkedAt hphase => exact hsound.mark hcall hphase
  · next stored subscriber hphase =>
    refine (hsound.leave subscriber none fun _ _ hok ↦ ?_).endCall hcall (.inl rfl)
    exact absurd hok (by simp)
  · exact hsound
  · exact hsound
  · exact hsound
  · exact hsound.endCall hcall (.inl rfl)
  · exact hsound

/-- A call that begins keeps the world sound. -/
theorem Sound.begin {world : World Proof} (hsound : Sound hmac world) (id : ℕ) (key : VirtualKey)
    (now : Timestamp) : Sound hmac (world.begin id key now) := by
  unfold World.begin
  split_ifs with hknown hslots
  · exact hsound
  all_goals
    have hfresh : ∀ other call, world.calls.lookup other = some call → other ≠ id := by
      rintro other call hcall rfl
      rw [AList.lookup_eq_none.mpr hknown] at hcall
      exact absurd hcall (by simp)
    refine hsound.of_extends (.refl_of rfl rfl rfl rfl rfl)
      { coherent := hsound.coherent
        spawned := fun other call hcall ↦
          ⟨call, (AList.lookup_insert_ne (hfresh other call hcall)).trans hcall,
            fun hspawned ↦ hspawned⟩
        calls := fun other call hother ↦ ?_ }
    rcases Library.Table.lookup_insert_cases hother with ⟨rfl, rfl⟩ | ⟨-, hold⟩
    · exact .inr ⟨le_rfl, trivial⟩
    · exact .inl hold

/-- Purging the cache and the passing of time keep the world sound. -/
theorem Sound.later {world : World Proof} (hsound : Sound hmac world) {cache : Entries Proof}
    (hcache : ∀ proof insertedAt, cache.proofs.lookup proof = some insertedAt →
      world.cache.proofs.lookup proof = some insertedAt) (elapsed : ℕ) :
    Sound hmac { world with cache := cache, clock := world.clock + elapsed } := by
  have hextends : world.Extends { world with cache := cache, clock := world.clock + elapsed } :=
    ⟨Nat.le_add_right _ _, fun _ hmem ↦ hmem, fun _ hmem ↦ hmem,
      fun _ waiting hwaiting ↦ ⟨waiting, hwaiting, rfl, rfl⟩,
      fun _ job hjob ↦ ⟨job, hjob, .refl job⟩⟩
  exact hsound.of_extends hextends
    { coherent := hsound.coherent
      cached := fun proof insertedAt hlookup ↦ .inl (hcache proof insertedAt hlookup) }

/-- Every step keeps the world sound. -/
theorem sound_step (hcollision : ∀ mac ∈ hmac, Function.Injective mac) (world : World Proof)
    (action : WorldAction) (hsound : Sound hmac world) : Sound hmac (world.step hmac action) := by
  cases action with
  | begin id key now => exact hsound.begin id key now
  | call id action =>
    simp only [World.step]
    split
    · next call hcall => exact hsound.stepCall hcollision hcall action
    · exact hsound
  | job id action =>
    simp only [World.step]
    split
    · next job hjob => exact hsound.stepJob hcollision hjob action
    · exact hsound
  | deliver channel => exact hsound.deliver channel
  | send channel =>
    have hkept := world.flights.send_kept channel
    exact hsound.flights (world.flights.send_moves channel) hkept.2.ge hkept.1
  | removeEntry channel =>
    have hkept := world.flights.removeEntry_kept channel
    exact hsound.flights (world.flights.removeEntry_moves channel) hkept.2.ge hkept.1
  | closeSender channel =>
    have hkept := world.flights.closeSender_kept channel
    exact hsound.flights (world.flights.closeSender_moves channel) hkept.2.ge hkept.1
  | returnGlobal subscriber =>
    have hkept := world.flights.returnGlobal_kept subscriber
    exact hsound.flights (world.flights.returnGlobal_moves subscriber) hkept.2.ge hkept.1
  | returnPerProof subscriber =>
    have hkept := world.flights.returnPerProof_kept subscriber
    exact hsound.flights (world.flights.returnPerProof_moves subscriber) hkept.2.ge hkept.1
  | purge => exact hsound.later (fun _ _ hlookup ↦ lookup_purgeExpired hlookup) 0
  | change lookupPrefix stored => exact hsound.congr rfl rfl rfl rfl rfl rfl rfl
  | advance elapsed => exact hsound.later (fun _ _ hlookup ↦ hlookup) elapsed

theorem sound_initial : Sound hmac (World.initial : World Proof) := by
  refine ⟨coherent_initial, ?_, ?_, ?_, ?_, ?_, ?_, ?_, ?_⟩ <;>
    simp [World.initial, Entries.empty, Flights.initial]

theorem sound_run (hcollision : ∀ mac ∈ hmac, Function.Injective mac)
    (actions : List WorldAction) :
    Sound hmac (run (World.step hmac) (World.initial : World Proof) actions) :=
  run_invariant (sound_step hcollision) actions _ sound_initial

/-- Assumes: an HMAC without collisions. For every interleaving of calls, verification jobs, changes
of the store and advances of the clock, a call that is granted has loaded a record first and a
record last that agree in id and hash; the last one was neither revoked nor disabled and had not
expired when it was checked; and the oracle accepted the secret of the call for the id and hash of
the first one, during the call, in the job of the flight it joined, or with an insertion into the
cache less than sixty seconds before the call or the job it waited for looked there. `first` and
`last` are what the store held when the call loaded a record, which it may no longer hold when the
call returns, and `checkedAt` is what the clock showed the call when it checked the last one. -/
theorem cached_verification_sound (hmac : Option (List UInt8 → Proof))
    (hcollision : ∀ mac ∈ hmac, Function.Injective mac) (actions : List WorldAction) :
    let world := run (World.step hmac) (World.initial : World Proof) actions
    ∀ id call first last checkedAt returnedAt, world.calls.lookup id = some call →
      call.phase = .granted first last checkedAt returnedAt →
        last.id = first.id ∧ last.keyHash = first.keyHash ∧ last.ValidAt checkedAt ∧
          world.Supported id call first returnedAt := by
  intro world id call first last checkedAt returnedAt hcall hphase
  have hold := (sound_run hcollision actions).calls id call hcall
  unfold World.PhaseSound at hold
  rw [hphase] at hold
  obtain ⟨hsupported, hid, hhash, hvalid⟩ := hold
  exact ⟨hid, hhash, hvalid, hsupported⟩

end Steps

/-! ### An insertion that comes late -/

def sampleKey : VirtualKey :=
  ⟨⟨[1], by decide⟩, ⟨[2], by decide⟩⟩

def sampleRecord : StoredVirtualKey :=
  ⟨7, none, ⟨[2], by decide⟩, ⟨[3], by decide⟩, false, none, none⟩

/-- The oracle accepts the key at instant zero for a first call. The job is suspended for 61 seconds
before it inserts the proof, and then a second call finds the proof in the cache. -/
def lateInsertion : List WorldAction :=
  [.change ⟨[2], by decide⟩ (some sampleRecord), .begin 0 sampleKey 0, .call 0 (.find none),
    .call 0 .consult, .call 0 .verify, .call 0 .join, .job (.flight 0) .start,
    .job (.flight 0) .consult, .job (.flight 0) (.verify true), .advance 61000000000,
    .call 0 .timeout, .job (.flight 0) .insert, .begin 1 sampleKey 0, .call 1 (.find none),
    .call 1 .consult, .call 1 .mark]

/-- The process after `lateInsertion`, with the message itself as its HMAC. -/
def lateWorld : World (List UInt8) :=
  run (World.step (some id)) World.initial lateInsertion

/-- The second call after `lateInsertion`. -/
def lateCall : Call :=
  ⟨sampleKey, 0, 61000000000, [61000000000], none,
    .granted sampleRecord sampleRecord 0 61000000000⟩

theorem cached_verification_sound_late :
    lateWorld.calls.lookup 1 = some lateCall ∧
      lateWorld.Supported 1 lateCall sampleRecord 61000000000 := by
  have hcall : lateWorld.calls.lookup 1 = some lateCall := by decide
  have hcollision : ∀ mac ∈ some (id : List UInt8 → List UInt8), Function.Injective mac := by
    rintro mac hmac
    obtain rfl := Option.some.inj hmac
    exact Function.injective_id
  have hsound := cached_verification_sound (some id) hcollision lateInsertion 1 lateCall
    sampleRecord sampleRecord 0 61000000000 hcall rfl
  exact ⟨hcall, hsound.2.2.2⟩

/-- The oracle accepted the secret of a call during the call, or less than `timeToLive` before the
call or the job it waited for looked into the cache. -/
def World.AcceptedRecently (world : World Proof) (id : ℕ) (call : Call) (stored : StoredVirtualKey)
    (until' : ℕ) : Prop :=
  ∃ acceptance ∈ world.accepted, acceptance.For stored.id call.key.raw stored.keyHash ∧
    (call.startedAt ≤ acceptance.acceptedAt ∧ acceptance.acceptedAt ≤ until' ∨
      ∃ consultedAt, world.Consulted id call consultedAt ∧ acceptance.acceptedAt ≤ consultedAt ∧
        consultedAt - acceptance.acceptedAt < timeToLive)

/-- After `lateInsertion` the acceptance that the second call was granted for is 61 seconds old. -/
theorem acceptance_older_than_ttl :
    ¬ ∀ (actions : List WorldAction) (id' : ℕ) (call : Call) (first last : StoredVirtualKey)
      (checkedAt : Timestamp) (returnedAt : ℕ),
      (run (World.step (some id)) (World.initial : World (List UInt8)) actions).calls.lookup id' =
        some call → call.phase = .granted first last checkedAt returnedAt →
          (run (World.step (some id)) (World.initial : World (List UInt8))
            actions).AcceptedRecently id' call first returnedAt := by
  intro hrecent
  have hcall : lateWorld.calls.lookup 1 = some lateCall := by decide
  have haccepted : lateWorld.accepted.map Acceptance.acceptedAt = [0] := by decide
  have hjob : (lateWorld.jobs.lookup (.own 1)).isNone = true := by decide
  obtain ⟨acceptance, hmem, -, hage⟩ := hrecent lateInsertion 1 lateCall sampleRecord sampleRecord 0
    61000000000 hcall rfl
  have hzero : acceptance.acceptedAt = 0 := by
    have hmap : acceptance.acceptedAt ∈ lateWorld.accepted.map Acceptance.acceptedAt :=
      List.mem_map.mpr ⟨acceptance, hmem, rfl⟩
    rw [haccepted] at hmap
    exact List.mem_singleton.mp hmap
  rw [hzero] at hage
  rcases hage with ⟨hstarted, -⟩ | ⟨consultedAt, hconsulted, -, hrecent⟩
  · exact absurd hstarted (by decide)
  · rcases hconsulted with hown | ⟨owner, job, howner, hlookup, -⟩
    · obtain rfl : consultedAt = 61000000000 := List.mem_singleton.mp hown
      exact absurd hrecent (by decide)
    · rcases howner with rfl | ⟨channel, ⟨subscriber, waiting, hsubscriber, -⟩, -⟩
      · change lateWorld.jobs.lookup (.own 1) = some job at hlookup
        rw [hlookup] at hjob
        exact absurd hjob (by simp)
      · exact absurd hsubscriber (by simp [lateCall])

end Relayna.Auth

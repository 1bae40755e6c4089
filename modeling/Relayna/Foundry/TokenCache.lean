import Mathlib.Algebra.Order.Ring.Int
import Relayna.Common
import Relayna.Library.Table

/-!
# The cache of Foundry tokens

`FoundryTokenCache::token` of `crates/gateway-proxy/src/foundry.rs`, by any number of concurrent
calls. A call looks for a cached token, takes the lock of its provider, looks again, acquires a
token and publishes it. What a call does between two points at which it waits is one step, since the
two maps are locked meanwhile; it may be cancelled at each of these points, which drops what it
holds.

The locks are kept by the calls that wait for them or hold them: `refreshes` has weak references
only. So a lock is alive when a call has it, and held when the guard is with a call.

Two logs that the source does not have say what happened: `acquisitions`, the tokens that were
acquired and for whom, and `returns`, the answers.
-/

set_option autoImplicit false
set_option relaxedAutoImplicit false

namespace Relayna.Foundry

open Library.Table

/-! ### Data -/

/-- The fields of `FoundryRuntimeConfig` that the cache reads, and whether its identity is valid. -/
structure Config where
  id : Uuid
  revision : ℤ
  valid : Bool

structure CachedToken (Token : Type) where
  revision : ℤ
  token : Token
  refreshAt : Timestamp

/-- Where a call is: about to look into the cache, about to choose a lock, waiting for it, about to
look again, acquiring a token, or about to publish it with its lifetime. -/
inductive Phase (Token : Type)
  | looking
  | choosing
  | waiting (lock : ℕ)
  | rechecking (lock : ℕ)
  | acquiring (lock : ℕ)
  | publishing (lock : ℕ) (token : Token) (lifetime : ℕ)

/-- A call of `token`. -/
structure Call (Token : Type) where
  config : Config
  phase : Phase Token

/-- A token that was acquired for a provider at a revision. -/
structure Acquisition (Token : Type) where
  id : Uuid
  revision : ℤ
  token : Token

/-- A token that was returned to a call, at an instant; and the entry that it came from, when it was
cached. -/
structure Return (Token : Type) where
  config : Config
  token : Token
  cached : Option (CachedToken Token)
  instant : Timestamp

/-- The cache, its callers and the logs. -/
structure System (Token : Type) where
  entries : AList fun _ : Uuid ↦ CachedToken Token
  refreshes : AList fun _ : Uuid ↦ ℕ
  calls : AList fun _ : ℕ ↦ Call Token
  clock : Timestamp
  next : ℕ
  acquisitions : List (Acquisition Token)
  returns : List (Return Token)

variable {Token : Type}

/-- An empty cache. -/
def System.init (Token : Type) : System Token :=
  ⟨∅, ∅, ∅, 0, 0, [], []⟩

/-- The lock that a call keeps alive. -/
def Phase.lock : Phase Token → Option ℕ
  | .looking => none
  | .choosing => none
  | .waiting lock => some lock
  | .rechecking lock => some lock
  | .acquiring lock => some lock
  | .publishing lock _ _ => some lock

/-- The lock whose guard is with a call. -/
def Phase.guard : Phase Token → Option ℕ
  | .waiting _ => none
  | phase => phase.lock

/-- A lock has a strong reference. -/
def System.alive (system : System Token) (lock : ℕ) : Bool :=
  system.calls.entries.any fun entry ↦ entry.2.phase.lock = some lock

def System.held (system : System Token) (lock : ℕ) : Bool :=
  system.calls.entries.any fun entry ↦ entry.2.phase.guard = some lock

/-! ### Steps -/

/-- A call goes on. -/
def System.setPhase (system : System Token) (id : ℕ) (config : Config) (phase : Phase Token) :
    System Token :=
  { system with calls := system.calls.insert id ⟨config, phase⟩ }

/-- A call ends without a token: with an error, or because it is cancelled. -/
def System.drop (system : System Token) (id : ℕ) : System Token :=
  { system with calls := system.calls.erase id }

/-- A call returns a token. -/
def System.answer (system : System Token) (id : ℕ) (config : Config) (token : Token)
    (cached : Option (CachedToken Token)) : System Token :=
  { system with
    calls := system.calls.erase id
    returns := system.returns ++ [⟨config, token, cached, system.clock⟩] }

/-- A cached token is for the revision of a call, and is not to be refreshed. -/
def CachedToken.usable (cached : CachedToken Token) (config : Config) (now : Timestamp) : Bool :=
  cached.revision = config.revision ∧ now < cached.refreshAt

/-- The cached token that a call can have. -/
def System.usable (system : System Token) (config : Config) : Option (CachedToken Token) :=
  (system.entries.lookup config.id).filter fun cached ↦ cached.usable config system.clock

/-- A call begins. -/
def System.start (system : System Token) (config : Config) : System Token :=
  if config.valid then
    { system.setPhase system.next config .looking with next := system.next + 1 }
  else system

/-- A call looks into the cache, and goes on in a phase when it finds nothing. -/
def System.look (system : System Token) (id : ℕ) (config : Config) (phase : Phase Token) :
    System Token :=
  match system.usable config with
  | some cached => system.answer id config cached.token (some cached)
  | none => system.setPhase id config phase

/-- The locks that a sweep leaves. Of those without a strong reference some may have lost it after
the sweep, and stay. -/
def System.sweep (system : System Token) (stays : Uuid → Bool) : AList fun _ : Uuid ↦ ℕ :=
  retain (fun provider lock ↦ system.alive lock || stays provider) system.refreshes

/-- A call chooses the lock of its provider. -/
def System.choose (system : System Token) (id : ℕ) (config : Config) (stays : Uuid → Bool) :
    System Token :=
  match ((system.sweep stays).lookup config.id).filter system.alive with
  | some lock => { system.setPhase id config (.waiting lock) with refreshes := system.sweep stays }
  | none =>
    { system.setPhase id config (.waiting system.next) with
      refreshes := (system.sweep stays).insert config.id system.next
      next := system.next + 1 }

/-- An acquisition returns. The source refuses a token without a lifetime, or with one above a day.
-/
def System.acquired (system : System Token) (id : ℕ) (config : Config) (lock : ℕ)
    (result : Option (Token × ℕ)) : System Token :=
  match result with
  | some (token, lifetime) =>
    if lifetime = 0 ∨ 86400 < lifetime then system.drop id
    else
      { system.setPhase id config (.publishing lock token lifetime) with
        acquisitions := system.acquisitions ++ [⟨config.id, config.revision, token⟩] }
  | none => system.drop id

/-- The nanoseconds after which a token is refreshed. -/
def refreshAfter (lifetime : ℕ) : ℕ :=
  (lifetime - min (max (lifetime / 10) 1) 60) * 1000000000

/-- The number of entries at which the cache is emptied. -/
def capacity : ℕ := 256

/-- Storing a token. The clock is read for each entry that is swept, and once more for the new one.
-/
def System.store (system : System Token) (config : Config) (token : Token) (lifetime : ℕ)
    (swept : Uuid → Timestamp) (now : Timestamp) : AList fun _ : Uuid ↦ CachedToken Token :=
  let entries := retain (fun provider cached ↦ swept provider < cached.refreshAt) system.entries
  let entries := if capacity ≤ entries.entries.length then ∅ else entries
  entries.insert config.id ⟨config.revision, token, now + refreshAfter lifetime⟩

/-- A call publishes its token. -/
def System.publish (system : System Token) (id : ℕ) (config : Config) (token : Token)
    (lifetime : ℕ) (swept : Uuid → Timestamp) (now : Timestamp) : System Token :=
  let stored :=
    { system.answer id config token none with
      entries := system.store config token lifetime swept now }
  match system.entries.lookup config.id with
  | some cached =>
    if config.revision < cached.revision then system.answer id config token none
    else if cached.usable config system.clock then
      system.answer id config cached.token (some cached)
    else stored
  | none => stored

/-- What can happen: a call begins, or goes on from where it is, or is cancelled; and time passes.
-/
inductive Action (Token : Type)
  | start (config : Config)
  | look (id : ℕ)
  | choose (id : ℕ) (stays : Uuid → Bool)
  | lock (id : ℕ)
  | recheck (id : ℕ)
  | acquired (id : ℕ) (result : Option (Token × ℕ))
  | publish (id : ℕ) (swept : Uuid → Timestamp) (now : Timestamp)
  | cancel (id : ℕ)
  | advance (now : Timestamp)

/-- One step. What a call is not ready for leaves the system as it is. -/
def step (system : System Token) : Action Token → System Token
  | .start config => system.start config
  | .look id =>
    match system.calls.lookup id with
    | some ⟨config, .looking⟩ => system.look id config .choosing
    | _ => system
  | .choose id stays =>
    match system.calls.lookup id with
    | some ⟨config, .choosing⟩ => system.choose id config stays
    | _ => system
  | .lock id =>
    match system.calls.lookup id with
    | some ⟨config, .waiting lock⟩ =>
      if system.held lock then system else system.setPhase id config (.rechecking lock)
    | _ => system
  | .recheck id =>
    match system.calls.lookup id with
    | some ⟨config, .rechecking lock⟩ => system.look id config (.acquiring lock)
    | _ => system
  | .acquired id result =>
    match system.calls.lookup id with
    | some ⟨config, .acquiring lock⟩ => system.acquired id config lock result
    | _ => system
  | .publish id swept now =>
    match system.calls.lookup id with
    | some ⟨config, .publishing _ token lifetime⟩ =>
      system.publish id config token lifetime swept now
    | _ => system
  | .cancel id => system.drop id
  | .advance now => { system with clock := max system.clock now }

end Relayna.Foundry

import Mathlib.Data.List.AList
import Relayna.Common
import Relayna.Library.MachineWord
import Relayna.Library.Table

/-!
# The cache of verified secrets

`crates/gateway-core/src/verification_cache.rs` remembers for sixty seconds that a secret was
verified. An entry is a proof, the HMAC of the key id, the stored hash and the presented secret
under a random key of the process, with the instant at which it was inserted.

The HMAC with the key of the process is a parameter, which is absent when the process could not draw
a key. `proof_injective` shows that the message determines what it is made of, so an HMAC without
collisions gives proofs without collisions. `lookup_insert_cases` and `lookup_purgeExpired` say what
the operations do to the entries.
-/

set_option autoImplicit false
set_option relaxedAutoImplicit false

namespace Relayna.Auth

open Library.MachineWord

/-- A string of the source: its bytes, whose number is a `usize`. -/
@[ext]
structure Text where
  bytes : List UInt8
  length_lt : bytes.length < 2 ^ 64
  deriving DecidableEq

/-! ### Proofs -/

/-- `Uuid::as_bytes`. -/
def uuidBytes (id : Uuid) : List UInt8 :=
  (littleEndian 16 id.toNat).reverse

/-- What the HMAC is fed with: the id, the length of the hash, the hash and the secret. -/
def proofMessage (id : Uuid) (raw encodedHash : Text) : List UInt8 :=
  uuidBytes id ++ (littleEndian 8 encodedHash.bytes.length ++ (encodedHash.bytes ++ raw.bytes))

/-- The message determines the id, the secret and the hash. -/
theorem proofMessage_injective {id id' : Uuid} {raw raw' hash hash' : Text}
    (hmessage : proofMessage id raw hash = proofMessage id' raw' hash') :
    id = id' ∧ raw = raw' ∧ hash = hash' := by
  obtain ⟨hid, hrest⟩ := List.append_inj hmessage (by simp [uuidBytes])
  obtain ⟨hlength, hrest⟩ := List.append_inj hrest (by simp)
  have hlengths := littleEndian_injective hash.length_lt hash'.length_lt hlength
  obtain ⟨hhash, hraw⟩ := List.append_inj hrest hlengths
  have hnat := littleEndian_injective (id.isLt) (id'.isLt) (List.reverse_injective hid)
  exact ⟨BitVec.eq_of_toNat_eq hnat, Text.ext hraw, Text.ext hhash⟩

section Cache

variable {Proof : Type}

/-- `proof`. There is none when the process has no HMAC key. -/
def proof (hmac : Option (List UInt8 → Proof)) (id : Uuid) (raw encodedHash : Text) :
    Option Proof :=
  hmac.map fun mac ↦ mac (proofMessage id raw encodedHash)

/-- Assumes: an HMAC without collisions. Proofs determine what they are proofs of. -/
theorem proof_injective {hmac : Option (List UInt8 → Proof)}
    (hcollision : ∀ mac ∈ hmac, Function.Injective mac) {id id' : Uuid}
    {raw raw' hash hash' : Text} {shared : Proof} (hproof : proof hmac id raw hash = some shared)
    (hproof' : proof hmac id' raw' hash' = some shared) :
    id = id' ∧ raw = raw' ∧ hash = hash' := by
  obtain ⟨mac, hmac', hshared⟩ := Option.map_eq_some_iff.mp hproof
  obtain ⟨mac', hmac'', hshared'⟩ := Option.map_eq_some_iff.mp hproof'
  rw [hmac'] at hmac''
  obtain rfl := Option.some.inj hmac''
  exact proofMessage_injective (hcollision mac hmac' (hshared.trans hshared'.symm))

/-! ### Entries -/

def capacity : ℕ := 1024

/-- `TTL`, in nanoseconds. -/
def timeToLive : ℕ := 60000000000

structure Entries (Proof : Type) where
  proofs : AList fun _ : Proof ↦ ℕ
  order : List Proof

def Entries.empty : Entries Proof :=
  ⟨∅, []⟩

variable [DecidableEq Proof]

def Entries.contains (entries : Entries Proof) (proof : Proof) (now : ℕ) : Bool :=
  (entries.proofs.lookup proof).any (now - · < timeToLive)

/-- `Entries::purge_expired`, over the order of the entries. -/
def purgeExpiredFrom (now : ℕ) : List Proof → (AList fun _ : Proof ↦ ℕ) → Entries Proof
  | [], proofs => ⟨proofs, []⟩
  | oldest :: order, proofs =>
    if Entries.contains ⟨proofs, oldest :: order⟩ oldest now then ⟨proofs, oldest :: order⟩
    else purgeExpiredFrom now order (proofs.erase oldest)

def Entries.purgeExpired (entries : Entries Proof) (now : ℕ) : Entries Proof :=
  purgeExpiredFrom now entries.order entries.proofs

/-- The loop of `Entries::insert`, which removes what has expired and makes room for one entry. -/
def makeRoomFrom (now : ℕ) : List Proof → (AList fun _ : Proof ↦ ℕ) → Entries Proof
  | [], proofs => ⟨proofs, []⟩
  | oldest :: order, proofs =>
    if proofs.entries.length < capacity ∧
        Entries.contains ⟨proofs, oldest :: order⟩ oldest now then ⟨proofs, oldest :: order⟩
    else makeRoomFrom now order (proofs.erase oldest)

def Entries.insert (entries : Entries Proof) (proof : Proof) (now : ℕ) : Entries Proof :=
  if entries.contains proof now then entries
  else
    let room := makeRoomFrom now entries.order entries.proofs
    if (room.proofs.lookup proof).isSome then room
    else ⟨room.proofs.insert proof now, room.order ++ [proof]⟩

/-- Assumes: an entry that is left after an erasure. It was there. -/
theorem lookup_of_erase {proofs : AList fun _ : Proof ↦ ℕ} {erased proof : Proof} {at' : ℕ}
    (hlookup : (proofs.erase erased).lookup proof = some at') :
    proofs.lookup proof = some at' := by
  by_cases hsame : proof = erased
  · rw [hsame, AList.lookup_erase] at hlookup
    exact absurd hlookup (by simp)
  · exact (AList.lookup_erase_ne hsame).symm.trans hlookup

/-- Purging only removes entries. -/
theorem lookup_purgeExpired {entries : Entries Proof} {now : ℕ} {proof : Proof} {at' : ℕ}
    (hlookup : (entries.purgeExpired now).proofs.lookup proof = some at') :
    entries.proofs.lookup proof = some at' := by
  obtain ⟨proofs, order⟩ := entries
  unfold Entries.purgeExpired at hlookup
  induction order generalizing proofs with
  | nil => exact hlookup
  | cons oldest order ih =>
    dsimp only [purgeExpiredFrom] at hlookup
    split_ifs at hlookup
    · exact hlookup
    · exact lookup_of_erase (ih (proofs.erase oldest) hlookup)

/-- Making room only removes entries. -/
theorem lookup_makeRoomFrom {now : ℕ} {order : List Proof} {proofs : AList fun _ : Proof ↦ ℕ}
    {proof : Proof} {at' : ℕ}
    (hlookup : (makeRoomFrom now order proofs).proofs.lookup proof = some at') :
    proofs.lookup proof = some at' := by
  induction order generalizing proofs with
  | nil => exact hlookup
  | cons oldest order ih =>
    dsimp only [makeRoomFrom] at hlookup
    split_ifs at hlookup
    · exact hlookup
    · exact lookup_of_erase (ih hlookup)

/-- An entry after an insertion was there, or is the new one. -/
theorem lookup_insert_cases {entries : Entries Proof} {inserted proof : Proof} {now at' : ℕ}
    (hlookup : (entries.insert inserted now).proofs.lookup proof = some at') :
    entries.proofs.lookup proof = some at' ∨ proof = inserted ∧ at' = now := by
  unfold Entries.insert at hlookup
  dsimp only at hlookup
  split_ifs at hlookup
  · exact .inl hlookup
  · exact .inl (lookup_makeRoomFrom hlookup)
  · rcases Library.Table.lookup_insert_cases hlookup with hnew | ⟨-, hold⟩
    · exact .inr hnew
    · exact .inl (lookup_makeRoomFrom hold)

/-- Assumes: a proof the cache contains. It has an entry that has not expired. -/
theorem Entries.lookup_of_contains {entries : Entries Proof} {proof : Proof} {now : ℕ}
    (hcontains : entries.contains proof now = true) :
    ∃ insertedAt, entries.proofs.lookup proof = some insertedAt ∧
      now - insertedAt < timeToLive := by
  unfold Entries.contains at hcontains
  cases hlookup : entries.proofs.lookup proof with
  | none =>
    rw [hlookup] at hcontains
    exact absurd hcontains (by simp)
  | some insertedAt =>
    rw [hlookup] at hcontains
    exact ⟨insertedAt, rfl, of_decide_eq_true hcontains⟩

end Cache

end Relayna.Auth

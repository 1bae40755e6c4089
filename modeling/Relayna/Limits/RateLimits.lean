import Relayna.Common
import Relayna.Library.ExpiringCounters
import Relayna.Library.Transition

/-!
# Request and token limits per minute

`check_request_rate_limit` and `check_token_rate_limit` of `crates/gateway-store/src/redis.rs` count
in Redis under a key that names the virtual key and the minute of the caller's clock
(`crates/gateway-core/src/rate_limits.rs`). A check is one `MULTI` pipeline, `INCR` or `INCRBY`
followed by `EXPIRE 70`, so it is atomic; the reply of the pipeline, and the reply of the `TTL` that
a refusal asks for, may be lost. HTTP requests, websocket upgrades and Accessa turns share the
counters. A request with a body is counted before the body is known (`countedLimit`), and the count
is compared once more with the limit of the policy that the complete body selects
(`completeBodyAllows`).

Any number of replicas take part, each with its own clock. `admitted_within_limit` is the promise of
the limits for every interleaving: what one minute admits under a limit stays within the limit, and
a request is refused only when more was asked for. It holds as long as the clocks of the replicas
and of Redis differ by no more than the ten seconds by which the lease of a counter outlasts its
minute; the way of a check to Redis counts among them.

The key text `{%Y%m%d%H%M}` is the number of the minute here. Redis keeps time in milliseconds.
-/

set_option autoImplicit false
set_option relaxedAutoImplicit false

namespace Relayna.Limits.RateLimits

open Relayna.Library.ExpiringCounters
open Relayna.Library.Transition (run Guarded run_guarded_invariant)

/-! ### Keys and decisions -/

inductive RateLimitDecision
  | allowed (count : ℤ)
  | exceeded (count : ℤ) (retryAfterSeconds : Option ℕ)
  deriving DecidableEq

/-- The errors of the checks. -/
inductive GatewayError
  | controlStateUnavailable
  deriving DecidableEq

/-- `rl:req:{key_id}:{minute}` and `rl:tpm:{key_id}:{minute}`. -/
inductive RateLimitKey
  | request (keyId : Uuid) (minute : ℤ)
  | token (keyId : Uuid) (minute : ℤ)
  deriving DecidableEq

def minuteOf (now : Timestamp) : ℤ :=
  now / 60000000000

def requestRateLimitKey (keyId : Uuid) (now : Timestamp) : RateLimitKey :=
  .request keyId (minuteOf now)

def tokenRateLimitKey (keyId : Uuid) (now : Timestamp) : RateLimitKey :=
  .token keyId (minuteOf now)

def RateLimitKey.minute : RateLimitKey → ℤ
  | .request _ minute => minute
  | .token _ minute => minute

/-! ### The checks -/

/-- Whether the reply of the pipeline reaches the gateway. -/
inductive Reply
  | answered
  | lost
  deriving DecidableEq

/-- `EXPIRE key 70`, in milliseconds. -/
def lease : ℤ := 70000

/-- The largest 64-bit counter. -/
def counterCeiling : ℤ := 2 ^ 63 - 1

/-- The pipeline and the comparison that both checks share. `ttl` is what a later `TTL` answers, if
it answers. -/
def checkCounter (store : Store RateLimitKey) (key : RateLimitKey) (amount limit : ℤ)
    (reply : Reply) (ttl : Option ℤ) :
    Except GatewayError RateLimitDecision × Store RateLimitKey :=
  let (answer, store) := store.increment lease counterCeiling key amount
  match answer, reply with
  | some count, .answered =>
    if count > limit then
      match ttl with
      | some ttl => (.ok (.exceeded count (if 0 < ttl then some ttl.toNat else none)), store)
      | none => (.error .controlStateUnavailable, store)
    else (.ok (.allowed count), store)
  | _, _ => (.error .controlStateUnavailable, store)

def checkRequestRateLimit (store : Store RateLimitKey) (keyId : Uuid) (rpmLimit : Option ℤ)
    (now : Timestamp) (reply : Reply) (ttl : Option ℤ) :
    Except GatewayError RateLimitDecision × Store RateLimitKey :=
  match rpmLimit with
  | none => (.ok (.allowed 0), store)
  | some rpmLimit => checkCounter store (requestRateLimitKey keyId now) 1 rpmLimit reply ttl

def checkTokenRateLimit (store : Store RateLimitKey) (keyId : Uuid) (tpmLimit : Option ℤ)
    (estimatedTokens : ℤ) (now : Timestamp) (reply : Reply) (ttl : Option ℤ) :
    Except GatewayError RateLimitDecision × Store RateLimitKey :=
  match tpmLimit with
  | none => (.ok (.allowed 0), store)
  | some tpmLimit =>
    let estimatedTokens := max estimatedTokens 0
    if estimatedTokens = 0 then (.ok (.allowed 0), store)
    else checkCounter store (tokenRateLimitKey keyId now) estimatedTokens tpmLimit reply ttl

/-- The limit that the request filter counts a request under. A request whose body is read in full
is counted even when its first policy has no limit. -/
def countedLimit (rpmLimit : Option ℤ) (bodyEmpty canStream : Bool) : Option ℤ :=
  rpmLimit.or (if !bodyEmpty && !canStream then some (2 ^ 31 - 1) else none)

/-- The comparison of `admit_complete_body` with the limit of the policy of the complete body. -/
def completeBodyAllows (rpmLimit requestRateCount : Option ℤ) : Bool :=
  !rpmLimit.any fun limit ↦ limit ≤ 0 || requestRateCount.getD 0 > limit

/-! ### Runs of all replicas -/

/-- What the replicas do, and how much time passes between it. -/
inductive Call
  | wait (milliseconds : ℕ)
  | request (keyId : Uuid) (rpmLimit : Option ℤ) (bodyEmpty canStream : Bool) (now : Timestamp)
      (reply : Reply) (ttl : Option ℤ)
  | tokens (keyId : Uuid) (tpmLimit : Option ℤ) (estimatedTokens : ℤ) (now : Timestamp)
      (reply : Reply) (ttl : Option ℤ)
  deriving DecidableEq

/-- A check that was sent to Redis: the limit of the policy, what it was counted under, whether a
second policy follows, and what the gateway made of it. -/
structure Served where
  key : RateLimitKey
  amount : ℤ
  policyLimit : Option ℤ
  limit : ℤ
  completesBody : Bool
  result : Except GatewayError RateLimitDecision

/-- Redis, and the checks that were sent to it, the newest first. -/
structure Gateway where
  store : Store RateLimitKey
  served : List Served

/-- One call by one replica. -/
def perform (gateway : Gateway) : Call → Gateway
  | .wait milliseconds =>
    { gateway with store := { gateway.store with now := gateway.store.now + milliseconds } }
  | .request keyId rpmLimit bodyEmpty canStream now reply ttl =>
    let counted := countedLimit rpmLimit bodyEmpty canStream
    let (result, store) := checkRequestRateLimit gateway.store keyId counted now reply ttl
    let served := counted.map fun limit ↦
      Served.mk (requestRateLimitKey keyId now) 1 rpmLimit limit (!bodyEmpty && !canStream) result
    ⟨store, served.toList ++ gateway.served⟩
  | .tokens keyId tpmLimit estimatedTokens now reply ttl =>
    let (result, store) :=
      checkTokenRateLimit gateway.store keyId tpmLimit estimatedTokens now reply ttl
    let served := (tpmLimit.filter fun _ ↦ 0 < estimatedTokens).map fun limit ↦
      Served.mk (tokenRateLimitKey keyId now) estimatedTokens tpmLimit limit false result
    ⟨store, served.toList ++ gateway.served⟩

/-- Redis before the first call. -/
def idle (now : ℤ) : Gateway :=
  ⟨⟨now, ∅⟩, []⟩

/-- The clock of the replica that makes a call. -/
def Call.clock : Call → Option Timestamp
  | .wait _ => none
  | .request _ _ _ _ now _ _ => some now
  | .tokens _ _ _ now _ _ => some now

/-- The tokens of a call fit the counter. -/
def Call.Fits : Call → Prop
  | .tokens _ _ estimatedTokens _ _ _ => estimatedTokens ≤ counterCeiling
  | _ => True

/-- When Redis executes a call, the clock that the call was made with is at most `ahead`
milliseconds ahead of Redis and at most `behind` milliseconds behind it. The number of tokens is an
`i64`. -/
def Punctual (ahead behind : ℤ) (gateway : Gateway) (call : Call) : Prop :=
  call.Fits ∧ ∀ now ∈ call.clock, now ≤ (gateway.store.now + ahead) * 1000000 ∧
    (gateway.store.now - behind) * 1000000 ≤ now

instance (call : Call) : Decidable call.Fits := by
  cases call <;> unfold Call.Fits <;> infer_instance

instance (ahead behind : ℤ) (gateway : Gateway) (call : Call) :
    Decidable (Punctual ahead behind gateway call) :=
  inferInstanceAs (Decidable (_ ∧ ∀ now ∈ call.clock, _))

/-- A check passed under some limit that is at most `limit`: the limit of the policy at hand, or the
limit of the policy that the complete body selected. -/
def Served.AdmittedWithin (limit : ℤ) (served : Served) : Prop :=
  ∃ count, served.result = .ok (.allowed count) ∧
    ((∃ policyLimit ∈ served.policyLimit, policyLimit ≤ limit) ∨
      served.completesBody = true ∧
        ∃ effective, completeBodyAllows (some effective) (some count) = true ∧ effective ≤ limit)

/-- A check is refused under a limit with a count: by the counted limit, or by the limit of the
policy that the complete body selected. -/
def Served.Refused (limit count : ℤ) (served : Served) : Prop :=
  (served.limit = limit ∧ ∃ retry, served.result = .ok (.exceeded count retry)) ∨
    (served.completesBody = true ∧ served.result = .ok (.allowed count) ∧
      completeBodyAllows (some limit) (some count) = false)

/-! ### The counters behind the checks -/

/-- The interval in which a key is used. -/
def opens (ahead : ℤ) (key : RateLimitKey) : ℤ :=
  key.minute * 60000 - ahead

/-- The end of the interval in which a key is used. -/
def closes (behind : ℤ) (key : RateLimitKey) : ℤ :=
  key.minute * 60000 + 60000 + behind

/-- The addition that a check saw. -/
def Served.entry (served : Served) : Option (Entry RateLimitKey) :=
  match served.result with
  | .ok (.allowed count) => some ⟨served.key, served.amount, count⟩
  | .ok (.exceeded count _) => some ⟨served.key, served.amount, count⟩
  | .error _ => none

/-- What was asked of a key, whether or not Redis or the gateway learnt the outcome. -/
def asked (key : RateLimitKey) (served : List Served) : ℤ :=
  ((served.filter fun check ↦ check.key = key).map Served.amount).sum

/-- What is sent asks for something, and a decision follows the comparison with the counted limit,
which is the limit of the policy where it has one. -/
def Served.Faithful (served : Served) : Prop :=
  0 < served.amount ∧ (∀ policyLimit ∈ served.policyLimit, served.limit = policyLimit) ∧
    (∀ count, served.result = .ok (.allowed count) → count ≤ served.limit) ∧
    ∀ count retry, served.result = .ok (.exceeded count retry) → served.limit < count

/-- What a check makes of the counter: an error, or a decision that compares the answer with the
limit. The store afterwards is the store of the addition. -/
theorem checkCounter_cases (store : Store RateLimitKey) (key : RateLimitKey) (amount limit : ℤ)
    (reply : Reply) (ttl : Option ℤ) :
    let answer := store.increment lease counterCeiling key amount
    let checked := checkCounter store key amount limit reply ttl
    checked.2 = answer.2 ∧
      (checked.1 = .error .controlStateUnavailable ∨
        (∃ count, answer.1 = some count ∧ count ≤ limit ∧ checked.1 = .ok (.allowed count)) ∨
        ∃ count retry, answer.1 = some count ∧ limit < count ∧
          checked.1 = .ok (.exceeded count retry)) := by
  unfold checkCounter
  rcases store.increment lease counterCeiling key amount with ⟨_ | count, after⟩
  · exact ⟨rfl, .inl rfl⟩
  · cases reply with
    | lost => exact ⟨rfl, .inl rfl⟩
    | answered =>
      by_cases hcount : count > limit
      · cases ttl with
        | none => simp [hcount]
        | some ttl => simp [hcount]
      · simp [hcount, Int.not_lt.mp hcount]

/-- The counters and the checks belong together: some history of exact additions has the store of
the gateway, contains the answers of all checks in order, and adds no more than was asked. -/
structure Linked (ahead : ℤ) (gateway : Gateway) : Prop where
  faithful : ∀ served ∈ gateway.served, served.Faithful
  history : ∃ entries : List (Entry RateLimitKey),
    Exact lease (opens ahead) ⟨gateway.store, entries⟩ ∧
      (gateway.served.filterMap Served.entry).Sublist entries ∧
      ∀ key, demand key entries ≤ asked key gateway.served

theorem asked_cons (key : RateLimitKey) (check : Served) (served : List Served) :
    asked key (check :: served) =
      (if check.key = key then check.amount else 0) + asked key served := by
  by_cases hkey : check.key = key
  · simp [asked, hkey]
  · simp [asked, hkey]

/-- Assumes: the invariant, and a check at a time when its key may be used. The check keeps the
invariant. -/
theorem Linked.check {ahead behind : ℤ} (hslack : ahead + behind ≤ 10000) {gateway : Gateway}
    (hlinked : Linked ahead gateway) (key : RateLimitKey) (amount limit : ℤ) (reply : Reply)
    (ttl policyLimit : Option ℤ) (completesBody : Bool) (hamount : 0 < amount)
    (hpolicy : ∀ found ∈ policyLimit, limit = found)
    (htimely : Timely counterCeiling (opens ahead) (closes behind) ⟨gateway.store, []⟩
      (.add key amount)) :
    let checked := checkCounter gateway.store key amount limit reply ttl
    Linked ahead ⟨checked.2,
      ⟨key, amount, policyLimit, limit, completesBody, checked.1⟩ :: gateway.served⟩ := by
  obtain ⟨entries, hexact, hsublist, hasked⟩ := hlinked.history
  obtain ⟨hstore, hcases⟩ := checkCounter_cases gateway.store key amount limit reply ttl
  have hlease : ∀ key, closes behind key ≤ opens ahead key + lease := by
    intro key
    unfold closes opens lease
    omega
  have hstep : Exact lease (opens ahead)
      ⟨(gateway.store.increment lease counterCeiling key amount).2,
        ((gateway.store.increment lease counterCeiling key amount).1.map
          (Entry.mk key amount)).toList ++ entries⟩ :=
    Exact.step hlease ⟨gateway.store, entries⟩ (.add key amount) htimely hexact
  refine ⟨List.forall_mem_cons.mpr ⟨⟨hamount, hpolicy, ?_, ?_⟩, hlinked.faithful⟩,
    _, hstore ▸ hstep, ?_, fun other ↦ ?_⟩
  · intro count hresult
    obtain herror | ⟨found, -, hle, hallowed⟩ | ⟨found, retry, -, -, hexceeded⟩ := hcases
    · exact absurd (herror.symm.trans hresult) (by simp)
    · obtain rfl : found = count := by simpa using hallowed.symm.trans hresult
      exact hle
    · exact absurd (hexceeded.symm.trans hresult) (by simp)
  · intro count retry hresult
    obtain herror | ⟨found, -, -, hallowed⟩ | ⟨found, retry', -, hlt, hexceeded⟩ := hcases
    · exact absurd (herror.symm.trans hresult) (by simp)
    · exact absurd (hallowed.symm.trans hresult) (by simp)
    · obtain ⟨rfl, -⟩ : found = count ∧ retry' = retry := by
        simpa using hexceeded.symm.trans hresult
      exact hlt
  · -- An answer that was seen is the answer of the addition.
    obtain herror | ⟨count, hanswer, -, hallowed⟩ | ⟨count, retry, hanswer, -, hexceeded⟩ := hcases
    · rw [List.filterMap_cons_none (by simp [Served.entry, herror])]
      exact hsublist.trans (List.sublist_append_right _ entries)
    · rw [hanswer]
      simpa [Served.entry, hallowed] using hsublist
    · rw [hanswer]
      simpa [Served.entry, hexceeded] using hsublist
  · rw [asked_cons]
    have hother := hasked other
    cases (gateway.store.increment lease counterCeiling key amount).1 with
    | none =>
      have hamount : 0 ≤ amount := htimely.1
      show demand other entries ≤ (if key = other then amount else 0) + asked other gateway.served
      split_ifs <;> omega
    | some answer =>
      show demand other (⟨key, amount, answer⟩ :: entries) ≤
        (if key = other then amount else 0) + asked other gateway.served
      split_ifs with hkey
      · subst hkey
        rw [demand_cons_self ⟨key, amount, answer⟩]
        exact Int.add_le_add_left hother amount
      · rw [demand_cons_of_ne hkey, zero_add]
        exact hother

/-- Assumes: a call whose clock is within the slack of the clock of Redis. Its key is used inside
its interval. -/
theorem used_inside {ahead behind now : ℤ} {store : Store RateLimitKey}
    (hahead : now ≤ (store.now + ahead) * 1000000)
    (hbehind : (store.now - behind) * 1000000 ≤ now) (key : RateLimitKey)
    (hminute : key.minute = minuteOf now) :
    opens ahead key ≤ store.now ∧ store.now ≤ closes behind key := by
  rw [opens, closes, hminute, minuteOf]
  omega

/-- Assumes: a call at a time when the clocks differ by at most the slack. It keeps the
invariant. -/
theorem Linked.perform {ahead behind : ℤ} (hslack : ahead + behind ≤ 10000) (gateway : Gateway)
    (call : Call) (hpunctual : Punctual ahead behind gateway call)
    (hlinked : Linked ahead gateway) : Linked ahead (perform gateway call) := by
  cases call with
  | wait milliseconds =>
    obtain ⟨entries, hexact, hsublist, hasked⟩ := hlinked.history
    exact ⟨hlinked.faithful, entries, ⟨hexact.answers, hexact.held, hexact.fresh⟩, hsublist, hasked⟩
  | request keyId rpmLimit bodyEmpty canStream now reply ttl =>
    obtain ⟨-, hclock⟩ := hpunctual
    obtain ⟨hahead, hbehind⟩ := hclock now rfl
    have hinside := used_inside hahead hbehind (requestRateLimitKey keyId now) rfl
    cases hcounted : countedLimit rpmLimit bodyEmpty canStream with
    | none => simpa [RateLimits.perform, checkRequestRateLimit, hcounted] using hlinked
    | some limit =>
      have hpolicy : ∀ found ∈ rpmLimit, limit = found := by
        rintro found rfl
        exact (Option.some.inj hcounted).symm
      have hcheck := hlinked.check hslack (requestRateLimitKey keyId now) 1 limit reply ttl rpmLimit
        (!bodyEmpty && !canStream) Int.one_pos hpolicy ⟨by decide, by decide, hinside⟩
      simpa [RateLimits.perform, checkRequestRateLimit, hcounted] using hcheck
  | tokens keyId tpmLimit estimatedTokens now reply ttl =>
    obtain ⟨hfits, hclock⟩ := hpunctual
    obtain ⟨hahead, hbehind⟩ := hclock now rfl
    have hinside := used_inside hahead hbehind (tokenRateLimitKey keyId now) rfl
    cases tpmLimit with
    | none => simpa [RateLimits.perform, checkTokenRateLimit] using hlinked
    | some limit =>
      by_cases hpositive : 0 < estimatedTokens
      · have hcheck := hlinked.check hslack (tokenRateLimitKey keyId now)
          estimatedTokens limit reply
          ttl (some limit) false hpositive (fun found hfound ↦ Option.some.inj hfound)
          ⟨hpositive.le, hfits, hinside⟩
        simpa [RateLimits.perform, checkTokenRateLimit, max_eq_left hpositive.le, hpositive,
          hpositive.ne', Option.filter_some] using hcheck
      · have hnonpos : estimatedTokens ≤ 0 := Int.not_lt.mp hpositive
        simpa [RateLimits.perform, checkTokenRateLimit, hnonpos, hpositive, Option.filter_some]
          using hlinked

theorem linked_run {ahead behind : ℤ} (hslack : ahead + behind ≤ 10000) (start : ℤ)
    (calls : List Call) (hpunctual : Guarded perform (Punctual ahead behind) (idle start) calls) :
    Linked ahead (run perform (idle start) calls) := by
  refine run_guarded_invariant (Linked.perform hslack) calls _ hpunctual ⟨?_, [], ?_, ?_, ?_⟩
  · exact fun served hserved ↦ absurd hserved List.not_mem_nil
  · exact exact_empty start
  · exact List.Sublist.slnil
  · exact fun key ↦ le_rfl

/-! ### What the limits promise -/

/-- Assumes: a faithful check that passed under a limit of at most `limit`. Its count is at most
`limit`. -/
theorem Served.AdmittedWithin.answer_le {limit : ℤ} {served : Served} (hfaithful : served.Faithful)
    (hadmitted : served.AdmittedWithin limit) :
    ∃ count ≤ limit, served.entry = some ⟨served.key, served.amount, count⟩ := by
  obtain ⟨count, hresult, ⟨policyLimit, hpolicy, hle⟩ | ⟨-, effective, hallows, hle⟩⟩ := hadmitted
  · have hcount := hfaithful.2.2.1 count hresult
    rw [hfaithful.2.1 policyLimit hpolicy] at hcount
    exact ⟨count, hcount.trans hle, by simp [Served.entry, hresult]⟩
  · simp only [completeBodyAllows, Option.any_some, Option.getD_some, Bool.not_eq_true',
      Bool.or_eq_false_iff, decide_eq_false_iff_not] at hallows
    exact ⟨count, (Int.not_lt.mp hallows.2).trans hle, by simp [Served.entry, hresult]⟩

theorem amount_nonneg {entries : List (Entry RateLimitKey)} (hexact : AnswersExact entries) :
    ∀ entry ∈ entries, 0 ≤ entry.amount := by
  induction entries with
  | nil => exact fun entry hentry ↦ absurd hentry List.not_mem_nil
  | cons entry older ih => exact List.forall_mem_cons.mpr ⟨hexact.1, ih hexact.2.2⟩

/-- Assumes: checks of one key, each admitted within the limit, with the entries that they saw. The
entries are those of the key that were answered with at most the limit. -/
theorem filterMap_admitted {key : RateLimitKey} {limit : ℤ} {admitted : List Served}
    (hadmitted : ∀ check ∈ admitted,
      check.key = key ∧ check.Faithful ∧ check.AdmittedWithin limit) :
    (admitted.map Served.amount = (admitted.filterMap Served.entry).map Entry.amount) ∧
      ∀ entry ∈ admitted.filterMap Served.entry, entry.key = key ∧ entry.answer ≤ limit := by
  induction admitted with
  | nil => simp
  | cons check rest ih =>
    obtain ⟨⟨hkey, hfaithful, hwithin⟩, hrest⟩ := List.forall_mem_cons.mp hadmitted
    obtain ⟨count, hcount, hentry⟩ := hwithin.answer_le hfaithful
    obtain ⟨hamounts, hentries⟩ := ih hrest
    rw [List.filterMap_cons_some hentry]
    exact ⟨congrArg (check.amount :: ·) hamounts,
      List.forall_mem_cons.mpr ⟨⟨hkey, hcount⟩, hentries⟩⟩

/-- Assumes: a faithful check, and the history that its entry is of. A refusal is one of a count
above the limit, which the entry was answered with. -/
theorem Served.Refused.limit_lt {entries : List (Entry RateLimitKey)}
    (hexact : AnswersExact entries) {limit count : ℤ} {served : Served}
    (hfaithful : served.Faithful) (hsublist : ∀ entry ∈ served.entry, entry ∈ entries)
    (hrefused : served.Refused limit count) :
    limit < count ∧ served.entry = some ⟨served.key, served.amount, count⟩ := by
  obtain ⟨rfl, retry, hresult⟩ | ⟨-, hresult, hrefuses⟩ := hrefused
  · exact ⟨hfaithful.2.2.2 count retry hresult, by simp [Served.entry, hresult]⟩
  · have hentry : served.entry = some ⟨served.key, served.amount, count⟩ := by
      simp [Served.entry, hresult]
    have hpositive : 0 < count :=
      hfaithful.1.trans_le (amount_le_answer hexact (hsublist _ hentry))
    refine ⟨?_, hentry⟩
    -- A limit that is not positive is refused whatever was counted, and one request was counted.
    simp only [completeBodyAllows, Option.any_some, Option.getD_some, Bool.not_eq_false',
      Bool.or_eq_true, decide_eq_true_eq] at hrefuses
    omega

/-- Assumes: the clocks of the replicas and of Redis differ by at most ten seconds in all, counting
the time from the reading of a clock to the execution of the check by Redis. In every run of every
number of replicas, the requests (or the tokens) that one minute of a virtual key admits under a
limit sum to at most the limit, whichever policy set it; and whoever is refused in that minute, by
the check itself or once the body is complete, was not the first to ask: more than the limit was
asked for. -/
theorem admitted_within_limit {ahead behind : ℤ} (hslack : ahead + behind ≤ 10000) (start : ℤ)
    (calls : List Call) (hpunctual : Guarded perform (Punctual ahead behind) (idle start) calls)
    (key : RateLimitKey) (limit : ℕ) :
    (∀ admitted : List Served, admitted.Sublist (run perform (idle start) calls).served →
      (∀ check ∈ admitted, check.key = key ∧ check.AdmittedWithin limit) →
      (admitted.map Served.amount).sum ≤ limit) ∧
    ∀ check ∈ (run perform (idle start) calls).served, check.key = key →
      ∀ refusedUnder count, check.Refused refusedUnder count →
        refusedUnder < count ∧ count ≤ asked key (run perform (idle start) calls).served := by
  have hlinked := linked_run hslack start calls hpunctual
  obtain ⟨entries, hexact, hsublist, hasked⟩ := hlinked.history
  constructor
  · intro admitted hadmitted hwithin
    have hall : ∀ check ∈ admitted,
        check.key = key ∧ check.Faithful ∧ check.AdmittedWithin limit :=
      fun check hcheck ↦ ⟨(hwithin check hcheck).1,
        hlinked.faithful check (hadmitted.subset hcheck), (hwithin check hcheck).2⟩
    obtain ⟨hamounts, hentries⟩ := filterMap_admitted hall
    have hkept : ((admitted.filterMap Served.entry).filter fun entry ↦
        entry.key = key ∧ entry.answer ≤ (limit : ℤ)) = admitted.filterMap Served.entry :=
      List.filter_eq_self.mpr fun entry hentry ↦ decide_eq_true (hentries entry hentry)
    have hpart : (admitted.filterMap Served.entry).Sublist
        (entries.filter fun entry ↦ entry.key = key ∧ entry.answer ≤ (limit : ℤ)) :=
      hkept ▸ ((hadmitted.filterMap Served.entry).trans hsublist).filter _
    calc (admitted.map Served.amount).sum
        = ((admitted.filterMap Served.entry).map Entry.amount).sum := by rw [hamounts]
      _ ≤ ((entries.filter fun entry ↦ entry.key = key ∧ entry.answer ≤ (limit : ℤ)).map
            Entry.amount).sum := by
        refine (hpart.map Entry.amount).sum_le_sum fun amount hamount ↦ ?_
        obtain ⟨entry, hentry, rfl⟩ := List.mem_map.mp hamount
        exact amount_nonneg hexact.answers entry (List.mem_of_mem_filter hentry)
      _ ≤ limit := sum_answered_le hexact.answers key (Int.natCast_nonneg limit)
  · rintro check hcheck rfl refusedUnder count hrefused
    have hmem : ∀ entry ∈ check.entry, entry ∈ entries := fun entry hentry ↦
      hsublist.subset (List.mem_filterMap.mpr ⟨check, hcheck, hentry⟩)
    obtain ⟨hlt, hentry⟩ := hrefused.limit_lt hexact.answers (hlinked.faithful check hcheck) hmem
    exact ⟨hlt, (answer_le_demand hexact.answers (hmem _ hentry)).trans (hasked check.key)⟩

/-- Three requests to replicas with clocks ten seconds apart, the third of them counted before its
body selects a policy. -/
def sampleCalls : List Call :=
  [.request 7 (some 2) true false 60005000000000 .answered none, .wait 10000,
    .request 7 (some 2) true false 60005000000000 .answered none,
    .request 7 none false false 60011000000000 .answered none]

/-- The first two are admitted, and a limit of two holds for them. The third is refused under a
limit of two once its body is complete, and three requests were made. -/
theorem admitted_within_limit_two :
    (((run perform (idle 60000000) sampleCalls).served.drop 1).map Served.amount).sum ≤
      (2 : ℕ) ∧
    (3 : ℤ) ≤ asked (.request 7 1000) (run perform (idle 60000000) sampleCalls).served := by
  have hlimits := @admitted_within_limit 5000 5000 (by decide) 60000000 sampleCalls (by decide)
    (.request 7 1000) 2
  constructor
  · refine hlimits.1 _ (List.drop_sublist 1 _) ?_
    refine List.forall_mem_cons.mpr ⟨⟨rfl, 2, rfl, .inl ⟨2, rfl, le_rfl⟩⟩, ?_⟩
    exact List.forall_mem_cons.mpr ⟨⟨rfl, 1, rfl, .inl ⟨2, rfl, le_rfl⟩⟩, List.forall_mem_nil _⟩
  · exact (hlimits.2 _ List.mem_cons_self rfl 2 3 (.inr ⟨rfl, rfl, rfl⟩)).2

end Relayna.Limits.RateLimits

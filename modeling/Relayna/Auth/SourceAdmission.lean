import Mathlib.Algebra.Order.Field.Rat
import Mathlib.Data.Finset.Card
import Mathlib.Tactic.FieldSimp
import Relayna.Library.Table
import Relayna.Library.TokenBucket
import Relayna.Library.Transition

/-!
# Admission of authentication sources

`RequestAdmission::check_source` gives every transport peer a token bucket before a request can
reach a store or a key derivation. A mapped IPv6 address shares the bucket of its IPv4 address, and
unknown peers share one. Once a second, the check drops the buckets that have been idle for a minute
and are full again; a peer without a bucket is refused when the map is at its capacity. Instants are
nanoseconds and token amounts are rationals.

A `Ledger` adds to the map what a run has seen: each call with its decision, and for a bucket that
was dropped the instant of the prune that dropped it. `Faithful` is the simulation with the buckets
of `Library.TokenBucket`, of which none is ever dropped. `pruning_unobservable` is the main theorem.
-/

set_option autoImplicit false
set_option relaxedAutoImplicit false

namespace Relayna.Auth.SourceAdmission

open Relayna.Library
open Relayna.Library.Transition
open Relayna.Library.TokenBucket (Bucket draw level after Agree Solvent)

/-! ### Sources -/

/-- The address of a transport peer. -/
inductive IpAddr where
  | v4 (address : BitVec 32)
  | v6 (address : BitVec 128)
  deriving DecidableEq, Repr

/-- The IPv4 address that an IPv6 address `::ffff:a.b.c.d` maps. -/
def toIpv4Mapped (address : BitVec 128) : Option (BitVec 32) :=
  if address.extractLsb' 32 96 = 0xffff then some (address.extractLsb' 0 32) else none

/-- The address under which a peer is counted. -/
def canonical : IpAddr → IpAddr
  | .v6 v6 => ((toIpv4Mapped v6).map IpAddr.v4).getD (.v6 v6)
  | ip => ip

/-- The errors of the admission. -/
inductive GatewayError where
  | invalidConfiguration
  | authenticationOverloaded
  | sourceRateLimitExceeded
  deriving DecidableEq, Repr

/-! ### The check -/

/-- `SOURCE_CAPACITY`. -/
def sourceCapacity : ℕ := 4096

/-- A second, in nanoseconds. -/
def second : ℕ := 1000000000

/-- `SOURCE_TTL`. -/
def sourceTtl : ℕ := 60 * second

/-- `Duration::as_secs_f64`, exactly. -/
def asSecs (duration : ℕ) : ℚ := duration / second

/-- The limits of an admission, which `RequestAdmission::new` has checked. -/
structure RequestAdmission where
  rps : ℕ
  burst : ℕ
  rps_valid : 1 ≤ rps ∧ rps ≤ 1000000
  burst_valid : 1 ≤ burst ∧ burst ≤ 1000000

/-- The buckets of the sources, and the last time they were pruned. -/
structure Sources where
  buckets : AList fun _ : Option IpAddr ↦ Bucket ℚ
  lastPrune : ℕ

/-- A new admission, at the instant it is created. -/
def RequestAdmission.new (rps burst created : ℕ) :
    Except GatewayError (RequestAdmission × Sources) :=
  if hvalid : (1 ≤ rps ∧ rps ≤ 1000000) ∧ 1 ≤ burst ∧ burst ≤ 1000000 then
    .ok (⟨rps, burst, hvalid.1, hvalid.2⟩, ⟨∅, created⟩)
  else .error .invalidConfiguration

variable (admission : RequestAdmission)

/-- A prune keeps a bucket that was used within the last minute or is not full again. -/
def RequestAdmission.keeps (now : ℕ) (bucket : Bucket ℚ) : Bool :=
  let idle := now - bucket.updated
  decide (idle < sourceTtl) ||
    decide (bucket.tokens + asSecs idle * admission.rps < admission.burst)

/-- The prune at the start of a check, at most once a second. -/
def RequestAdmission.prune (sources : Sources) (now : ℕ) : Sources :=
  if second ≤ now - sources.lastPrune then
    ⟨Table.retain (fun _ bucket ↦ admission.keeps now bucket) sources.buckets, now⟩
  else sources

/-- The check of one source once the buckets are pruned. -/
def RequestAdmission.checkBucket (sources : Sources) (peer : Option IpAddr) (now : ℕ) :
    Sources × Except GatewayError Unit :=
  if (sources.buckets.lookup peer).isNone ∧ sourceCapacity ≤ sources.buckets.entries.length then
    (sources, .error .authenticationOverloaded)
  else
    let bucket := (sources.buckets.lookup peer).getD ⟨admission.burst, now⟩
    let tokens := min (bucket.tokens + asSecs (now - bucket.updated) * admission.rps)
      (admission.burst : ℚ)
    if tokens < 1 then
      (⟨sources.buckets.insert peer ⟨tokens, now⟩, sources.lastPrune⟩,
        .error .sourceRateLimitExceeded)
    else (⟨sources.buckets.insert peer ⟨tokens - 1, now⟩, sources.lastPrune⟩, .ok ())

/-- `check_source`, with the mutex held. -/
def RequestAdmission.checkSource (sources : Sources) (peer : Option IpAddr) (now : ℕ) :
    Sources × Except GatewayError Unit :=
  admission.checkBucket (admission.prune sources now) (peer.map canonical) now

/-! ### The check as a token bucket -/

/-- The refill rate, per nanosecond. -/
def RequestAdmission.rate : ℚ := admission.rps / second

def RequestAdmission.draw (bucket : Option (Bucket ℚ)) (now : ℕ) : Bucket ℚ × Bool :=
  TokenBucket.draw (admission.burst : ℚ) admission.rate bucket now

theorem RequestAdmission.rate_nonneg : 0 ≤ admission.rate :=
  div_nonneg (Nat.cast_nonneg _) (Nat.cast_nonneg _)

theorem RequestAdmission.burst_nonneg : (0 : ℚ) ≤ admission.burst :=
  Nat.cast_nonneg _

theorem asSecs_mul_rps (duration : ℕ) :
    asSecs duration * admission.rps = (duration : ℚ) * admission.rate := by
  rw [asSecs, RequestAdmission.rate, div_mul_eq_mul_div, mul_div_assoc]

/-- What the check computes is the level of the bucket, an absent one being full. -/
theorem min_refill_eq_level (bucket : Option (Bucket ℚ)) (now : ℕ) :
    min ((bucket.getD ⟨admission.burst, now⟩).tokens +
        asSecs (now - (bucket.getD ⟨admission.burst, now⟩).updated) * admission.rps)
      (admission.burst : ℚ) = level (admission.burst : ℚ) admission.rate bucket now := by
  rw [asSecs_mul_rps]
  cases bucket with
  | none => simp [level]
  | some bucket => rfl

/-- A call is refused for capacity, or draws from the bucket of its source. -/
theorem checkBucket_cases (sources : Sources) (peer : Option IpAddr) (now : ℕ) :
    sources.buckets.lookup peer = none ∧ sourceCapacity ≤ sources.buckets.entries.length ∧
        admission.checkBucket sources peer now = (sources, .error .authenticationOverloaded) ∨
      (sources.buckets.lookup peer = none → sources.buckets.entries.length < sourceCapacity) ∧
        admission.checkBucket sources peer now =
          (⟨sources.buckets.insert peer (admission.draw (sources.buckets.lookup peer) now).1,
              sources.lastPrune⟩,
            if (admission.draw (sources.buckets.lookup peer) now).2 then .ok ()
            else .error .sourceRateLimitExceeded) := by
  unfold RequestAdmission.checkBucket RequestAdmission.draw TokenBucket.draw
  dsimp only
  rw [min_refill_eq_level]
  split
  · rename_i hfull
    exact .inl ⟨Option.isNone_iff_eq_none.mp hfull.1, hfull.2, rfl⟩
  · rename_i hroom
    refine .inr ⟨fun habsent ↦ ?_, ?_⟩
    · exact not_le.mp fun hfull ↦ hroom ⟨Option.isNone_iff_eq_none.mpr habsent, hfull⟩
    · split
      · rfl
      · rfl

/-! ### Runs of checks -/

/-- A call: the transport peer and the clock value it has read. -/
structure Call where
  peer : Option IpAddr
  now : ℕ
  deriving DecidableEq, Repr

/-- The source under which a call is counted. -/
def Call.source (call : Call) : Option IpAddr :=
  call.peer.map canonical

/-- A call that has been decided. -/
structure Entry where
  call : Call
  outcome : Except GatewayError Unit
  deriving Repr

/-- The call passes the check. -/
def Entry.passed (entry : Entry) : Bool :=
  entry.outcome.isOk

/-- The call was not refused for capacity. -/
def Entry.served (entry : Entry) : Bool :=
  match entry.outcome with
  | .error .authenticationOverloaded => false
  | _ => true

/-- The state of a run: the sources, for each source that lost its bucket the instant of the prune
that dropped it, and the calls that were decided. -/
structure Ledger where
  sources : Sources
  dropped : Option IpAddr → ℕ
  log : List Entry

/-- A new admission has seen no call. -/
def Ledger.start (created : ℕ) : Ledger :=
  ⟨⟨∅, created⟩, fun _ ↦ 0, []⟩

/-- The prune of a check, with the instants of the buckets that it drops. -/
def Ledger.prune (ledger : Ledger) (now : ℕ) : Ledger where
  sources := admission.prune ledger.sources now
  dropped source :=
    if (ledger.sources.buckets.lookup source).isSome ∧
        ((admission.prune ledger.sources now).buckets.lookup source).isNone then now
    else ledger.dropped source
  log := ledger.log

def Ledger.check (ledger : Ledger) (call : Call) : Ledger where
  sources := (admission.checkSource ledger.sources call.peer call.now).1
  dropped := (ledger.prune admission call.now).dropped
  log := ledger.log ++
    [⟨call, (admission.checkSource ledger.sources call.peer call.now).2⟩]

/-- The calls of a source that were not refused for capacity. -/
def Ledger.served (ledger : Ledger) (source : Option IpAddr) : List Entry :=
  ledger.log.filter fun entry ↦ decide (entry.call.source = source) && entry.served

/-- The instants of the calls of a source. -/
def Ledger.instants (ledger : Ledger) (source : Option IpAddr) : List ℕ :=
  (ledger.served source).map fun entry ↦ entry.call.now

/-- The decisions on the calls of a source. -/
def Ledger.decisions (ledger : Ledger) (source : Option IpAddr) : List Bool :=
  (ledger.served source).map Entry.passed

/-- The instant up to which the bucket of a source has been refilled, or found full. -/
def Ledger.credited (ledger : Ledger) (source : Option IpAddr) : ℕ :=
  match ledger.sources.buckets.lookup source with
  | some bucket => bucket.updated
  | none => ledger.dropped source

/-- The bucket that a source would have if no bucket were ever dropped. -/
def Ledger.reference (ledger : Ledger) (source : Option IpAddr) : Option (Bucket ℚ) :=
  after (admission.burst : ℚ) admission.rate none (ledger.instants source)

/-! ### What a check does to a ledger -/

/-- A call is refused for capacity. -/
def Ledger.refuse (ledger : Ledger) (call : Call) : Ledger :=
  { ledger with log := ledger.log ++ [⟨call, .error .authenticationOverloaded⟩] }

/-- A call draws from the bucket of its source. -/
def Ledger.draw (ledger : Ledger) (call : Call) : Ledger where
  sources :=
    ⟨ledger.sources.buckets.insert call.source
        (admission.draw (ledger.sources.buckets.lookup call.source) call.now).1,
      ledger.sources.lastPrune⟩
  dropped := ledger.dropped
  log := ledger.log ++
    [⟨call, if (admission.draw (ledger.sources.buckets.lookup call.source) call.now).2 then .ok ()
      else .error .sourceRateLimitExceeded⟩]

/-- After the prune, a call is refused for capacity or draws from the bucket of its source. -/
theorem check_cases (ledger : Ledger) (call : Call) :
    (ledger.prune admission call.now).sources.buckets.lookup call.source = none ∧
        sourceCapacity ≤ (ledger.prune admission call.now).sources.buckets.entries.length ∧
        ledger.check admission call = (ledger.prune admission call.now).refuse call ∨
      ((ledger.prune admission call.now).sources.buckets.lookup call.source = none →
          (ledger.prune admission call.now).sources.buckets.entries.length < sourceCapacity) ∧
        ledger.check admission call = (ledger.prune admission call.now).draw admission call := by
  unfold Ledger.check RequestAdmission.checkSource
  rcases checkBucket_cases admission (admission.prune ledger.sources call.now)
    (call.peer.map canonical) call.now with ⟨habsent, hfull, hcheck⟩ | ⟨hroom, hcheck⟩
  · refine .inl ⟨habsent, hfull, ?_⟩
    rw [hcheck]
    rfl
  · refine .inr ⟨hroom, ?_⟩
    rw [hcheck]
    rfl

/-- A prune leaves the bucket of a source, or drops it when it has been idle for a minute and is
full again. -/
theorem lookup_prune_cases (sources : Sources) (now : ℕ) (source : Option IpAddr) :
    (admission.prune sources now).buckets.lookup source = sources.buckets.lookup source ∨
      ∃ bucket, sources.buckets.lookup source = some bucket ∧
        (admission.prune sources now).buckets.lookup source = none ∧
        bucket.updated + sourceTtl ≤ now ∧
        (admission.burst : ℚ) ≤
          bucket.tokens + ((now - bucket.updated : ℕ) : ℚ) * admission.rate := by
  unfold RequestAdmission.prune
  split
  · rcases hbefore : sources.buckets.lookup source with _ | bucket
    · left
      rw [Option.eq_none_iff_forall_ne_some]
      intro bucket hkept
      rw [Table.lookup_retain_eq_some] at hkept
      exact Option.some_ne_none bucket (hkept.1.symm.trans hbefore)
    · by_cases hkeeps : admission.keeps now bucket = true
      · exact .inl (Table.lookup_retain_eq_some.mpr ⟨hbefore, hkeeps⟩)
      · refine .inr ⟨bucket, rfl, ?_, ?_⟩
        · rw [Option.eq_none_iff_forall_ne_some]
          intro other hkept
          rw [Table.lookup_retain_eq_some, hbefore] at hkept
          exact hkeeps (Option.some.inj hkept.1 ▸ hkept.2)
        · simp only [RequestAdmission.keeps, Bool.or_eq_true, decide_eq_true_eq, not_or,
            not_lt, asSecs_mul_rps] at hkeeps
          have hpositive : 0 < sourceTtl := by decide
          exact ⟨by omega, hkeeps.2⟩
  · exact .inl rfl

/-- A prune leaves the instant up to which a bucket is credited, or moves it to its own. -/
theorem credited_prune_cases (ledger : Ledger) (now : ℕ) (source : Option IpAddr) :
    (ledger.prune admission now).sources.buckets.lookup source =
          ledger.sources.buckets.lookup source ∧
        (ledger.prune admission now).credited source = ledger.credited source ∨
      ∃ bucket, ledger.sources.buckets.lookup source = some bucket ∧
        (ledger.prune admission now).sources.buckets.lookup source = none ∧
        (ledger.prune admission now).credited source = now ∧ ledger.credited source ≤ now ∧
        (admission.burst : ℚ) ≤
          bucket.tokens + ((now - bucket.updated : ℕ) : ℚ) * admission.rate := by
  rcases lookup_prune_cases admission ledger.sources now source with
    hkept | ⟨bucket, hbefore, hafter, hidle, hfull⟩
  · refine .inl ⟨hkept, ?_⟩
    simp only [Ledger.credited, Ledger.prune, hkept]
    cases hbefore : ledger.sources.buckets.lookup source with
    | none => simp
    | some bucket => rfl
  · refine .inr ⟨bucket, hbefore, hafter, ?_, ?_, hfull⟩
    · simp [Ledger.credited, Ledger.prune, hbefore, hafter]
    · simp only [Ledger.credited, hbefore]
      omega

/-- A call that draws passes if it gets a token. -/
theorem passed_outcome (call : Call) (granted : Bool) :
    Entry.passed ⟨call, if granted then .ok () else .error .sourceRateLimitExceeded⟩ = granted := by
  cases granted with
  | false => rfl
  | true => rfl

/-- A call that is refused for capacity is not served. -/
theorem served_refuse (ledger : Ledger) (call : Call) (source : Option IpAddr) :
    (ledger.refuse call).served source = ledger.served source := by
  simp [Ledger.served, Ledger.refuse, Entry.served]

/-- A call that draws is served to its own source. -/
theorem served_draw_self (ledger : Ledger) (call : Call) :
    (ledger.draw admission call).served call.source = ledger.served call.source ++
      [⟨call, if (admission.draw (ledger.sources.buckets.lookup call.source) call.now).2 then .ok ()
        else .error .sourceRateLimitExceeded⟩] := by
  simp only [Ledger.served, Ledger.draw, List.filter_append]
  congr 1
  split <;> simp [Entry.served]

/-- Assumes: another source. A call that draws is not served to it. -/
theorem served_draw_other (ledger : Ledger) {call : Call} {source : Option IpAddr}
    (hother : source ≠ call.source) :
    (ledger.draw admission call).served source = ledger.served source := by
  simp [Ledger.served, Ledger.draw, hother.symm]

/-- The instants of the calls of the source of a call that draws. -/
theorem instants_draw_self (ledger : Ledger) (call : Call) :
    (ledger.draw admission call).instants call.source =
      ledger.instants call.source ++ [call.now] := by
  rw [Ledger.instants, served_draw_self, List.map_append]
  rfl

/-- The bucket from which a call draws. -/
theorem lookup_draw_self (ledger : Ledger) (call : Call) :
    (ledger.draw admission call).sources.buckets.lookup call.source =
      some (admission.draw (ledger.sources.buckets.lookup call.source) call.now).1 :=
  AList.lookup_insert _

/-- The bucket from which a call draws is credited up to the call. -/
theorem credited_draw_self (ledger : Ledger) (call : Call) :
    (ledger.draw admission call).credited call.source = call.now := by
  simp only [Ledger.credited, lookup_draw_self]
  exact TokenBucket.draw_updated

/-- Assumes: another source. A call that draws leaves its bucket. -/
theorem lookup_draw_other (ledger : Ledger) {call : Call} {source : Option IpAddr}
    (hother : source ≠ call.source) :
    (ledger.draw admission call).sources.buckets.lookup source =
      ledger.sources.buckets.lookup source :=
  AList.lookup_insert_ne hother

/-- Assumes: another source. A call that draws leaves the instant up to which it is credited. -/
theorem credited_draw_other (ledger : Ledger) {call : Call} {source : Option IpAddr}
    (hother : source ≠ call.source) :
    (ledger.draw admission call).credited source = ledger.credited source := by
  simp only [Ledger.credited, lookup_draw_other admission ledger hother]
  rfl

/-! ### The simulation -/

/-- The bucket of a source behaves from now on as one that was never dropped, every decision on its
calls was that of such a bucket, and its calls were in the order of their clock values. -/
structure Faithful (ledger : Ledger) (source : Option IpAddr) : Prop where
  agree : Agree (admission.burst : ℚ) admission.rate (ledger.credited source)
    (ledger.sources.buckets.lookup source) (ledger.reference admission source)
  decided : ledger.decisions source =
    TokenBucket.decisions (admission.burst : ℚ) admission.rate none (ledger.instants source)
  ordered : (ledger.instants source).Pairwise (· ≤ ·)
  past : ∀ instant ∈ ledger.instants source, instant ≤ ledger.credited source

variable {admission} {ledger : Ledger} {source : Option IpAddr}

theorem Faithful.start (created : ℕ) : Faithful admission (Ledger.start created) source where
  agree := Agree.refl _ _
  decided := rfl
  ordered := List.Pairwise.nil
  past := fun _ hinstant ↦ absurd hinstant List.not_mem_nil

/-- A prune cannot be observed. -/
theorem Faithful.prune (h : Faithful admission ledger source) (now : ℕ) :
    Faithful admission (ledger.prune admission now) source := by
  rcases credited_prune_cases admission ledger now source with
    ⟨hlookup, hcredited⟩ | ⟨bucket, hbefore, hafter, hcredited, hearlier, hfull⟩
  · refine ⟨?_, h.decided, h.ordered, ?_⟩
    · rw [hlookup, hcredited]
      exact h.agree
    · rw [hcredited]
      exact h.past
  · refine ⟨?_, h.decided, h.ordered, ?_⟩
    · rw [hafter, hcredited]
      have hagree := h.agree.later hearlier
      rw [hbefore] at hagree
      exact (TokenBucket.agree_none admission.rate_nonneg hfull).trans hagree
    · intro instant hinstant
      rw [hcredited]
      exact (h.past instant hinstant).trans hearlier

/-- A refusal for capacity cannot be observed by the calls that are served. -/
theorem Faithful.refuse (h : Faithful admission ledger source) (call : Call) :
    Faithful admission (ledger.refuse call) source := by
  have hserved := served_refuse ledger call source
  refine ⟨?_, ?_, ?_, ?_⟩
  · simp only [Ledger.reference, Ledger.instants, hserved]
    exact h.agree
  · simp only [Ledger.decisions, Ledger.instants, hserved]
    exact h.decided
  · simp only [Ledger.instants, hserved]
    exact h.ordered
  · simp only [Ledger.instants, hserved]
    exact h.past

/-- Assumes: a call whose clock value is not before the instant up to which its bucket is credited.
It draws as it would from a bucket that was never dropped. -/
theorem Faithful.draw (h : Faithful admission ledger source) {call : Call}
    (hnow : ledger.credited call.source ≤ call.now) :
    Faithful admission (ledger.draw admission call) source := by
  by_cases hsource : source = call.source
  · subst hsource
    have hinstants := instants_draw_self admission ledger call
    have hdraw : admission.draw (ledger.sources.buckets.lookup call.source) call.now =
        admission.draw (ledger.reference admission call.source) call.now := h.agree.draw_eq hnow
    have hpast : ∀ instant ∈ ledger.instants call.source, instant ≤ call.now :=
      fun instant hinstant ↦ (h.past instant hinstant).trans hnow
    refine ⟨?_, ?_, ?_, ?_⟩
    · rw [lookup_draw_self, Ledger.reference, hinstants, TokenBucket.after_concat, hdraw]
      exact Agree.refl _ _
    · rw [Ledger.decisions, served_draw_self, List.map_append, hinstants,
        TokenBucket.decisions_concat, ← h.decided, hdraw, List.map_singleton, passed_outcome]
      rfl
    · rw [hinstants, List.pairwise_append]
      refine ⟨h.ordered, List.pairwise_singleton _ _, fun instant hinstant last hlast ↦ ?_⟩
      rw [List.mem_singleton.mp hlast]
      exact hpast instant hinstant
    · intro instant hinstant
      rw [credited_draw_self]
      rw [hinstants] at hinstant
      rcases List.mem_append.mp hinstant with hearlier | hlast
      · exact hpast instant hearlier
      · exact (List.mem_singleton.mp hlast).le
  · have hserved := served_draw_other admission ledger hsource
    have hcredited := credited_draw_other admission ledger hsource
    refine ⟨?_, ?_, ?_, ?_⟩
    · rw [lookup_draw_other admission ledger hsource, hcredited]
      simp only [Ledger.reference, Ledger.instants, hserved]
      exact h.agree
    · simp only [Ledger.decisions, Ledger.instants, hserved]
      exact h.decided
    · simp only [Ledger.instants, hserved]
      exact h.ordered
    · rw [hcredited]
      simp only [Ledger.instants, hserved]
      exact h.past

/-- Assumes: an instant not before the one up to which a bucket is credited. A prune at it keeps
that so. -/
theorem credited_prune_le {now : ℕ} (hnow : ledger.credited source ≤ now) :
    (ledger.prune admission now).credited source ≤ now := by
  rcases credited_prune_cases admission ledger now source with
    ⟨-, hcredited⟩ | ⟨-, -, -, hcredited, -, -⟩
  · exact hcredited.trans_le hnow
  · exact hcredited.le

/-- Assumes: a call whose clock value is not before the instant up to which its bucket is credited.
Checking it keeps the simulation. -/
theorem Faithful.check (h : Faithful admission ledger source) {call : Call}
    (hnow : ledger.credited call.source ≤ call.now) :
    Faithful admission (ledger.check admission call) source := by
  rcases check_cases admission ledger call with ⟨-, -, hcheck⟩ | ⟨-, hcheck⟩
  · rw [hcheck]
    exact (h.prune call.now).refuse call
  · rw [hcheck]
    exact (h.prune call.now).draw (credited_prune_le hnow)

/-! ### Runs in the order of the clock -/

/-- Assumes: calls in the order of their clock values, the latest of which is given. Every bucket
stands for a call, and is in the map because it was used within a minute of the last prune or was
not full again at it. -/
structure Settled (admission : RequestAdmission) (ledger : Ledger) (latest : ℕ) : Prop where
  faithful : ∀ source, Faithful admission ledger source
  credited : ∀ source, ledger.credited source ≤ latest
  pruned : ledger.sources.lastPrune ≤ latest
  bounded : ledger.sources.buckets.entries.length ≤ sourceCapacity
  seen : ∀ source bucket, ledger.sources.buckets.lookup source = some bucket →
    bucket.updated ∈ ledger.instants source
  recent : ∀ source bucket, ledger.sources.buckets.lookup source = some bucket →
    ledger.sources.lastPrune < bucket.updated + sourceTtl ∨
      bucket.tokens + asSecs (ledger.sources.lastPrune - bucket.updated) * admission.rps <
        admission.burst

theorem Settled.start (created : ℕ) : Settled admission (Ledger.start created) created where
  faithful := fun _ ↦ Faithful.start created
  credited := fun _ ↦ Nat.zero_le _
  pruned := le_rfl
  bounded := Nat.zero_le _
  seen := fun _ _ hlookup ↦ absurd hlookup (by simp [Ledger.start])
  recent := fun _ _ hlookup ↦ absurd hlookup (by simp [Ledger.start])

variable {latest now : ℕ}

theorem Settled.later (h : Settled admission ledger latest) (hnow : latest ≤ now) :
    Settled admission ledger now :=
  ⟨h.faithful, fun source ↦ (h.credited source).trans hnow, h.pruned.trans hnow, h.bounded, h.seen,
    h.recent⟩

/-- A prune keeps the ledger settled. -/
theorem Settled.prune (h : Settled admission ledger now) :
    Settled admission (ledger.prune admission now) now := by
  have hkept : ∀ {source bucket},
      (ledger.prune admission now).sources.buckets.lookup source = some bucket →
        ledger.sources.buckets.lookup source = some bucket := by
    intro source bucket hlookup
    rcases credited_prune_cases admission ledger now source with ⟨hsame, -⟩ | ⟨-, -, hgone, -⟩
    · rw [← hsame]
      exact hlookup
    · rw [hgone] at hlookup
      cases hlookup
  refine ⟨fun source ↦ (h.faithful source).prune now, fun source ↦ credited_prune_le (h.credited _),
    ?_, ?_, fun source bucket hlookup ↦ h.seen source bucket (hkept hlookup), ?_⟩
  · simp only [Ledger.prune, RequestAdmission.prune]
    split
    · exact le_rfl
    · exact h.pruned
  · simp only [Ledger.prune, RequestAdmission.prune]
    split
    · exact (List.length_filter_le _ _).trans h.bounded
    · exact h.bounded
  · intro source bucket hlookup
    have hbefore := h.recent source bucket (hkept hlookup)
    simp only [Ledger.prune, RequestAdmission.prune] at hlookup ⊢
    split
    · rename_i hdue
      rw [if_pos hdue, Table.lookup_retain_eq_some] at hlookup
      have hkeeps := hlookup.2
      simp only [RequestAdmission.keeps, Bool.or_eq_true, decide_eq_true_eq] at hkeeps
      rcases hkeeps with hidle | hlow
      · left
        dsimp only
        omega
      · exact .inr hlow
    · exact hbefore

/-- A call at the latest instant keeps the ledger settled. -/
theorem Settled.check (h : Settled admission ledger now) {call : Call} (hnow : call.now = now) :
    Settled admission (ledger.check admission call) now := by
  subst hnow
  have hpruned := h.prune
  have hfaithful : ∀ source, Faithful admission (ledger.check admission call) source :=
    fun source ↦ (h.faithful source).check (h.credited _)
  rcases check_cases admission ledger call with ⟨-, -, hcheck⟩ | ⟨hroom, hcheck⟩
  · rw [hcheck] at hfaithful ⊢
    refine ⟨hfaithful, hpruned.credited, hpruned.pruned, hpruned.bounded, ?_, hpruned.recent⟩
    intro source bucket hlookup
    rw [Ledger.instants, served_refuse]
    exact hpruned.seen source bucket hlookup
  · rw [hcheck] at hfaithful ⊢
    refine ⟨hfaithful, ?_, hpruned.pruned, ?_, ?_, ?_⟩
    · intro source
      by_cases hsource : source = call.source
      · rw [hsource, credited_draw_self]
      · rw [credited_draw_other _ _ hsource]
        exact hpruned.credited source
    · by_cases habsent :
          (ledger.prune admission call.now).sources.buckets.lookup call.source = none
      · exact (Table.length_insert_le _ _ _).trans (hroom habsent)
      · have hpresent := AList.lookup_isSome.mp (Option.isSome_iff_ne_none.mpr habsent)
        exact (Table.length_insert_of_mem hpresent _).trans_le hpruned.bounded
    · intro source bucket hlookup
      by_cases hsource : source = call.source
      · subst hsource
        rw [lookup_draw_self] at hlookup
        rw [instants_draw_self, ← Option.some.inj hlookup]
        exact List.mem_append_right _ (List.mem_singleton.mpr TokenBucket.draw_updated)
      · rw [lookup_draw_other _ _ hsource] at hlookup
        rw [Ledger.instants, served_draw_other _ _ hsource]
        exact hpruned.seen source bucket hlookup
    · intro source bucket hlookup
      by_cases hsource : source = call.source
      · subst hsource
        rw [lookup_draw_self] at hlookup
        have hupdated : bucket.updated = call.now := by
          rw [← Option.some.inj hlookup]
          exact TokenBucket.draw_updated
        rw [hupdated]
        exact .inl (hpruned.pruned.trans_lt (Nat.lt_add_of_pos_right (by decide)))
      · rw [lookup_draw_other _ _ hsource] at hlookup
        exact hpruned.recent source bucket hlookup

/-- Assumes: a settled ledger and calls in the order of their clock values. The run is settled at
the last of them. -/
theorem run_settled (calls : List Call) : ∀ ledger latest, Settled admission ledger latest →
    (latest :: calls.map Call.now).Pairwise (· ≤ ·) →
      ∃ last ∈ latest :: calls.map Call.now,
        Settled admission (run (Ledger.check admission) ledger calls) last := by
  induction calls with
  | nil =>
    intro ledger latest h _
    exact ⟨latest, List.mem_singleton_self latest, h⟩
  | cons call rest ih =>
    intro ledger latest h horder
    obtain ⟨hlater, hrest⟩ := List.pairwise_cons.mp horder
    have hstep := (h.later (hlater call.now List.mem_cons_self)).check rfl
    obtain ⟨last, hlast, hsettled⟩ := ih _ _ hstep hrest
    exact ⟨last, List.mem_cons_of_mem _ hlast, hsettled⟩

/-- After the prune of a check, the last prune is less than a second ago. -/
theorem lastPrune_prune (admission : RequestAdmission) (sources : Sources) (now : ℕ) :
    now < (admission.prune sources now).lastPrune + second := by
  unfold RequestAdmission.prune
  split
  · exact Nat.lt_add_of_pos_right (by decide)
  · rename_i hrecent
    omega

/-- Assumes: a settled ledger, and a call that is refused for capacity. Other sources fill the map,
and each was seen within the last 61 seconds or was not full again at the last prune. -/
theorem Settled.refused (h : Settled admission ledger now) {call : Call} (hnow : call.now = now)
    (hrefused : (admission.checkSource ledger.sources call.peer call.now).2 =
      .error .authenticationOverloaded) :
    ∃ others : Finset (Option IpAddr), others.card = sourceCapacity ∧ call.source ∉ others ∧
      ∀ other ∈ others,
        (∃ entry ∈ ledger.served other, call.now < entry.call.now + sourceTtl + second) ∨
          ∃ bucket, (admission.prune ledger.sources call.now).buckets.lookup other = some bucket ∧
            bucket.tokens + asSecs ((admission.prune ledger.sources call.now).lastPrune -
              bucket.updated) * admission.rps < admission.burst := by
  subst hnow
  have hpruned := h.prune
  have hcheck := checkBucket_cases admission (admission.prune ledger.sources call.now)
    (call.peer.map canonical) call.now
  rcases hcheck with ⟨habsent, hfull, -⟩ | ⟨-, hdrawn⟩
  · refine ⟨(admission.prune ledger.sources call.now).buckets.keys.toFinset, ?_, ?_, ?_⟩
    · rw [List.toFinset_card_of_nodup (AList.keys_nodup _), AList.keys, List.keys,
        List.length_map]
      exact le_antisymm hpruned.bounded hfull
    · rw [List.mem_toFinset]
      exact AList.lookup_eq_none.mp habsent
    · intro other hother
      rw [List.mem_toFinset] at hother
      obtain ⟨bucket, hlookup⟩ := Option.isSome_iff_exists.mp (AList.lookup_isSome.mpr hother)
      have hrecent := lastPrune_prune admission ledger.sources call.now
      rcases hpruned.recent other bucket hlookup with hidle | hlow
      · obtain ⟨entry, hentry, hinstant⟩ := List.mem_map.mp (hpruned.seen other bucket hlookup)
        refine .inl ⟨entry, hentry, ?_⟩
        rw [hinstant]
        exact hrecent.trans_le (Nat.add_le_add_right hidle.le second)
      · exact .inr ⟨bucket, hlookup, hlow⟩
  · rw [RequestAdmission.checkSource, hdrawn] at hrefused
    split at hrefused
    · cases hrefused
    · cases hrefused

/-- The log records every call of a run, in order. -/
theorem log_run (calls : List Call) (ledger : Ledger) :
    (run (Ledger.check admission) ledger calls).log.map Entry.call =
      ledger.log.map Entry.call ++ calls := by
  induction calls generalizing ledger with
  | nil => exact (List.append_nil _).symm
  | cons call rest ih =>
    rw [run_cons, ih, Ledger.check, List.map_append, List.append_assoc]
    rfl

/-- Assumes: checks in the order of their clock values, none before the admission was created. Every
call that is not refused for capacity is decided as by a bucket of its source that is never dropped;
the map keeps within its capacity; and the next call is refused for capacity only when other sources
fill the map, each seen within the last minute, up to the second between two prunes, or with a
bucket that was not full again at the last prune. -/
theorem pruning_unobservable (admission : RequestAdmission) (created : ℕ) (calls : List Call)
    (horder : (created :: calls.map Call.now).Pairwise (· ≤ ·)) :
    let ledger := run (Ledger.check admission) (Ledger.start created) calls
    ledger.log.map Entry.call = calls ∧
      (∀ source, ledger.decisions source =
        TokenBucket.decisions (admission.burst : ℚ) admission.rate none
          (ledger.instants source)) ∧
      ledger.sources.buckets.entries.length ≤ sourceCapacity ∧
      ∀ call : Call, (∀ earlier ∈ created :: calls.map Call.now, earlier ≤ call.now) →
        (admission.checkSource ledger.sources call.peer call.now).2 =
          .error .authenticationOverloaded →
        ∃ others : Finset (Option IpAddr), others.card = sourceCapacity ∧ call.source ∉ others ∧
          ∀ other ∈ others,
            (∃ entry ∈ ledger.served other, call.now < entry.call.now + sourceTtl + second) ∨
              ∃ bucket,
                (admission.prune ledger.sources call.now).buckets.lookup other = some bucket ∧
                  bucket.tokens + asSecs ((admission.prune ledger.sources call.now).lastPrune -
                    bucket.updated) * admission.rps < admission.burst := by
  intro ledger
  obtain ⟨last, hlast, hsettled⟩ := run_settled calls _ created (Settled.start created) horder
  refine ⟨log_run calls _, fun source ↦ (hsettled.faithful source).decided, hsettled.bounded, ?_⟩
  intro call hlater hrefused
  exact (hsettled.later (hlater last hlast)).refused rfl hrefused

/-- A source that uses its only token and is dropped a minute later. -/
theorem pruning_unobservable_dropped :
    let admission : RequestAdmission := ⟨1, 1, by decide, by decide⟩
    let calls : List Call := [⟨none, 0⟩, ⟨some (.v4 1), 60 * second⟩, ⟨none, 61 * second⟩]
    let ledger := run (Ledger.check admission) (Ledger.start 0) calls
    ledger.decisions none = TokenBucket.decisions (admission.burst : ℚ) admission.rate none
      (ledger.instants none) :=
  (pruning_unobservable ⟨1, 1, by decide, by decide⟩ 0
    [⟨none, 0⟩, ⟨some (.v4 1), 60 * second⟩, ⟨none, 61 * second⟩] (by decide)).2.1 none

end Relayna.Auth.SourceAdmission

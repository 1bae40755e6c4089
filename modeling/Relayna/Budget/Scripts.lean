import Mathlib.Algebra.Order.Ring.Rat
import Mathlib.Logic.Function.Basic
import Relayna.Common

/-!
# The Redis budget scripts

`crates/gateway-store/src/redis.rs` keeps four counters and one record for every admitted request:
committed spend and `:reserved` spend of a UTC day and of a UTC month, and the reservation record
that remembers the amount and the two counter keys chosen at admission. Each Lua script is one
atomic step over the key-value store. This module transcribes the scripts and the `BudgetStore`
methods around them.

Amounts are exact rationals and keys do not expire. The key families of `budgets.rs` start with
different words, so a key is a constructor of `RedisKey` and not a string; a stored value is what
the scripts can tell apart about it (`RedisValue`). Every `redis.error_reply` of these scripts is
reached before the first write, so a failed script has no effect and the model returns no store for
it. The methods answer every failure with `ControlStateUnavailable`; the model keeps which failure
it was (`Failure`).

A replica caches the accounting epoch the first time it arms itself (`OnceLock`), and every later
script of that replica compares it with the stored one. `Gateway` is the store together with what
each replica has cached, and `perform` is one call by one replica.
-/

set_option autoImplicit false
set_option relaxedAutoImplicit false

namespace Relayna.Budget.Scripts

/-! ### Keys and values -/

/-- The UTC date of an instant, which is all that the budget keys read of it. -/
structure Date where
  year : ℤ
  month : ℕ
  day : ℕ
  deriving DecidableEq

/-- The key of a committed counter: `budget:daily:{key_id}:{%Y%m%d}` or
`budget:monthly:{key_id}:{%Y%m}`. -/
inductive CounterKey
  | daily (keyId : Uuid) (year : ℤ) (month day : ℕ)
  | monthly (keyId : Uuid) (year : ℤ) (month : ℕ)
  deriving DecidableEq

/-- The key of the daily counter of a virtual key at an instant. -/
def dailyBudgetKey (keyId : Uuid) (now : Date) : CounterKey :=
  .daily keyId now.year now.month now.day

/-- The key of the monthly counter of a virtual key at an instant. -/
def monthlyBudgetKey (keyId : Uuid) (now : Date) : CounterKey :=
  .monthly keyId now.year now.month

@[simp] theorem dailyBudgetKey_ne_monthlyBudgetKey (keyId keyId' : Uuid) (now now' : Date) :
    dailyBudgetKey keyId now ≠ monthlyBudgetKey keyId' now' :=
  CounterKey.noConfusion

@[simp] theorem monthlyBudgetKey_ne_dailyBudgetKey (keyId keyId' : Uuid) (now now' : Date) :
    monthlyBudgetKey keyId now ≠ dailyBudgetKey keyId' now' :=
  CounterKey.noConfusion

/-- A Redis key of the budget state. `reserved` is the counter key followed by `:reserved`, and
`accountingEpoch` is `BUDGET_EPOCH_KEY`. -/
inductive RedisKey
  | accountingEpoch
  | committed (counter : CounterKey)
  | reserved (counter : CounterKey)
  | reservation (keyId : Uuid) (reservationId : String)
  deriving DecidableEq

/-- A reservation value `amount|daily|monthly|version`. -/
structure ReservationRecord where
  amount : ℚ
  daily : CounterKey
  monthly : CounterKey
  version : String
  deriving DecidableEq

/-- A stored value, as the scripts tell values apart: one that `tonumber` reads, one that the
reservation pattern of the finalize script matches, or any other text. -/
inductive RedisValue
  | number (amount : ℚ)
  | record (reservation : ReservationRecord)
  | text (content : String)
  deriving DecidableEq

/-- The key-value store. -/
abbrev Store := RedisKey → Option RedisValue

def Store.set (store : Store) (key : RedisKey) (value : RedisValue) : Store :=
  Function.update store key (some value)

def Store.del (store : Store) (key : RedisKey) : Store :=
  Function.update store key none

@[simp] theorem Store.set_self (store : Store) (key : RedisKey) (value : RedisValue) :
    store.set key value key = some value :=
  Function.update_self ..

@[simp] theorem Store.del_self (store : Store) (key : RedisKey) : store.del key key = none :=
  Function.update_self ..

theorem Store.set_of_ne {store : Store} {key key' : RedisKey} (value : RedisValue)
    (hne : key' ≠ key) : store.set key value key' = store key' :=
  Function.update_of_ne hne ..

theorem Store.del_of_ne {store : Store} {key key' : RedisKey} (hne : key' ≠ key) :
    store.del key key' = store key' :=
  Function.update_of_ne hne ..

/-- `tonumber(redis.call('GET', key) or default)`: the default for an absent key, `nil` for a value
that is not a number. `or '0'` gives `some 0` and `or ''` gives `none`. -/
def numberOr (absent : Option ℚ) : Option RedisValue → Option ℚ
  | none => absent
  | some (.number amount) => some amount
  | some (.record _) => none
  | some (.text _) => none

/-- `INCRBYFLOAT`, which the scripts only reach on a key they have read as a number. -/
def Store.incrByFloat (store : Store) (key : RedisKey) (amount : ℚ) : Store :=
  store.set key (.number ((numberOr (some 0) (store key)).getD 0 + amount))

/-! ### The scripts -/

inductive ScriptError
  | budgetRecoveryRequired
  | invalidBudgetState
  | duplicateReservation
  | budgetRequiresRehydration
  | invalidOrLegacyReservation
  | missingBudgetState
  | missingReservationState
  deriving DecidableEq

/-- The text of an error reply. -/
def ScriptError.message : ScriptError → String
  | .budgetRecoveryRequired => "budget recovery required"
  | .invalidBudgetState => "invalid budget state"
  | .duplicateReservation => "duplicate reservation"
  | .budgetRequiresRehydration => "budget requires rehydration"
  | .invalidOrLegacyReservation => "invalid or legacy reservation; drain before upgrade"
  | .missingBudgetState => "missing budget state"
  | .missingReservationState => "missing reservation state"

/-- The spend a budget decision was taken on. -/
structure BudgetState where
  dailySpendUsd : ℚ
  monthlySpendUsd : ℚ
  deriving DecidableEq

/-- The answer of an admission. -/
inductive BudgetDecision
  | allowed (state : BudgetState)
  | exceeded (state : BudgetState)
  deriving DecidableEq

/-- The script of `budget_epoch`: `SET key candidate NX`, then `GET key`. -/
def epochScript (candidate : String) (store : Store) : Option String × Store :=
  match store .accountingEpoch with
  | none => (some candidate, store.set .accountingEpoch (.text candidate))
  | some (.text epoch) => (some epoch, store)
  | some _ => (none, store)

/-- The script of `seed_budget_counters`. -/
def seedScript (daily monthly : CounterKey) (dailySpend monthlySpend : ℚ) (epoch : String)
    (store : Store) : Except ScriptError Store :=
  if store .accountingEpoch ≠ some (.text epoch) then .error .budgetRecoveryRequired
  else
    match numberOr (some 0) (store (.committed daily)),
      numberOr (some 0) (store (.committed monthly)) with
    | some currentDaily, some currentMonthly =>
      if currentDaily < 0 ∨ currentMonthly < 0 then .error .invalidBudgetState
      else
        .ok ((store.set (.committed daily) (.number (max currentDaily dailySpend))).set
          (.committed monthly) (.number (max currentMonthly monthlySpend)))
    | _, _ => .error .invalidBudgetState

/-- The script of `finalize_reservation`. It answers `0` when the reservation is absent and `1` when
it has been finalized; the counters are those the record names, whatever the date is now. -/
def finalizeScript (keyId : Uuid) (reservationId : String) (actual : ℚ) (epoch : String)
    (store : Store) : Except ScriptError (ℕ × Store) :=
  if store .accountingEpoch ≠ some (.text epoch) then .error .budgetRecoveryRequired
  else
    match store (.reservation keyId reservationId) with
    | none => .ok (0, store)
    | some (.record ⟨amount, daily, monthly, version⟩) =>
      if amount < 0 ∨ version ≠ "v2" then .error .invalidOrLegacyReservation
      else
        match numberOr none (store (.committed daily)),
          numberOr none (store (.committed monthly)) with
        | some committedDaily, some committedMonthly =>
          if committedDaily < 0 ∨ committedMonthly < 0 then .error .missingBudgetState
          else
            match numberOr none (store (.reserved daily)),
              numberOr none (store (.reserved monthly)) with
            | some reservedDaily, some reservedMonthly =>
              if reservedDaily + 1 / 1000000000 < amount ∨
                  reservedMonthly + 1 / 1000000000 < amount then
                .error .missingReservationState
              else
                .ok (1, ((((store.set (.reserved daily)
                  (.number (max 0 (reservedDaily - amount)))).set
                  (.reserved monthly) (.number (max 0 (reservedMonthly - amount)))).incrByFloat
                    (.committed daily) actual).incrByFloat (.committed monthly) actual).del
                      (.reservation keyId reservationId))
            | _, _ => .error .missingReservationState
        | _, _ => .error .missingBudgetState
    | some _ => .error .invalidOrLegacyReservation

/-- The script of `add_budget_spend`. -/
def addSpendScript (daily monthly : CounterKey) (cost : ℚ) (epoch : String) (store : Store) :
    Except ScriptError Store :=
  if store .accountingEpoch ≠ some (.text epoch) then .error .budgetRecoveryRequired
  else
    match numberOr (some 0) (store (.committed daily)),
      numberOr (some 0) (store (.committed monthly)) with
    | some currentDaily, some currentMonthly =>
      if currentDaily < 0 ∨ currentMonthly < 0 then .error .invalidBudgetState
      else .ok ((store.incrByFloat (.committed daily) cost).incrByFloat (.committed monthly) cost)
    | _, _ => .error .invalidBudgetState

/-- The refusal test of the admit script for one period: `limit` is absent, or the spend has reached
it, or the amount would exceed it. -/
def overLimit (limit : Option ℚ) (spend amount : ℚ) : Bool :=
  match limit with
  | none => false
  | some limit => decide (limit ≤ spend ∨ limit < spend + amount)

/-- The script of `admit_budget`. -/
def admitScript (keyId : Uuid) (reservationId : String) (daily monthly : CounterKey) (amount : ℚ)
    (dailyLimit monthlyLimit : Option ℚ) (epoch : String) (store : Store) :
    Except ScriptError (BudgetDecision × Store) :=
  if store .accountingEpoch ≠ some (.text epoch) then .error .budgetRecoveryRequired
  else if (store (.reservation keyId reservationId)).isSome then .error .duplicateReservation
  else if (dailyLimit.isSome ∨ monthlyLimit.isSome) ∧
      ((store (.committed daily)).isNone ∨ (store (.committed monthly)).isNone) then
    .error .budgetRequiresRehydration
  else
    match numberOr (some 0) (store (.committed daily)),
      numberOr (some 0) (store (.committed monthly)),
      numberOr (some 0) (store (.reserved daily)),
      numberOr (some 0) (store (.reserved monthly)) with
    | some committedDaily, some committedMonthly, some reservedDaily, some reservedMonthly =>
      if committedDaily < 0 ∨ committedMonthly < 0 ∨ reservedDaily < 0 ∨ reservedMonthly < 0 then
        .error .invalidBudgetState
      else if overLimit dailyLimit (committedDaily + reservedDaily) amount ∨
          overLimit monthlyLimit (committedMonthly + reservedMonthly) amount then
        .ok (.exceeded ⟨committedDaily + reservedDaily, committedMonthly + reservedMonthly⟩, store)
      else
        .ok (.allowed ⟨committedDaily + reservedDaily + amount,
            committedMonthly + reservedMonthly + amount⟩,
          ((((store.set (.reservation keyId reservationId)
            (.record ⟨amount, daily, monthly, "v2"⟩)).set
              (.committed daily) (.number committedDaily)).set
              (.committed monthly) (.number committedMonthly)).incrByFloat
              (.reserved daily) amount).incrByFloat (.reserved monthly) amount)
    | _, _, _, _ => .error .invalidBudgetState

/-! ### The methods -/

/-- Why a method failed. Its caller sees `ControlStateUnavailable` in every case: the arguments were
refused before the script, the replica has no epoch, or the script answered with an error. -/
inductive Failure
  | invalidArgument
  | notArmed
  | script (error : ScriptError)
  deriving DecidableEq

/-- What a method returns. -/
inductive Answer
  | done
  | finalized (count : ℕ)
  | decision (decision : BudgetDecision)
  deriving DecidableEq

abbrev Reply := Except Failure Answer

/-- The shared store and the epoch each replica has cached. -/
structure Gateway where
  store : Store
  epochs : ℕ → Option String

/-- An empty store and replicas that are not armed. -/
def Gateway.initial : Gateway where
  store := fun _ ↦ none
  epochs := fun _ ↦ none

/-- One call of one gateway replica. `arm` is the script of `budget_epoch` with a fresh candidate;
the other constructors are the `BudgetStore` methods that write. -/
inductive Call
  | arm (replica : ℕ) (candidate : String)
  | seed (replica : ℕ) (keyId : Uuid) (dailySpend monthlySpend : ℚ) (now : Date)
  | admitBudget (replica : ℕ) (keyId : Uuid) (reservationId : String) (amount : ℚ)
      (dailyLimit monthlyLimit : Option ℚ) (now : Date)
  | finalize (replica : ℕ) (keyId : Uuid) (reservationId : String) (actual : ℚ) (now : Date)
  | release (replica : ℕ) (keyId : Uuid) (reservationId : String) (now : Date)
  | addSpend (replica : ℕ) (keyId : Uuid) (cost : ℚ) (now : Date)
  deriving DecidableEq

/-- `budget_epoch` of a replica without an epoch: run the script and cache what it returned. A
replica that has one keeps it. -/
def Gateway.arm (gateway : Gateway) (replica : ℕ) (candidate : String) : Reply × Gateway :=
  match gateway.epochs replica with
  | some _ => (.ok .done, gateway)
  | none =>
    let (epoch, store) := epochScript candidate gateway.store
    (.ok .done, ⟨store, Function.update gateway.epochs replica epoch⟩)

/-- Run a script with the epoch of a replica. -/
def Gateway.invoke (gateway : Gateway) (replica : ℕ)
    (script : String → Store → Except ScriptError (Answer × Store)) : Reply × Gateway :=
  match gateway.epochs replica with
  | none => (.error .notArmed, gateway)
  | some epoch =>
    match script epoch gateway.store with
    | .error error => (.error (.script error), gateway)
    | .ok (answer, store) => (.ok answer, { gateway with store := store })

/-- `seed_budget_counters`: negative spend is raised to zero. -/
def Gateway.seedBudgetCounters (gateway : Gateway) (replica : ℕ) (keyId : Uuid)
    (dailySpend monthlySpend : ℚ) (now : Date) : Reply × Gateway :=
  gateway.invoke replica fun epoch store ↦
    (seedScript (dailyBudgetKey keyId now) (monthlyBudgetKey keyId now) (max dailySpend 0)
      (max monthlySpend 0) epoch store).map fun store' ↦ (.done, store')

/-- `finalize_reservation`, which `reconcile_budget_reservation` calls with the actual cost and
`release_budget_reservation` with zero. A negative cost is refused. -/
def Gateway.finalizeReservation (gateway : Gateway) (replica : ℕ) (keyId : Uuid)
    (reservationId : String) (actual : ℚ) : Reply × Gateway :=
  if actual < 0 then (.error .invalidArgument, gateway)
  else
    gateway.invoke replica fun epoch store ↦
      (finalizeScript keyId reservationId actual epoch store).map fun result ↦
        (.finalized result.1, result.2)

/-- `add_budget_spend`: a cost that is not positive is ignored. -/
def Gateway.addBudgetSpend (gateway : Gateway) (replica : ℕ) (keyId : Uuid) (cost : ℚ)
    (now : Date) : Reply × Gateway :=
  if cost ≤ 0 then (.ok .done, gateway)
  else
    gateway.invoke replica fun epoch store ↦
      (addSpendScript (dailyBudgetKey keyId now) (monthlyBudgetKey keyId now) cost epoch store).map
        fun store' ↦ (.done, store')

/-- `admit_budget`: a negative amount or limit is refused. -/
def Gateway.admitBudget (gateway : Gateway) (replica : ℕ) (keyId : Uuid) (reservationId : String)
    (amount : ℚ) (dailyLimit monthlyLimit : Option ℚ) (now : Date) : Reply × Gateway :=
  if amount < 0 ∨ dailyLimit.any (· < 0) ∨ monthlyLimit.any (· < 0) then
    (.error .invalidArgument, gateway)
  else
    gateway.invoke replica fun epoch store ↦
      (admitScript keyId reservationId (dailyBudgetKey keyId now) (monthlyBudgetKey keyId now)
        amount dailyLimit monthlyLimit epoch store).map fun result ↦ (.decision result.1, result.2)

def perform (gateway : Gateway) : Call → Reply × Gateway
  | .arm replica candidate => gateway.arm replica candidate
  | .seed replica keyId dailySpend monthlySpend now =>
    gateway.seedBudgetCounters replica keyId dailySpend monthlySpend now
  | .admitBudget replica keyId reservationId amount dailyLimit monthlyLimit now =>
    gateway.admitBudget replica keyId reservationId amount dailyLimit monthlyLimit now
  | .finalize replica keyId reservationId actual _ =>
    gateway.finalizeReservation replica keyId reservationId actual
  | .release replica keyId reservationId _ =>
    gateway.finalizeReservation replica keyId reservationId 0
  | .addSpend replica keyId cost now => gateway.addBudgetSpend replica keyId cost now

end Relayna.Budget.Scripts

import Mathlib.Algebra.Order.Ring.Int
import Mathlib.Data.Prod.Lex
import Mathlib.Data.Rat.Floor
import Relayna.Budget.Scripts
import Relayna.Pricing.Services

/-!
# The ledger of usage events

`crates/gateway-store/src/postgres.rs`: the table `usage_events` and its insert. A cost is a column
`numeric(20, 8)`, here the number of its units of 10⁻⁸. The id of a row is drawn by the insert, and
`ingestion_xid` is the transaction that inserted it, which is absent in rows older than that column.
-/

set_option autoImplicit false
set_option relaxedAutoImplicit false

namespace Relayna.Usage

open Relayna.Pricing
open Relayna.Budget.Scripts (Date)

/-! ### Instants -/

/-- An instant in UTC: its date and the nanoseconds of the day. -/
structure DateTime where
  date : Date
  nanos : ℕ
  deriving DecidableEq

/-- Instants are ordered by year, month, day and time of day. -/
def DateTime.key (instant : DateTime) : ℤ ×ₗ ℕ ×ₗ ℕ ×ₗ ℕ :=
  toLex (instant.date.year, toLex (instant.date.month, toLex (instant.date.day, instant.nanos)))

theorem DateTime.key_injective : Function.Injective DateTime.key := by
  rintro ⟨⟨year, month, day⟩, nanos⟩ ⟨⟨year', month', day'⟩, nanos'⟩ hkey
  simp only [key, EmbeddingLike.apply_eq_iff_eq, Prod.mk.injEq] at hkey
  obtain ⟨rfl, rfl, rfl, rfl⟩ := hkey
  rfl

instance : LinearOrder DateTime :=
  LinearOrder.lift' DateTime.key DateTime.key_injective

theorem DateTime.le_iff (first second : DateTime) : first ≤ second ↔
    first.date.year < second.date.year ∨ first.date.year = second.date.year ∧
      (first.date.month < second.date.month ∨ first.date.month = second.date.month ∧
        (first.date.day < second.date.day ∨ first.date.day = second.date.day ∧
          first.nanos ≤ second.nanos)) := by
  change first.key ≤ second.key ↔ _
  simp only [DateTime.key, Prod.Lex.toLex_le_toLex]

/-- The start of the day in `budget_counter_windows`. -/
def dayStart (now : DateTime) : DateTime :=
  ⟨now.date, 0⟩

/-- The start of the month in `budget_counter_windows`. -/
def monthStart (now : DateTime) : DateTime :=
  ⟨{ now.date with day := 1 }, 0⟩

/-! ### Rows -/

/-- The routing mode in the diagnostics of an event. -/
inductive RoutingMode
  | litellmPassthrough
  | managedByGateway
  deriving DecidableEq, Repr

/-- The columns of an event that nothing rewrites. -/
structure EventFacts where
  requestId : Text
  keyId : Uuid
  projectId : Option Uuid
  route : Text
  model : Option Text
  provider : Text
  status : Text
  statusCode : ℤ
  serviceName : Option Text
  httpMethod : Option Text
  endpointPath : Option Text
  endpointTemplate : Option Text
  taskId : Option Text
  runId : Option Text
  traceId : Option Text
  routingMode : Option RoutingMode
  createdAt : DateTime
  deriving DecidableEq

/-- The facts of an event, for closed statements. -/
def EventFacts.blank : EventFacts where
  requestId := []
  keyId := 0
  projectId := none
  route := []
  model := none
  provider := []
  status := []
  statusCode := 200
  serviceName := none
  httpMethod := none
  endpointPath := none
  endpointTemplate := none
  taskId := none
  runId := none
  traceId := none
  routingMode := none
  createdAt := ⟨⟨2026, 1, 1⟩, 0⟩

/-- A usage event, as the proxy hands it to the store. -/
structure UsageEvent where
  facts : EventFacts
  estimatedCostUsd : Option ℚ
  costSource : Option CostSource
  costMode : Option ServiceCostMode
  pricingRuleName : Option Text
  pricingRuleFingerprint : Option Text
  deriving DecidableEq

/-- A row of `usage_events`. -/
structure UsageRow where
  id : Uuid
  ingestionXid : Option ℕ
  facts : EventFacts
  estimatedCost : Option ℤ
  costSource : Option CostSource
  costMode : Option ServiceCostMode
  pricingRuleName : Option Text
  pricingRuleFingerprint : Option Text
  budgetEstimatedCost : Option ℤ
  deriving DecidableEq

/-- The cast to `numeric(20, 8)`, which rounds half away from zero. -/
def numeric (amount : ℚ) : ℤ :=
  if 0 ≤ amount then ⌊amount * 10 ^ 8 + 1 / 2⌋ else -⌊-amount * 10 ^ 8 + 1 / 2⌋

/-- `numeric(20, 8)` holds twelve integer digits. -/
def fitsNumeric (units : ℤ) : Bool :=
  decide (-(10 ^ 20) < units) && decide (units < 10 ^ 20)

/-- The row of an event, with the id and the transaction that the insert gives it. -/
def UsageEvent.toRow (event : UsageEvent) (id : Uuid) (xid : ℕ) : UsageRow where
  id := id
  ingestionXid := some xid
  facts := event.facts
  estimatedCost := event.estimatedCostUsd.map numeric
  costSource := event.costSource
  costMode := event.costMode
  pricingRuleName := event.pricingRuleName
  pricingRuleFingerprint := event.pricingRuleFingerprint
  budgetEstimatedCost := none

/-- `insert_usage_event`. It fails on an id that is taken and on a cost that does not fit. -/
def insertUsageEvent (rows : List UsageRow) (id : Uuid) (xid : ℕ) (event : UsageEvent) :
    Option (List UsageRow) :=
  if (∀ row ∈ rows, row.id ≠ id) ∧ ((event.toRow id xid).estimatedCost.all fitsNumeric) then
    some (rows ++ [event.toRow id xid])
  else none

end Relayna.Usage

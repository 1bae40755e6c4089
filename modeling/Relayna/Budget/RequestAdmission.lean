import Relayna.Budget.Reservations

/-!
# Reservations that a request leaves behind

`crates/gateway-proxy/src/pingora_plane.rs` admits a request with `admit_request_budget`: one admit
command, and after any failure the committed spend is read from the durable ledger, seeded, and the
same admit command is sent once more. The request remembers an admission in `budget_reserved`, and
its terminal usage record and its logging phase finalize the reservation only when that flag is set.

The network may lose a command before the script has run or its reply afterwards; the client sees
`ControlStateUnavailable` in both cases. Between any two commands of the request other requests call
the scripts. An arming of the replica is one of those calls, since the script of `budget_epoch` is
atomic by itself, and one whose reply is lost has the effect of arming a replica that is never used.

A reservation is left behind in two ways. When the reply of a command that was admitted is lost, the
retry is answered with `duplicate reservation`, the flag stays down and nothing ever closes the
reservation. And `record_terminal_usage` ignores whether its release has reached the store, marks
the usage as recorded, and keeps the logging phase from closing the reservation.
`logging_clears_iff` shows that there is no third way.
-/

set_option autoImplicit false
set_option relaxedAutoImplicit false

namespace Relayna.Budget.RequestAdmission

open Library.Transition Scripts Reservations

/-! ### Commands over a network that loses messages -/

/-- What the network does with one command. -/
inductive Fate
  | delivered
  | requestLost
  | replyLost
  deriving DecidableEq

/-- The world after a command whose reply is not used. -/
def Fate.outcome (fate : Fate) (before after : World) : World :=
  match fate with
  | .requestLost => before
  | .delivered | .replyLost => after

theorem Fate.outcome_eq {fate : Fate} (hfate : fate ≠ .requestLost) (before after : World) :
    fate.outcome before after = after := by
  cases fate with
  | delivered => rfl
  | requestLost => exact absurd rfl hfate
  | replyLost => rfl

/-- The surroundings of one command: the calls of other requests that are served before it, and what
the network does with it. -/
structure Exchange where
  before : List Call
  fate : Fate

/-- Send a command. There is no reply when the command or its reply is lost. -/
def send (world : World) (exchange : Exchange) (call : Call) : Option Reply × World :=
  let served := run step world exchange.before
  match exchange.fate with
  | .delivered => (some (perform served.gateway call).1, step served call)
  | .requestLost => (none, served)
  | .replyLost => (none, step served call)

/-- The decision in a reply. Every other outcome is `ControlStateUnavailable`. -/
def decisionOf : Option Reply → Option BudgetDecision
  | some (.ok (.decision decision)) => some decision
  | _ => none

/-! ### The admission of a request -/

/-- What one request asks for. `reservationId` is a fresh UUID of the request. -/
structure Request where
  replica : ℕ
  keyId : Uuid
  reservationId : String
  amount : ℚ
  dailyLimit : Option ℚ
  monthlyLimit : Option ℚ
  now : Date

def Request.key (request : Request) : Uuid × String :=
  (request.keyId, request.reservationId)

/-- The admit command of a request, which the retry repeats. -/
def Request.admitCall (request : Request) : Call :=
  .admitBudget request.replica request.keyId request.reservationId request.amount request.dailyLimit
    request.monthlyLimit request.now

/-- The surroundings of an admission: those of its three commands, and what the durable ledger
answers to `committed_budget_spend`, which may fail. -/
structure Surroundings where
  first : Exchange
  committed : Option BudgetState
  seed : Exchange
  retry : Exchange

/-- The rehydration of `admit_request_budget`: read the durable ledger and seed the counters. It
fails when either step does. -/
def rehydrate (request : Request) (surroundings : Surroundings) (world : World) : Bool × World :=
  match surroundings.committed with
  | none => (false, world)
  | some committed =>
    let seeded := send world surroundings.seed (.seed request.replica request.keyId
      committed.dailySpendUsd committed.monthlySpendUsd request.now)
    match seeded.1 with
    | some (.ok _) => (true, seeded.2)
    | _ => (false, seeded.2)

/-- `admit_request_budget`. The result is `none` for `ControlStateUnavailable`. -/
def admitRequestBudget (request : Request) (surroundings : Surroundings) (world : World) :
    Option BudgetDecision × World :=
  let first := send world surroundings.first request.admitCall
  match decisionOf first.1 with
  | some decision => (some decision, first.2)
  | none =>
    let rehydrated := rehydrate request surroundings first.2
    if rehydrated.1 then
      let retry := send rehydrated.2 surroundings.retry request.admitCall
      (decisionOf retry.1, retry.2)
    else (none, rehydrated.2)

/-! ### The rest of the request -/

/-- The fields of the request context that decide what happens to the reservation. An admitted
request has its route and its key, so the early returns of the logging phase for their absence are
not reached. -/
structure Context where
  budgetReserved : Bool
  guardrailError : Bool
  terminalUsageRecorded : Bool

/-- The context after the admission: the flag is set when the answer was `Allowed`. -/
def Context.admitted : Option BudgetDecision → Context
  | some (.allowed _) => ⟨true, false, false⟩
  | _ => ⟨false, false, false⟩

/-- What happens between the admission and the logging phase: a call of another request, an error
that `guardrail_error` records, or a failure that is recorded by `record_terminal_usage`, with what
the network does with its release. -/
inductive Event
  | other (call : Call)
  | guardrailError
  | terminalUsage (release : Fate) (now : Date)

structure Flight where
  context : Context
  world : World

/-- The budget command at the end of a request: a reservation that is remembered is reconciled with
the cost or released, and a cost without one is added to the spend. -/
def settle (request : Request) (budgetReserved : Bool) (cost : Option ℚ≥0) (now : Date)
    (world : World) : World :=
  match cost, budgetReserved with
  | some cost, true =>
    step world (.finalize request.replica request.keyId request.reservationId cost now)
  | some cost, false => step world (.addSpend request.replica request.keyId cost now)
  | none, true => step world (.release request.replica request.keyId request.reservationId now)
  | none, false => world

/-- `record_terminal_usage`: the first one releases a reservation that is remembered, and does not
look at the reply. -/
def recordTerminalUsage (request : Request) (flight : Flight) (release : Fate) (now : Date) :
    Flight :=
  if flight.context.terminalUsageRecorded then flight
  else ⟨{ flight.context with terminalUsageRecorded := true },
    release.outcome flight.world
      (settle request flight.context.budgetReserved none now flight.world)⟩

def advance (request : Request) (flight : Flight) : Event → Flight
  | .other call => { flight with world := step flight.world call }
  | .guardrailError => { flight with context := { flight.context with guardrailError := true } }
  | .terminalUsage release now => recordTerminalUsage request flight release now

/-- The cost the logging phase accounts for: a request that was refused before its admission has
none. -/
def Context.estimatedCost (context : Context) (usageCost : Option ℚ≥0) : Option ℚ≥0 :=
  if !context.budgetReserved && context.guardrailError then none else usageCost

/-- The budget part of the logging phase, which reaches the store. `usageCost` is the cost
`resolved_usage_cost` found. -/
def logging (request : Request) (flight : Flight) (usageCost : Option ℚ≥0) (now : Date) : Flight :=
  if flight.context.terminalUsageRecorded then flight
  else ⟨{ flight.context with terminalUsageRecorded := true },
    settle request flight.context.budgetReserved (flight.context.estimatedCost usageCost) now
      flight.world⟩

/-- A whole request: admission, the events after it, and the logging phase. -/
def serve (request : Request) (surroundings : Surroundings) (events : List Event)
    (usageCost : Option ℚ≥0) (loggedAt : Date) (world : World) : Flight :=
  let admission := admitRequestBudget request surroundings world
  let flight := run (advance request) ⟨Context.admitted admission.1, admission.2⟩ events
  logging request flight usageCost loggedAt

/-! ### Calls of other requests -/

/-- The call neither admits nor closes the reservation. -/
def Foreign (key : Uuid × String) (call : Call) : Prop :=
  ¬ Opens key call ∧ ¬ Closes key call

/-- The events of other requests leave the reservation alone. -/
def Event.Foreign (key : Uuid × String) : Event → Prop
  | .other call => RequestAdmission.Foreign key call
  | .guardrailError => True
  | .terminalUsage _ _ => True

/-- The calls around an admission leave the reservation alone. -/
def Surroundings.Foreign (key : Uuid × String) (surroundings : Surroundings) : Prop :=
  (∀ call ∈ surroundings.first.before, RequestAdmission.Foreign key call) ∧
    (∀ call ∈ surroundings.seed.before, RequestAdmission.Foreign key call) ∧
    ∀ call ∈ surroundings.retry.before, RequestAdmission.Foreign key call

/-- The admit script admits the request in a world. -/
def Admits (request : Request) (world : World) : Prop :=
  ∃ state, (perform world.gateway request.admitCall).1 = .ok (.decision (.allowed state))

/-- An admit command that the script admits meets a fate: the first one, or the retry. -/
def AdmissionMeets (fate : Fate) (request : Request) (surroundings : Surroundings)
    (world : World) : Prop :=
  (surroundings.first.fate = fate ∧
      Admits request (run step world surroundings.first.before)) ∨
    (decisionOf (send world surroundings.first request.admitCall).1 = none ∧
      (rehydrate request surroundings (send world surroundings.first request.admitCall).2).1 =
        true ∧
      surroundings.retry.fate = fate ∧
      Admits request (run step
        (rehydrate request surroundings (send world surroundings.first request.admitCall).2).2
        surroundings.retry.before))

/-- An admit command that the script admits loses its reply. -/
def LosesAdmission (request : Request) (surroundings : Surroundings) (world : World) : Prop :=
  AdmissionMeets .replyLost request surroundings world

/-- What the network does with the release of the first `record_terminal_usage`. -/
def firstRelease (events : List Event) : Option Fate :=
  events.findSome? fun event ↦
    match event with
    | .terminalUsage release _ => some release
    | _ => none

/-- An admission is answered, and the release of the first `record_terminal_usage` does not reach
the store. -/
def LosesRelease (request : Request) (surroundings : Surroundings) (events : List Event)
    (world : World) : Prop :=
  AdmissionMeets .delivered request surroundings world ∧ firstRelease events = some .requestLost

section Lemmas

variable {key : Uuid × String} {world : World}

/-- A foreign call leaves the reservation as it is. -/
theorem lookup_step_of_foreign {call : Call} (hforeign : Foreign key call) (world : World) :
    (step world call).ledger.lookup key = world.ledger.lookup key := by
  show (world.ledger.record call (perform world.gateway call).1).lookup key = _
  unfold Ledger.record
  split
  · exact AList.lookup_insert_ne fun hkey ↦ hforeign.1 hkey.symm
  · exact AList.lookup_erase_ne fun hkey ↦ hforeign.2 hkey.symm
  · exact AList.lookup_erase_ne fun hkey ↦ hforeign.2 hkey.symm
  · rfl

/-- Foreign calls leave the reservation as it is. -/
theorem lookup_run_of_foreign {calls : List Call} (hforeign : ∀ call ∈ calls, Foreign key call)
    (world : World) : (run step world calls).ledger.lookup key = world.ledger.lookup key := by
  induction calls generalizing world with
  | nil => rfl
  | cons call rest ih =>
    rw [run_cons, ih (fun other hother ↦ hforeign other (List.mem_cons_of_mem call hother)),
      lookup_step_of_foreign (hforeign call List.mem_cons_self)]

/-- Running a script does not change the cached epochs. -/
theorem invoke_epochs (gateway : Gateway) (replica : ℕ)
    (script : String → Store → Except ScriptError (Answer × Store)) :
    (gateway.invoke replica script).2.epochs = gateway.epochs := by
  unfold Gateway.invoke
  split
  · rfl
  · split <;> rfl

/-- A replica that has an epoch keeps one. -/
theorem armed_step {replica : ℕ} (call : Call) (harmed : world.gateway.epochs replica ≠ none) :
    (step world call).gateway.epochs replica ≠ none := by
  show (perform world.gateway call).2.epochs replica ≠ none
  cases call with
  | arm other candidate =>
    rcases arm_cases world.gateway other candidate with hsame | ⟨epoch, hepochs, -, -, -⟩
    · show (world.gateway.arm other candidate).2.epochs replica ≠ none
      rwa [hsame]
    · show (world.gateway.arm other candidate).2.epochs replica ≠ none
      rw [hepochs, Function.update_apply]
      split_ifs with hreplica
      · simp
      · exact harmed
  | seed _ _ _ _ _ => rwa [perform, Gateway.seedBudgetCounters, invoke_epochs]
  | admitBudget _ _ _ _ _ _ _ =>
    rw [perform, Gateway.admitBudget]
    split_ifs with hargument
    · exact harmed
    · rwa [invoke_epochs]
  | finalize _ _ _ _ _ =>
    rw [perform, Gateway.finalizeReservation]
    split_ifs with hargument
    · exact harmed
    · rwa [invoke_epochs]
  | release _ _ _ _ =>
    rw [perform, Gateway.finalizeReservation]
    split_ifs with hargument
    · exact harmed
    · rwa [invoke_epochs]
  | addSpend _ _ _ _ =>
    rw [perform, Gateway.addBudgetSpend]
    split_ifs with hargument
    · exact harmed
    · rwa [invoke_epochs]

end Lemmas

/-! ### The admission -/

section Admission

variable {request : Request} {world : World}

/-- An admit command that is admitted opens the reservation, which was not outstanding, and its
replica has an epoch. -/
theorem admits_step (hworld : Consistent world) (hadmits : Admits request world) :
    world.ledger.lookup request.key = none ∧
      (step world request.admitCall).ledger.lookup request.key ≠ none ∧
      world.gateway.epochs request.replica ≠ none := by
  obtain ⟨state, hreply⟩ := hadmits
  refine ⟨?_, ?_, ?_⟩
  · rcases admitBudget_cases world.gateway request.replica request.keyId request.reservationId
      request.amount request.dailyLimit request.monthlyLimit request.now with
      ⟨reply, hnot, hsame⟩ | ⟨_, _, _, _, -, hfresh, -⟩
    · exact absurd ((congrArg Prod.fst hsame).symm.trans hreply) (hnot state)
    · have hrecord := hworld.record request.keyId request.reservationId
      rw [hfresh] at hrecord
      exact Option.map_eq_none_iff.mp hrecord.symm
  · show (world.ledger.record request.admitCall
      (perform world.gateway request.admitCall).1).lookup _ ≠ none
    rw [hreply]
    show (world.ledger.insert request.key ⟨request.amount, request.now⟩).lookup request.key ≠ none
    rw [AList.lookup_insert]
    simp
  · intro hnone
    change (world.gateway.admitBudget _ _ _ _ _ _ _).1 = _ at hreply
    unfold Gateway.admitBudget Gateway.invoke at hreply
    rw [hnone] at hreply
    split_ifs at hreply with hargument

/-- An admit command that is not admitted has no effect. -/
theorem step_admit_of_not_admits (hadmits : ¬ Admits request world) :
    step world request.admitCall = world := by
  rcases admitBudget_cases world.gateway request.replica request.keyId request.reservationId
    request.amount request.dailyLimit request.monthlyLimit request.now with
    ⟨reply, hnot, hsame⟩ | ⟨_, _, _, _, -, -, -, -, -, -, -, -, hallowed⟩
  · show World.mk (world.gateway.admitBudget _ _ _ _ _ _ _).2
      (world.ledger.record request.admitCall (world.gateway.admitBudget _ _ _ _ _ _ _).1) = world
    rw [hsame]
    exact congrArg (World.mk _) (record_admit_of_not_allowed world.ledger hnot)
  · exact absurd ⟨_, congrArg Prod.fst hallowed⟩ hadmits

/-- A delivered admit command is answered with `Allowed` when it is admitted and only then. -/
theorem allowed_iff_admits :
    (∃ state, decisionOf (some (perform world.gateway request.admitCall).1) =
        some (.allowed state)) ↔
      Admits request world := by
  constructor
  · rintro ⟨state, hdecision⟩
    refine ⟨state, ?_⟩
    unfold decisionOf at hdecision
    split at hdecision
    · rename_i decision hreply
      rw [Option.some.inj hreply, Option.some.inj hdecision]
    · exact absurd hdecision (by simp)
  · rintro ⟨state, hreply⟩
    exact ⟨state, by rw [hreply]; rfl⟩

/-- What is known of the reservation once an admission has been answered: an admission that was
allowed is outstanding and its replica has an epoch; any other leaves one behind exactly when it
lost the reply of a command that was admitted. -/
structure Tracked (request : Request) (loses : Prop) (flight : Flight) : Prop where
  consistent : Consistent flight.world
  unrecorded : flight.context.terminalUsageRecorded = false
  outstanding : flight.context.budgetReserved = true →
    flight.world.ledger.lookup request.key ≠ none ∧
      flight.world.gateway.epochs request.replica ≠ none
  kept : flight.context.budgetReserved = true → ¬ loses
  forgotten : flight.context.budgetReserved = false →
    (flight.world.ledger.lookup request.key = none ↔ ¬ loses)

/-- A context that does not remember an admission. -/
theorem admitted_of_not_allowed {decision : Option BudgetDecision}
    (hdecision : ∀ state, decision ≠ some (.allowed state)) :
    Context.admitted decision = ⟨false, false, false⟩ := by
  unfold Context.admitted
  split
  · rename_i state
    exact absurd rfl (hdecision state)
  · rfl

/-- Without a remembered admission, what is known is whether the reservation is outstanding. -/
theorem tracked_of_forgotten {loses : Prop} (hworld : Consistent world)
    (hlookup : world.ledger.lookup request.key = none ↔ ¬ loses) :
    Tracked request loses ⟨⟨false, false, false⟩, world⟩ where
  consistent := hworld
  unrecorded := rfl
  outstanding := fun hreserved ↦ absurd hreserved (by simp)
  kept := fun hreserved ↦ absurd hreserved (by simp)
  forgotten := fun _ ↦ hlookup

/-- A command that the script does not admit is not remembered and leaves the reservations as they
are after the calls before it. -/
theorem send_of_not_admits {exchange : Exchange}
    (hadmits : ¬ Admits request (run step world exchange.before)) :
    Context.admitted (decisionOf (send world exchange request.admitCall).1) =
      ⟨false, false, false⟩ ∧
      (send world exchange request.admitCall).2 = run step world exchange.before := by
  unfold send
  cases exchange.fate with
  | delivered =>
    refine ⟨admitted_of_not_allowed fun state hstate ↦ ?_, step_admit_of_not_admits hadmits⟩
    exact hadmits (allowed_iff_admits.mp ⟨state, hstate⟩)
  | requestLost => exact ⟨rfl, rfl⟩
  | replyLost => exact ⟨rfl, step_admit_of_not_admits hadmits⟩

/-- What one admit command leaves behind. Assumes: a consistent world without the reservation, and
foreign calls before the command. -/
theorem tracked_send (hworld : Consistent world) (habsent : world.ledger.lookup request.key = none)
    {exchange : Exchange} (hforeign : ∀ call ∈ exchange.before, Foreign request.key call) :
    Tracked request (exchange.fate = .replyLost ∧ Admits request (run step world exchange.before))
      ⟨Context.admitted (decisionOf (send world exchange request.admitCall).1),
        (send world exchange request.admitCall).2⟩ := by
  have hserved : Consistent (run step world exchange.before) :=
    run_invariant consistent_step exchange.before world hworld
  have hlookup : (run step world exchange.before).ledger.lookup request.key = none :=
    (lookup_run_of_foreign hforeign world).trans habsent
  by_cases hadmits : Admits request (run step world exchange.before)
  · obtain ⟨-, hopened, harmed⟩ := admits_step hserved hadmits
    obtain ⟨state, hstate⟩ := allowed_iff_admits.mpr hadmits
    unfold send
    cases hfate : exchange.fate with
    | delivered =>
      show Tracked request _ ⟨Context.admitted (decisionOf (some (perform _ request.admitCall).1)),
        step (run step world exchange.before) request.admitCall⟩
      rw [hstate]
      exact {
        consistent := consistent_step _ _ hserved
        unrecorded := rfl
        outstanding := fun _ ↦ ⟨hopened, armed_step _ harmed⟩
        kept := fun _ hloses ↦ absurd hloses.1 (by simp)
        forgotten := fun hreserved ↦ absurd hreserved (by simp [Context.admitted]) }
    | requestLost => exact tracked_of_forgotten hserved (by simp [hlookup])
    | replyLost =>
      refine tracked_of_forgotten (consistent_step _ _ hserved) ?_
      simp only [hadmits, and_true, not_true_eq_false, iff_false]
      exact hopened
  · obtain ⟨hcontext, hsame⟩ := send_of_not_admits hadmits
    rw [hcontext, hsame]
    exact tracked_of_forgotten hserved (by simp [hlookup, hadmits])

/-- A rehydration leaves the reservations as they are. Assumes: foreign calls before the seed. -/
theorem rehydrate_keeps (hworld : Consistent world) {surroundings : Surroundings}
    (hforeign : ∀ call ∈ surroundings.seed.before, Foreign request.key call) :
    Consistent (rehydrate request surroundings world).2 ∧
      (rehydrate request surroundings world).2.ledger.lookup request.key =
        world.ledger.lookup request.key := by
  have hserved : Consistent (run step world surroundings.seed.before) :=
    run_invariant consistent_step _ world hworld
  have hlookup := lookup_run_of_foreign hforeign world
  have hsend : ∀ dailySpend monthlySpend, ∀ result, result = send world surroundings.seed
        (.seed request.replica request.keyId dailySpend monthlySpend request.now) →
      Consistent result.2 ∧
        result.2.ledger.lookup request.key = world.ledger.lookup request.key := by
    rintro dailySpend monthlySpend result rfl
    unfold send
    cases surroundings.seed.fate with
    | delivered => exact ⟨consistent_step _ _ hserved, hlookup⟩
    | requestLost => exact ⟨hserved, hlookup⟩
    | replyLost => exact ⟨consistent_step _ _ hserved, hlookup⟩
  unfold rehydrate
  split
  · exact ⟨hworld, rfl⟩
  · dsimp only
    split <;> exact hsend _ _ _ rfl

/-- What an admission leaves behind. Assumes: a consistent world without the reservation, and
foreign calls around the commands. -/
theorem tracked_admitRequestBudget (hworld : Consistent world)
    (habsent : world.ledger.lookup request.key = none) {surroundings : Surroundings}
    (hforeign : surroundings.Foreign request.key) :
    Tracked request (LosesAdmission request surroundings world)
      ⟨Context.admitted (admitRequestBudget request surroundings world).1,
        (admitRequestBudget request surroundings world).2⟩ := by
  have hfirst := tracked_send hworld habsent hforeign.1
  unfold admitRequestBudget LosesAdmission AdmissionMeets
  cases hdecision : decisionOf (send world surroundings.first request.admitCall).1 with
  | some decision =>
    simp only [hdecision, reduceCtorEq, false_and, or_false]
    rwa [hdecision] at hfirst
  | none =>
    rw [hdecision] at hfirst
    have hafter := hfirst.forgotten rfl
    obtain ⟨hseeded, hsame⟩ := rehydrate_keeps hfirst.consistent hforeign.2.1
    cases hrehydrated :
        (rehydrate request surroundings (send world surroundings.first request.admitCall).2).1 with
    | false =>
      simp only [hdecision, hrehydrated, Bool.false_eq_true, if_false, true_and,
        false_and, or_false]
      refine tracked_of_forgotten hseeded ?_
      rw [hsame]
      exact hafter
    | true =>
      simp only [hdecision, hrehydrated, if_true, true_and]
      by_cases hlost : surroundings.first.fate = .replyLost ∧
          Admits request (run step world surroundings.first.before)
      · have hadmits : ¬ Admits request (run step
            (rehydrate request surroundings (send world surroundings.first request.admitCall).2).2
            surroundings.retry.before) := by
          intro hadmits
          have hnone := (admits_step (run_invariant consistent_step _ _ hseeded) hadmits).1
          rw [lookup_run_of_foreign hforeign.2.2, hsame] at hnone
          exact hafter.mp hnone hlost
        obtain ⟨hcontext, hretry⟩ := send_of_not_admits hadmits
        rw [hcontext, hretry]
        refine tracked_of_forgotten (run_invariant consistent_step _ _ hseeded) ?_
        rw [lookup_run_of_foreign hforeign.2.2, hsame, hafter]
        simp only [hlost, and_self, not_true_eq_false, true_or]
      · simp only [hlost, false_or]
        exact tracked_send hseeded (hsame.trans (hafter.mpr hlost)) hforeign.2.2

end Admission

/-! ### The rest of the request -/

section Rest

variable {request : Request} {loses : Prop} {flight : Flight}

/-- Closing the reservation of an armed replica leaves none. Assumes: a consistent world. -/
theorem lookup_step_finalize {world : World} (hworld : Consistent world)
    (harmed : world.gateway.epochs request.replica ≠ none) {actual : ℚ} (hactual : 0 ≤ actual)
    (now : Date) :
    (step world (.finalize request.replica request.keyId request.reservationId actual
      now)).ledger.lookup request.key = none := by
  cases hlookup : world.ledger.lookup request.key with
  | none =>
    have hcloses : Closes request.key (.finalize request.replica request.keyId
        request.reservationId actual now) := rfl
    rw [closes_step_of_absent hworld hcloses hlookup]
    exact hlookup
  | some admission =>
    obtain ⟨epoch, hepoch⟩ := Option.ne_none_iff_exists'.mp harmed
    have hreply := finalizeReservation_outstanding hworld hlookup hepoch hactual
    show (world.ledger.record _ (world.gateway.finalizeReservation _ _ _ _).1).lookup _ = none
    rw [hreply]
    exact AList.lookup_erase _ _

/-- A foreign call keeps what is known. -/
theorem tracked_other (htracked : Tracked request loses flight) {call : Call}
    (hforeign : Foreign request.key call) :
    Tracked request loses { flight with world := step flight.world call } where
  consistent := consistent_step _ _ htracked.consistent
  unrecorded := htracked.unrecorded
  outstanding := fun hreserved ↦ by
    obtain ⟨hlookup, harmed⟩ := htracked.outstanding hreserved
    exact ⟨by rwa [lookup_step_of_foreign hforeign], armed_step call harmed⟩
  kept := htracked.kept
  forgotten := fun hreserved ↦ by
    rw [lookup_step_of_foreign hforeign]
    exact htracked.forgotten hreserved

/-- Settling a request closes a reservation that is remembered, and leaves one that is not. -/
theorem Tracked.settle (htracked : Tracked request loses flight) (cost : Option ℚ≥0) (now : Date) :
    Consistent (settle request flight.context.budgetReserved cost now flight.world) ∧
      ((settle request flight.context.budgetReserved cost now flight.world).ledger.lookup
        request.key = none ↔ ¬ loses) := by
  constructor
  · unfold RequestAdmission.settle
    split
    · exact consistent_step _ _ htracked.consistent
    · exact consistent_step _ _ htracked.consistent
    · exact consistent_step _ _ htracked.consistent
    · exact htracked.consistent
  · cases hreserved : flight.context.budgetReserved with
    | true =>
      have harmed := (htracked.outstanding hreserved).2
      refine iff_of_true ?_ (htracked.kept hreserved)
      cases cost with
      | none =>
        show (step flight.world (.release _ _ _ _)).ledger.lookup request.key = none
        rw [step_release]
        exact lookup_step_finalize htracked.consistent harmed (le_refl 0) now
      | some cost =>
        exact lookup_step_finalize htracked.consistent harmed (NNRat.cast_nonneg cost) now
    | false =>
      refine Iff.trans (Eq.congr_left ?_) (htracked.forgotten hreserved)
      cases cost with
      | none => rfl
      | some cost => rfl

/-- What is known of a request whose usage is recorded: it leaves a reservation behind exactly when
it has lost one. -/
structure Ended (request : Request) (loses : Prop) (flight : Flight) : Prop where
  consistent : Consistent flight.world
  recorded : flight.context.terminalUsageRecorded = true
  cleared : flight.world.ledger.lookup request.key = none ↔ ¬ loses

/-- The first `record_terminal_usage` ends a request. It loses a reservation that is remembered when
its release is lost. -/
theorem Tracked.recordTerminalUsage (htracked : Tracked request loses flight) (release : Fate)
    (now : Date) :
    Ended request (loses ∨ (flight.context.budgetReserved = true ∧ release = .requestLost))
      (recordTerminalUsage request flight release now) := by
  obtain ⟨hconsistent, hcleared⟩ := htracked.settle none now
  unfold RequestAdmission.recordTerminalUsage
  rw [if_neg (by rw [htracked.unrecorded]; exact Bool.false_ne_true)]
  by_cases hrelease : release = .requestLost
  · subst hrelease
    refine ⟨htracked.consistent, rfl, ?_⟩
    show flight.world.ledger.lookup request.key = none ↔ _
    cases hreserved : flight.context.budgetReserved with
    | true => exact iff_of_false (htracked.outstanding hreserved).1 (by simp)
    | false => simpa using htracked.forgotten hreserved
  · rw [Fate.outcome_eq hrelease]
    exact ⟨hconsistent, rfl, by simpa [hrelease] using hcleared⟩

/-- The events and the logging phase after the usage is recorded leave the reservation alone. -/
theorem Ended.run {events : List Event} (hended : Ended request loses flight)
    (hforeign : ∀ event ∈ events, event.Foreign request.key) (usageCost : Option ℚ≥0)
    (now : Date) :
    Ended request loses
      (logging request (Library.Transition.run (advance request) flight events) usageCost now) := by
  induction events generalizing flight with
  | nil =>
    rw [run_nil, logging, if_pos hended.recorded]
    exact hended
  | cons event rest ih =>
    have hrest : ∀ other ∈ rest, other.Foreign request.key := fun other hother ↦
      hforeign other (List.mem_cons_of_mem event hother)
    have hevent := hforeign event List.mem_cons_self
    rw [run_cons]
    cases event with
    | other call =>
      refine ih ⟨consistent_step _ _ hended.consistent, hended.recorded, ?_⟩ hrest
      show (step flight.world call).ledger.lookup request.key = none ↔ _
      rw [lookup_step_of_foreign hevent]
      exact hended.cleared
    | guardrailError => exact ih ⟨hended.consistent, hended.recorded, hended.cleared⟩ hrest
    | terminalUsage release instant =>
      have hsame : advance request flight (.terminalUsage release instant) = flight :=
        if_pos hended.recorded
      rw [hsame]
      exact ih hended hrest

/-- What is left of a request that remembers its admission or not, after any events and the logging
phase. The induction is on the events up to the first `record_terminal_usage`. -/
theorem Tracked.run {events : List Event} (htracked : Tracked request loses flight)
    (hforeign : ∀ event ∈ events, event.Foreign request.key) (usageCost : Option ℚ≥0)
    (now : Date) :
    Ended request
      (loses ∨ (flight.context.budgetReserved = true ∧ firstRelease events = some .requestLost))
      (logging request (Library.Transition.run (advance request) flight events) usageCost now) := by
  induction events generalizing flight with
  | nil =>
    obtain ⟨hconsistent, hcleared⟩ :=
      htracked.settle (flight.context.estimatedCost usageCost) now
    rw [run_nil, logging, if_neg (by rw [htracked.unrecorded]; exact Bool.false_ne_true)]
    exact ⟨hconsistent, rfl, by simpa [firstRelease] using hcleared⟩
  | cons event rest ih =>
    have hrest : ∀ other ∈ rest, other.Foreign request.key := fun other hother ↦
      hforeign other (List.mem_cons_of_mem event hother)
    have hevent := hforeign event List.mem_cons_self
    rw [run_cons]
    cases event with
    | other call => exact ih (tracked_other htracked hevent) hrest
    | guardrailError =>
      have hnext : Tracked request loses (advance request flight .guardrailError) :=
        ⟨htracked.consistent, htracked.unrecorded, htracked.outstanding, htracked.kept,
          htracked.forgotten⟩
      exact ih hnext hrest
    | terminalUsage release instant =>
      have hfirst : (firstRelease (.terminalUsage release instant :: rest) = some .requestLost) ↔
          release = .requestLost := Option.some_inj
      rw [hfirst]
      exact (htracked.recordTerminalUsage release instant).run hrest usageCost now

end Rest

/-! ### Every request -/

section Remembered

variable {request : Request} {surroundings : Surroundings} {world : World}

/-- A request remembers the admission that the reply to a command shows. -/
theorem budgetReserved_send (exchange : Exchange) :
    (Context.admitted (decisionOf (send world exchange request.admitCall).1)).budgetReserved =
        true ↔
      exchange.fate = .delivered ∧ Admits request (run step world exchange.before) := by
  rw [← allowed_iff_admits]
  unfold send
  cases exchange.fate with
  | delivered =>
    simp only [true_and]
    unfold Context.admitted
    split
    · rename_i state hallowed
      exact iff_of_true rfl ⟨state, hallowed⟩
    · rename_i decision hnot
      refine iff_of_false Bool.false_ne_true ?_
      rintro ⟨state, hallowed⟩
      exact hnot state hallowed
  | requestLost => exact iff_of_false Bool.false_ne_true fun h ↦ nomatch h.1
  | replyLost => exact iff_of_false Bool.false_ne_true fun h ↦ nomatch h.1

/-- A request remembers its admission exactly when a command that was admitted has been answered. -/
theorem budgetReserved_iff :
    (Context.admitted (admitRequestBudget request surroundings world).1).budgetReserved = true ↔
      AdmissionMeets .delivered request surroundings world := by
  have hfirst := @budgetReserved_send request world surroundings.first
  unfold admitRequestBudget AdmissionMeets
  cases hdecision : decisionOf (send world surroundings.first request.admitCall).1 with
  | some decision =>
    rw [hdecision] at hfirst
    simpa only [hdecision, reduceCtorEq, false_and, or_false] using hfirst
  | none =>
    rw [hdecision] at hfirst
    have hnone := not_congr hfirst |>.mp Bool.false_ne_true
    cases hrehydrated :
        (rehydrate request surroundings (send world surroundings.first request.admitCall).2).1 with
    | false =>
      simp only [hdecision, hrehydrated, hnone, Bool.false_eq_true, if_false, true_and, false_and,
        or_false, iff_false]
      exact Bool.false_ne_true
    | true =>
      simp only [hdecision, hrehydrated, if_true, true_and, hnone, false_or]
      exact budgetReserved_send surroundings.retry

end Remembered

/-- The reservations that requests leave behind. Assumes: a reachable world in which the reservation
of the request is not outstanding, and other requests that leave it alone. Once the logging phase
has run, the store holds no reservation of the request if and only if no admit command of it that
the script admitted lost its reply, and the release of its first `record_terminal_usage` was not
lost after an admission that was answered. -/
theorem logging_clears_iff {request : Request} {calls : List Call}
    (hfresh : (run step World.initial calls).gateway.store
      (.reservation request.keyId request.reservationId) = none)
    {surroundings : Surroundings} (hsurroundings : surroundings.Foreign request.key)
    {events : List Event} (hevents : ∀ event ∈ events, event.Foreign request.key)
    (usageCost : Option ℚ≥0) (loggedAt : Date) :
    (serve request surroundings events usageCost loggedAt
        (run step World.initial calls)).world.gateway.store
      (.reservation request.keyId request.reservationId) = none ↔
    ¬ LosesAdmission request surroundings (run step World.initial calls) ∧
      ¬ LosesRelease request surroundings events (run step World.initial calls) := by
  have hworld := consistent_run calls
  have habsent : (run step World.initial calls).ledger.lookup request.key = none := by
    have hrecord := hworld.record request.keyId request.reservationId
    rw [hfresh] at hrecord
    exact Option.map_eq_none_iff.mp hrecord.symm
  have hended := (tracked_admitRequestBudget hworld habsent hsurroundings).run hevents usageCost
    loggedAt
  rw [serve, hended.consistent.record, Option.map_eq_none_iff, LosesRelease,
    ← budgetReserved_iff, ← not_or]
  exact hended.cleared

/-- The first reply is lost, the rehydration succeeds and the retry is delivered and answered with
`duplicate reservation`. The failure is recorded, the logging phase runs, and the reservation of `4`
is still in the store. -/
theorem lost_admission_reply_leaks :
    (run step World.initial [.arm 0 "epoch", .seed 0 7 0 0 ⟨2026, 1, 31⟩]).gateway.store
      (.reservation 7 "request") = none ∧
    (serve ⟨0, 7, "request", 4, some 10, some 20, ⟨2026, 1, 31⟩⟩
      ⟨⟨[], .replyLost⟩, some ⟨0, 0⟩, ⟨[], .delivered⟩, ⟨[], .delivered⟩⟩
      [.terminalUsage .delivered ⟨2026, 1, 31⟩] none ⟨2026, 1, 31⟩
      (run step World.initial [.arm 0 "epoch", .seed 0 7 0 0 ⟨2026, 1, 31⟩])).world.gateway.store
        (.reservation 7 "request") =
      some (.record ⟨4, .daily 7 2026 1 31, .monthly 7 2026 1, "v2"⟩) := by
  decide +kernel

/-- The admission is answered and a later rejection records the usage, but its release is lost: the
logging phase finds the usage recorded, and the reservation of `4` is still in the store. -/
theorem lost_release_leaks :
    (serve ⟨0, 7, "request", 4, some 10, some 20, ⟨2026, 1, 31⟩⟩
      ⟨⟨[], .delivered⟩, some ⟨0, 0⟩, ⟨[], .delivered⟩, ⟨[], .delivered⟩⟩
      [.guardrailError, .terminalUsage .requestLost ⟨2026, 1, 31⟩] none ⟨2026, 1, 31⟩
      (run step World.initial [.arm 0 "epoch", .seed 0 7 0 0 ⟨2026, 1, 31⟩])).world.gateway.store
        (.reservation 7 "request") =
      some (.record ⟨4, .daily 7 2026 1 31, .monthly 7 2026 1, "v2"⟩) := by
  decide +kernel

/-- The same request without the loss: the retry after a lost command is admitted and the logging
phase reconciles it. -/
theorem logging_clears_iff_request_lost :
    (serve ⟨0, 7, "request", 4, some 10, some 20, ⟨2026, 1, 31⟩⟩
      ⟨⟨[], .requestLost⟩, some ⟨0, 0⟩, ⟨[], .delivered⟩, ⟨[], .delivered⟩⟩
      [] (some 3) ⟨2026, 2, 1⟩
      (run step World.initial [.arm 0 "epoch", .seed 0 7 0 0 ⟨2026, 1, 31⟩])).world.gateway.store
        (.reservation 7 "request") = none := by
  refine (@logging_clears_iff ⟨0, 7, "request", 4, some 10, some 20, ⟨2026, 1, 31⟩⟩
    [.arm 0 "epoch", .seed 0 7 0 0 ⟨2026, 1, 31⟩] (by decide) _ ⟨?_, ?_, ?_⟩ [] (by simp)
    (some 3) ⟨2026, 2, 1⟩).mpr ?_
  · simp
  · simp
  · simp
  · refine ⟨?_, fun hlost ↦ nomatch hlost.2⟩
    rintro (⟨hfate, -⟩ | ⟨-, -, hfate, -⟩) <;> exact absurd hfate (by simp)

end Relayna.Budget.RequestAdmission

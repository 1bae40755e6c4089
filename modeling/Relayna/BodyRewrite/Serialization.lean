import Relayna.BodyAdmission.Upgrades
import Relayna.BodyRewrite.Rewriter

/-!
# Serialization within the admission

`serialize_with_admission` of `crates/gateway-proxy/src/body_rewrite.rs` serializes a value into a
vector that grows with the writes of the serializer. Before the vector grows, and again after the
allocator has granted a capacity, the lease of the request asks for a working charge of the output
beside that of the input. A write that fails keeps its error in the writer, since the serializer
knows errors of input and output only.

The serializer is its sequence of writes. The lease is one of the leases of the admission
controller, and other requests may take any steps before each of its charges.

After every write that succeeds the capacity of the vector is within the rewrite capacity of the
lease (`serialized_within_admission`). It need not be after one that fails: a capacity that the
allocator has granted can be more than was asked for, and be refused its charge
(`granted_capacity_refused`).
-/

set_option autoImplicit false
set_option relaxedAutoImplicit false

namespace Relayna.BodyRewrite

open BodyAdmission (Action BodyAdmissionController Lease Outcome lookup_run_of_ne perform step)
open Library.GrowingBuffer Library.MachineWord Library.Transition

/-! ### The code -/

/-- One write of a serializer: its bytes, the allocator that it finds, and the steps of other
requests before each of the two charges that it may ask for. -/
structure Write where
  bytes : List UInt8
  allocator : Allocator
  before : List Action
  between : List Action

/-- What the writer is made for: the lease of the request, if it has one. -/
structure Setting where
  controller : BodyAdmissionController
  leaseId : Option ℕ
  maximum : Word 64
  tooLarge : GatewayError

/-- `Writer`, with the state of the controller, and with the outcomes of the charges asked for,
which the source does not keep. -/
structure Writer where
  bytes : Buffer UInt8
  error : Option GatewayError
  admission : BodyAdmission.State
  asked : List Outcome

/-- Ask for a charge of the lease, after steps of others. -/
def Setting.ask (setting : Setting) (others : List Action) (action : ℕ → Action)
    (writer : Writer) : Except GatewayError Unit × Writer :=
  let found := run (step setting.controller) writer.admission others
  match setting.leaseId with
  | none => (.ok (), { writer with admission := found })
  | some leaseId =>
    match perform setting.controller found (action leaseId) with
    | (.done, next) =>
      (.ok (), { writer with admission := next, asked := writer.asked ++ [.done] })
    | (outcome, next) =>
      (.error .gatewayOverloaded,
        { writer with admission := next, asked := writer.asked ++ [outcome] })

/-- `lease.prepare_rewrite`. -/
def Setting.prepareRewrite (setting : Setting) (others : List Action) (capacity : ℕ)
    (writer : Writer) : Except GatewayError Unit × Writer :=
  setting.ask others (.prepareRewrite · capacity) writer

/-- The second half of the growth: allocate, and charge what the allocator has granted. The capacity
is never less than the length of the vector. -/
def Setting.allocate (setting : Setting) (write : Write) (capacity : ℕ) (writer : Writer) :
    Except GatewayError Unit × Writer :=
  match writer.bytes.tryReserveExact write.allocator (capacity - writer.bytes.length) with
  | none => (.error .gatewayOverloaded, writer)
  | some bytes =>
    setting.prepareRewrite write.between bytes.capacity { writer with bytes := bytes }

/-- The growth of the vector inside a write: charge a capacity before it is allocated. -/
def Setting.grow (setting : Setting) (write : Write) (capacity : ℕ) (writer : Writer) :
    Except GatewayError Unit × Writer :=
  match setting.prepareRewrite write.before capacity writer with
  | (.error error, writer) => (.error error, writer)
  | (.ok _, writer) => setting.allocate write capacity writer

/-- The closure of `Writer::write`. -/
def Setting.append (setting : Setting) (write : Write) (writer : Writer) :
    Except GatewayError ℕ × Writer :=
  match (checkedAdd 64 writer.bytes.length write.bytes.length).filter
      (· ≤ setting.maximum.val) with
  | none => (.error setting.tooLarge, writer)
  | some length =>
    let grown :=
      if writer.bytes.capacity < length then
        setting.grow write
          (min (max (saturatingMul 64 writer.bytes.capacity 2) length) setting.maximum.val) writer
      else (.ok (), writer)
    match grown with
    | (.error error, writer) => (.error error, writer)
    | (.ok _, writer) =>
      (.ok write.bytes.length, { writer with bytes := writer.bytes.extend write.bytes })

/-- `Writer::write`: an error is kept in the writer, and is one of input and output outside. -/
def Setting.write (setting : Setting) (write : Write) (writer : Writer) :
    Except Unit ℕ × Writer :=
  match setting.append write writer with
  | (.ok count, writer) => (.ok count, writer)
  | (.error error, writer) => (.error (), { writer with error := some error })

/-- `serde_json::to_writer`: the writes up to the first that fails. -/
def Setting.toWriter (setting : Setting) : List Write → Writer → Except Unit Unit × Writer
  | [], writer => (.ok (), writer)
  | write :: rest, writer =>
    match setting.write write writer with
    | (.error error, writer) => (.error error, writer)
    | (.ok _, writer) => setting.toWriter rest writer

/-- A writer before its first write. -/
def Writer.new (admission : BodyAdmission.State) : Writer where
  bytes := .empty
  error := none
  admission := admission
  asked := []

/-- `serialize_with_admission`, and the writer that it leaves. -/
def serializeWithAdmission (setting : Setting) (writes : List Write)
    (admission : BodyAdmission.State) : Except GatewayError (List UInt8) × Writer :=
  match setting.ask [] .beginProcessing (Writer.new admission) with
  | (.error error, writer) => (.error error, writer)
  | (.ok _, writer) =>
    match setting.toWriter writes writer with
    | (.ok _, writer) => (.ok writer.bytes.items, writer)
    | (.error _, writer) => (.error (writer.error.getD .invalidGuardrailRequest), writer)

/-! ### One charge -/

/-- The charges that a writer has asked for have all been granted. -/
def Writer.Granted (writer : Writer) : Prop :=
  ∀ outcome ∈ writer.asked, outcome = .done

/-- The lease of a writer has only been upgraded since `start`, to a rewrite capacity of at least
`capacity`. -/
def Setting.Holds (setting : Setting) (start : Lease) (capacity : ℕ) (writer : Writer) : Prop :=
  ∀ leaseId ∈ setting.leaseId, ∃ lease, writer.admission.leases.lookup leaseId = some lease ∧
    start.Upgraded lease ∧ lease.ChargedUnder setting.controller ∧ capacity ≤ lease.rewriteCapacity

/-- The actions are steps of other requests. -/
def Setting.Others (setting : Setting) (actions : List Action) : Prop :=
  ∀ leaseId ∈ setting.leaseId, ∀ action ∈ actions, action.leaseId ≠ leaseId

section Charges

variable {setting : Setting} {start : Lease} {writer : Writer}

/-- Assumes: an action that upgrades the lease. A charge is granted, or refused and the lease is as
it was; the vector is not touched. -/
theorem ask_cases {held capacity : ℕ} (hholds : setting.Holds start held writer)
    {others : List Action} (hothers : setting.Others others) {action : ℕ → Action}
    (hasked : ∀ (state : BodyAdmission.State) (leaseId : ℕ) (lease : Lease),
      state.leases.lookup leaseId = some lease → start.Upgraded lease →
        lease.ChargedUnder setting.controller →
          BodyAdmission.Asked setting.controller leaseId lease capacity
            (perform setting.controller state (action leaseId))) :
    (∃ next, setting.ask others action writer = (.ok (), next) ∧ next.bytes = writer.bytes ∧
        setting.Holds start (max held capacity) next ∧ (writer.Granted → next.Granted)) ∨
      ∃ next, setting.ask others action writer = (.error .gatewayOverloaded, next) ∧
        next.bytes = writer.bytes ∧ ¬ next.Granted := by
  unfold Setting.ask
  cases hleaseId : setting.leaseId with
  | none =>
    left
    refine ⟨_, rfl, rfl, ?_, id⟩
    intro leaseId hsome
    rw [hleaseId] at hsome
    exact nomatch hsome
  | some leaseId =>
    obtain ⟨lease, hlookup, hupgraded, hcharged, hcapacity⟩ := hholds leaseId hleaseId
    rw [← lookup_run_of_ne (hothers leaseId hleaseId)] at hlookup
    dsimp only
    generalize houtcome : perform setting.controller
      (run (step setting.controller) writer.admission others) (action leaseId) = outcome
    have hcases := hasked _ leaseId lease hlookup hupgraded hcharged
    rw [houtcome] at hcases
    cases hcases with
    | granted hlookup' hupgraded' hcharged' hmoved =>
      left
      refine ⟨_, rfl, rfl, ?_, fun hgranted outcome hmem ↦ ?_⟩
      · intro other hother
        obtain rfl : leaseId = other := Option.some.inj (hleaseId.symm.trans hother)
        exact ⟨_, hlookup', hupgraded.trans hupgraded', hcharged',
          max_le (hcapacity.trans hupgraded'.rewriteCapacity_le) hmoved⟩
      · rcases List.mem_append.mp hmem with hearlier | hlast
        · exact hgranted outcome hearlier
        · exact List.mem_singleton.mp hlast
    | refused hlookup' =>
      right
      refine ⟨_, rfl, rfl, fun hgranted ↦ ?_⟩
      have hdone := hgranted .overloaded (List.mem_append_right _ (List.mem_singleton.mpr rfl))
      exact nomatch hdone

theorem ask_prepareRewrite {held : ℕ} (hholds : setting.Holds start held writer)
    (hheld : start.phase = .held) {others : List Action} (hothers : setting.Others others)
    (capacity : ℕ) :
    (∃ next, setting.prepareRewrite others capacity writer = (.ok (), next) ∧
        next.bytes = writer.bytes ∧ setting.Holds start (max held capacity) next ∧
        (writer.Granted → next.Granted)) ∨
      ∃ next, setting.prepareRewrite others capacity writer = (.error .gatewayOverloaded, next) ∧
        next.bytes = writer.bytes ∧ ¬ next.Granted := by
  refine ask_cases hholds hothers fun state leaseId lease hlookup hupgraded hcharged ↦ ?_
  exact BodyAdmission.perform_prepareRewrite hlookup (hupgraded.phase.trans hheld) hcharged capacity

/-! ### One write -/

/-- The vector of a writer is within the rewrite capacity of its lease. -/
def Setting.Within (setting : Setting) (start : Lease) (writer : Writer) : Prop :=
  setting.Holds start writer.bytes.capacity writer

/-- Assumes: an allocator that never refuses, and room for the vector in the capacity asked for. The
vector grows with its charge, or a charge is refused. -/
theorem grow_cases (hwithin : setting.Within start writer) (hheld : start.phase = .held)
    {write : Write} (hsucceeds : write.allocator.Succeeds) (hbefore : setting.Others write.before)
    (hbetween : setting.Others write.between) {capacity : ℕ}
    (hroom : writer.bytes.length ≤ capacity) :
    (∃ next, setting.grow write capacity writer = (.ok (), next) ∧
        next.bytes.items = writer.bytes.items ∧ capacity ≤ next.bytes.capacity ∧
        setting.Within start next ∧ (writer.Granted → next.Granted)) ∨
      ∃ next, setting.grow write capacity writer = (.error .gatewayOverloaded, next) ∧
        ¬ next.Granted := by
  unfold Setting.grow
  rcases ask_prepareRewrite hwithin hheld hbefore capacity with
    ⟨asked, hasked, hbytes, hholds, hgranted⟩ | ⟨asked, hasked, -, hrefused⟩
  · rw [hasked]
    dsimp only
    obtain ⟨reserved, hreserved⟩ := tryReserveExact_succeeds hsucceeds asked.bytes
      (capacity - asked.bytes.length)
    obtain ⟨hitems, hcovers⟩ := of_tryReserveExact hreserved
    rw [hbytes] at hcovers
    unfold Setting.allocate
    rw [hreserved]
    dsimp only
    have hholds' : setting.Holds start (max writer.bytes.capacity capacity)
        { asked with bytes := reserved } := hholds
    rcases ask_prepareRewrite hholds' hheld hbetween reserved.capacity with
      ⟨next, hnext, hsame, hnextHolds, hnextGranted⟩ | ⟨next, hnext, -, hrefused⟩
    · left
      refine ⟨next, hnext, ?_, ?_, ?_, fun hall ↦ hnextGranted (hgranted hall)⟩
      · rw [hsame]
        exact hitems.trans (congrArg Buffer.items hbytes)
      · rw [hsame]
        show capacity ≤ reserved.capacity
        omega
      · intro leaseId hleaseId
        obtain ⟨lease, hlookup, hupgraded, hcharged, hle⟩ := hnextHolds leaseId hleaseId
        refine ⟨lease, hlookup, hupgraded, hcharged, ?_⟩
        rw [hsame]
        exact (Nat.le_max_right _ _).trans hle
    · exact Or.inr ⟨next, hnext, hrefused⟩
  · rw [hasked]
    exact Or.inr ⟨asked, rfl, hrefused⟩

/-- A write of the serializer takes place among other requests, with an allocator that never
refuses. -/
structure Write.Sound (setting : Setting) (write : Write) : Prop where
  succeeds : write.allocator.Succeeds
  before : setting.Others write.before
  between : setting.Others write.between

/-- A write within the maximum is appended with its charge, or a charge is refused; a write beyond
the maximum is too large. -/
theorem append_cases (hwithin : setting.Within start writer) (hheld : start.phase = .held)
    {write : Write} (hsound : write.Sound setting) :
    (writer.bytes.length + write.bytes.length ≤ setting.maximum.val ∧
      ((∃ next, setting.append write writer = (.ok write.bytes.length, next) ∧
          next.bytes.items = writer.bytes.items ++ write.bytes ∧ setting.Within start next ∧
          (writer.Granted → next.Granted)) ∨
        ∃ next, setting.append write writer = (.error .gatewayOverloaded, next) ∧
          ¬ next.Granted)) ∨
      (setting.maximum.val < writer.bytes.length + write.bytes.length ∧
        setting.append write writer = (.error setting.tooLarge, writer)) := by
  have hmax := setting.maximum.isLt
  by_cases hfits : writer.bytes.length + write.bytes.length ≤ setting.maximum.val
  · left
    refine ⟨hfits, ?_⟩
    have hsum : (checkedAdd 64 writer.bytes.length write.bytes.length).filter
        (· ≤ setting.maximum.val) = some (writer.bytes.length + write.bytes.length) := by
      rw [checkedAdd_eq_some.mpr ⟨rfl, by omega⟩, Option.filter_some,
        if_pos (decide_eq_true hfits)]
    generalize hcapacity : min (max (saturatingMul 64 writer.bytes.capacity 2)
      (writer.bytes.length + write.bytes.length)) setting.maximum.val = capacity
    have hcovers : writer.bytes.length + write.bytes.length ≤ capacity := by
      omega
    unfold Setting.append
    rw [hsum]
    dsimp only
    rw [hcapacity]
    split_ifs with hgrows
    · rcases grow_cases hwithin hheld hsound.succeeds hsound.before hsound.between
        (by omega : writer.bytes.length ≤ capacity) with
        ⟨grown, hgrown, hitems, hroom, hgrownWithin, hgranted⟩ | ⟨grown, hgrown, hrefused⟩
      · left
        rw [hgrown]
        have hlength : grown.bytes.length = writer.bytes.length := congrArg List.length hitems
        have hkept : (grown.bytes.extend write.bytes).capacity = grown.bytes.capacity :=
          capacity_extend (by omega)
        refine ⟨_, rfl, ?_, ?_, hgranted⟩
        · show grown.bytes.items ++ write.bytes = _
          rw [hitems]
        · intro leaseId hleaseId
          obtain ⟨lease, hlookup, hupgraded, hcharged, hle⟩ := hgrownWithin leaseId hleaseId
          exact ⟨lease, hlookup, hupgraded, hcharged, hkept.le.trans hle⟩
      · rw [hgrown]
        exact Or.inr ⟨grown, rfl, hrefused⟩
    · left
      have hkept : (writer.bytes.extend write.bytes).capacity = writer.bytes.capacity :=
        capacity_extend (Nat.le_of_not_lt hgrows)
      refine ⟨_, rfl, rfl, ?_, id⟩
      intro leaseId hleaseId
      obtain ⟨lease, hlookup, hupgraded, hcharged, hle⟩ := hwithin leaseId hleaseId
      exact ⟨lease, hlookup, hupgraded, hcharged, hkept.le.trans hle⟩
  · right
    have hnone : (checkedAdd 64 writer.bytes.length write.bytes.length).filter
        (· ≤ setting.maximum.val) = none := by
      rw [Option.filter_eq_none_iff]
      intro length hlength
      obtain ⟨rfl, -⟩ := checkedAdd_eq_some.mp hlength
      simpa using hfits
    refine ⟨Nat.lt_of_not_le hfits, ?_⟩
    unfold Setting.append
    rw [hnone]

/-! ### Every sequence of writes -/

/-- The bytes of a sequence of writes. -/
def written (writes : List Write) : List UInt8 :=
  (writes.map Write.bytes).flatten

/-- Why a writer has failed: its writes are too large and every charge was granted, or one was
refused.
-/
def Setting.Failed (setting : Setting) (total : ℕ) (writer : Writer) (error : GatewayError) :
    Prop :=
  (writer.Granted ∧ setting.maximum.val < total ∧ error = setting.tooLarge) ∨
    (¬ writer.Granted ∧ error = .gatewayOverloaded)

/-- The run of a serializer, in one case distinction. The induction is on the writes, for the writer
that finds them. -/
theorem toWriter_cases (hheld : start.phase = .held) {writes : List Write}
    (hsound : ∀ write ∈ writes, write.Sound setting) (hwithin : setting.Within start writer)
    (hgranted : writer.Granted) (hfits : writer.bytes.length ≤ setting.maximum.val) :
    (∃ next, setting.toWriter writes writer = (.ok (), next) ∧
        next.bytes.items = writer.bytes.items ++ written writes ∧
        writer.bytes.length + (written writes).length ≤ setting.maximum.val ∧
        setting.Within start next ∧ next.Granted) ∨
      ∃ next error, setting.toWriter writes writer = (.error (), next) ∧
        next.error = some error ∧
        setting.Failed (writer.bytes.length + (written writes).length) next error := by
  induction writes generalizing writer with
  | nil =>
    left
    exact ⟨writer, rfl, (List.append_nil _).symm, hfits, hwithin, hgranted⟩
  | cons write rest ih =>
    have hrest : ∀ other ∈ rest, other.Sound setting := fun other hother ↦
      hsound other (List.mem_cons_of_mem write hother)
    have hwritten : written (write :: rest) = write.bytes ++ written rest := rfl
    rw [Setting.toWriter, Setting.write, hwritten, List.length_append]
    rcases append_cases hwithin hheld (hsound write List.mem_cons_self) with
      ⟨hroom, ⟨next, happend, hitems, hnextWithin, hnextGranted⟩ | ⟨next, happend, hrefused⟩⟩ |
        ⟨htooLarge, happend⟩
    · rw [happend]
      dsimp only
      have hlength : next.bytes.length = writer.bytes.length + write.bytes.length := by
        rw [Buffer.length, hitems, List.length_append]
        rfl
      rcases ih hrest hnextWithin (hnextGranted hgranted) (by omega) with
        ⟨last, hrun, hall, htotal, hlastWithin, hlastGranted⟩ | ⟨last, error, hrun, hkept, hfailed⟩
      · left
        refine ⟨last, hrun, ?_, by omega, hlastWithin, hlastGranted⟩
        rw [hall, hitems, List.append_assoc]
      · right
        refine ⟨last, error, hrun, hkept, ?_⟩
        rw [hlength, Nat.add_assoc] at hfailed
        exact hfailed
    · right
      rw [happend]
      exact ⟨_, _, rfl, rfl, .inr ⟨hrefused, rfl⟩⟩
    · right
      rw [happend]
      exact ⟨_, _, rfl, rfl, .inl ⟨hgranted, by omega, rfl⟩⟩

/-- A writer that has begun. -/
theorem begin_cases {state : BodyAdmission.State} (hheld : start.phase = .held)
    (hholds : setting.Holds start 0 (Writer.new state)) :
    (∃ next, setting.ask [] .beginProcessing (Writer.new state) = (.ok (), next) ∧
        next.bytes = .empty ∧ setting.Within start next ∧ next.Granted) ∨
      ∃ next, setting.ask [] .beginProcessing (Writer.new state) =
          (.error .gatewayOverloaded, next) ∧ ¬ next.Granted := by
  have hnone : setting.Others [] := fun _ _ action hmem ↦ absurd hmem List.not_mem_nil
  rcases ask_cases hholds hnone fun state leaseId lease hlookup hupgraded hcharged ↦
    BodyAdmission.perform_beginProcessing hlookup (hupgraded.phase.trans hheld) hcharged with
    ⟨next, hnext, hbytes, hnextHolds, hgranted⟩ | ⟨next, hnext, -, hrefused⟩
  · left
    refine ⟨next, hnext, hbytes, ?_, hgranted (fun _ hmem ↦ absurd hmem List.not_mem_nil)⟩
    intro leaseId hleaseId
    obtain ⟨lease, hlookup, hupgraded, hcharged, -⟩ := hnextHolds leaseId hleaseId
    refine ⟨lease, hlookup, hupgraded, hcharged, ?_⟩
    rw [hbytes]
    exact Nat.zero_le _
  · exact .inr ⟨next, hnext, hrefused⟩

end Charges

/-! ### The serialized body -/

/-- Assumes: a reachable state, a lease of the request that is held in it (if the request has one),
and writes among steps of other requests, with allocators that never refuse. The body is serialized
if and only if it is within the maximum and every charge is granted, and is then the concatenation
of the writes. After every write that succeeds the capacity of the vector is within the rewrite
capacity of the lease, which has kept what it holds for its input and is charged no less. A failure
is too large when no charge was refused, and then the body is beyond the maximum; otherwise it is
the refusal of the lease. -/
theorem serialized_within_admission (setting : Setting) (actions : List Action) (start : Lease)
    (writes : List Write)
    (hlease : ∀ leaseId ∈ setting.leaseId,
      (BodyAdmission.State.after setting.controller actions).leases.lookup leaseId = some start)
    (hheld : start.phase = .held) (hsound : ∀ write ∈ writes, write.Sound setting) :
    let state := BodyAdmission.State.after setting.controller actions
    let begun := setting.ask [] .beginProcessing (Writer.new state)
    let result := serializeWithAdmission setting writes state
    ((∃ body, result.1 = .ok body) ↔
        (written writes).length ≤ setting.maximum.val ∧ result.2.Granted) ∧
      (∀ body, result.1 = .ok body → body = written writes) ∧
      (∀ first second next, writes = first ++ second → begun.1 = .ok () →
        setting.toWriter first begun.2 = (.ok (), next) → ∀ leaseId ∈ setting.leaseId,
          ∃ lease, next.admission.leases.lookup leaseId = some lease ∧
            next.bytes.capacity ≤ lease.rewriteCapacity ∧ start.Upgraded lease) ∧
      ∀ error, result.1 = .error error →
        setting.Failed (written writes).length result.2 error := by
  intro state begun result
  have hholds : setting.Holds start 0 (Writer.new state) := by
    intro leaseId hleaseId
    refine ⟨start, hlease leaseId hleaseId, .refl start, fun policy hpolicy ↦ ?_, Nat.zero_le _⟩
    exact BodyAdmission.charged_after hpolicy actions leaseId start (hlease leaseId hleaseId)
      (.inl hheld)
  have hresult : result = serializeWithAdmission setting writes state := rfl
  unfold serializeWithAdmission at hresult
  rcases begin_cases hheld hholds with
    ⟨writer, hbegun, hempty, hwithin, hgranted⟩ | ⟨writer, hbegun, hrefused⟩
  · have hitems : writer.bytes.items = [] := congrArg Buffer.items hempty
    have hlength : writer.bytes.length = 0 := congrArg Buffer.length hempty
    have hstart : begun = (.ok (), writer) := hbegun
    rw [hbegun] at hresult
    dsimp only at hresult
    have hmoments : ∀ first second next, writes = first ++ second → begun.1 = .ok () →
        setting.toWriter first begun.2 = (.ok (), next) → ∀ leaseId ∈ setting.leaseId,
          ∃ lease, next.admission.leases.lookup leaseId = some lease ∧
            next.bytes.capacity ≤ lease.rewriteCapacity ∧ start.Upgraded lease := by
      intro first second next hwrites _ hrun leaseId hleaseId
      rw [hstart] at hrun
      have hfirst : ∀ write ∈ first, write.Sound setting := fun write hwrite ↦
        hsound write (hwrites ▸ List.mem_append_left second hwrite)
      rcases toWriter_cases hheld hfirst hwithin hgranted (by omega) with
        ⟨other, hother, -, -, hotherWithin, -⟩ | ⟨other, error, hother, -⟩
      · obtain rfl : other = next := (Prod.mk.inj (hother.symm.trans hrun)).2
        obtain ⟨lease, hlookup, hupgraded, -, hcapacity⟩ := hotherWithin leaseId hleaseId
        exact ⟨lease, hlookup, hcapacity, hupgraded⟩
      · exact nomatch (Prod.mk.inj (hother.symm.trans hrun)).1
    rcases toWriter_cases hheld hsound hwithin hgranted (by omega) with
      ⟨next, hrun, hbody, htotal, -, hnextGranted⟩ | ⟨next, error, hrun, hkept, hfailed⟩
    · rw [hrun] at hresult
      rw [hitems, List.nil_append] at hbody
      rw [hlength, Nat.zero_add] at htotal
      rw [hresult]
      refine ⟨⟨fun _ ↦ ⟨htotal, hnextGranted⟩, fun _ ↦ ⟨_, rfl⟩⟩, fun body hok ↦ ?_,
        hmoments, nofun⟩
      exact (Except.ok.inj hok).symm.trans hbody
    · rw [hrun] at hresult
      dsimp only at hresult
      rw [hkept, Option.getD_some] at hresult
      rw [hlength, Nat.zero_add] at hfailed
      rw [hresult]
      refine ⟨⟨nofun, fun hboth ↦ ?_⟩, nofun, hmoments, fun other hother ↦ ?_⟩
      · rcases hfailed with ⟨-, hover, -⟩ | ⟨hrefused, -⟩
        · exact absurd hboth.1 (Nat.not_le.mpr hover)
        · exact absurd hboth.2 hrefused
      · rw [← Except.error.inj hother]
        exact hfailed
  · have hstart : begun = (.error .gatewayOverloaded, writer) := hbegun
    rw [hbegun] at hresult
    rw [hresult]
    refine ⟨⟨nofun, fun hboth ↦ absurd hboth.2 hrefused⟩, nofun, ?_, fun error herror ↦ ?_⟩
    · intro first second next _ hbegan
      rw [hstart] at hbegan
      exact nomatch hbegan
    · exact .inr ⟨hrefused, (Except.error.inj herror).symm⟩

theorem narrowMaximum_lt : 1024 < 2 ^ 64 := by
  decide

/-- A lease of 100 bytes, and an output of at most 1024. -/
def narrowSetting : Setting where
  controller := BodyAdmission.narrowController
  leaseId := some 0
  maximum := ⟨1024, narrowMaximum_lt⟩
  tooLarge := .requestBodyTooLarge

/-- The steps before the serialization: the body of the request is buffered. -/
def buffered : List Action :=
  [.acquire 0 (some 100), .start 0, .prepareBuffer 0 100 128]

/-- A write of two bytes, with an allocator that grants more than it is asked for, while another
request takes its slot. -/
def smallWrite (surplus : ℕ) : Write where
  bytes := [0x6f, 0x6b]
  allocator := .generous surplus
  before := [.acquire 1 (some 100)]
  between := []

theorem sound_smallWrite (surplus : ℕ) : (smallWrite surplus).Sound narrowSetting where
  succeeds := fun asked ↦ ⟨asked + surplus, rfl⟩
  before := by
    intro leaseId hleaseId action haction
    obtain rfl := Option.some.inj hleaseId
    obtain rfl := List.mem_singleton.mp haction
    exact Nat.one_ne_zero
  between := fun _ _ _ hnone ↦ absurd hnone List.not_mem_nil

/-- A write whose surplus is charged. -/
theorem serialized_within_admission_small :
    ∃ body, (serializeWithAdmission narrowSetting [smallWrite 6]
        (BodyAdmission.State.after narrowSetting.controller buffered)).1 = .ok body ∧
      body = [0x6f, 0x6b] := by
  obtain ⟨hiff, hbody, -⟩ := serialized_within_admission narrowSetting buffered _ [smallWrite 6]
    (fun leaseId hleaseId ↦ by
      obtain rfl := Option.some.inj hleaseId
      rfl) rfl
    (fun write hwrite ↦ List.mem_singleton.mp hwrite ▸ sound_smallWrite 6)
  have hasked : (serializeWithAdmission narrowSetting [smallWrite 6]
      (BodyAdmission.State.after narrowSetting.controller buffered)).2.asked =
        [.done, .done, .done] := by
    decide
  have hgranted : (serializeWithAdmission narrowSetting [smallWrite 6]
      (BodyAdmission.State.after narrowSetting.controller buffered)).2.Granted := by
    unfold Writer.Granted
    rw [hasked]
    simp
  obtain ⟨body, hok⟩ := hiff.mpr ⟨by decide, hgranted⟩
  exact ⟨body, hok, hbody body hok⟩

/-- A write whose surplus is refused: the vector has the capacity that the allocator has granted,
and the lease is charged for what was asked. -/
theorem granted_capacity_refused :
    ∃ writer next lease,
      narrowSetting.ask [] .beginProcessing (Writer.new
        (BodyAdmission.State.after narrowSetting.controller buffered)) = (.ok (), writer) ∧
      (smallWrite 10000000).Sound narrowSetting ∧
      narrowSetting.write (smallWrite 10000000) writer = (.error (), next) ∧
      next.admission.leases.lookup 0 = some lease ∧
      lease.rewriteCapacity < next.bytes.capacity := by
  refine ⟨_, _, _, rfl, sound_smallWrite _, rfl, rfl, ?_⟩
  decide

end Relayna.BodyRewrite

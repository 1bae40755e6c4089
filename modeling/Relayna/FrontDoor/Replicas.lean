import Mathlib.Logic.Function.Basic
import Relayna.FrontDoor.Settings
import Relayna.Library.Transition
import Relayna.Library.VersionedRegister

/-!
# Front-door settings across gateways

Gateways share one row of settings and each authenticates callers with a runtime of its own. A
gateway reads the row when it starts, polls it (`crates/gateway-api/src/auth_sync.rs`), and reads it
again after a save of its own (`patch_gateway_auth_settings` of `crates/gateway-api/src/app.rs`).
A save reads the row, patches it and writes it back without a lock, so saves may overwrite each
other. A refresh reads the row and installs it under a lock of the gateway
(`SharedGatewayAuthRuntime::refresh_from_store`).

Every wait is a step: reads and writes of the database, the lock, and the audit. The database may
fail or its reply be lost, a refresh may time out, a request may be dropped, and a gateway may stop
and start again. `settings_followed` says that the runtime of a gateway is at all times that of one
version of the row, that no version is ever followed by an older one, and that a save that was
answered stays in force at its gateway until a later one. `poll_installs_newest` says that one
undisturbed poll is enough to follow the last save.

The version of a copy and the list of refreshes that completed are there for the proofs; no step
depends on them.
-/

set_option autoImplicit false
set_option relaxedAutoImplicit false

namespace Relayna.FrontDoor

open Relayna.Auth.Entra (Text)
open Relayna.Library.Transition (run run_append run_cons run_invariant run_nil)
open Relayna.Library.VersionedRegister
open Relayna.Passthrough.PathPolicy (eqIgnoreAsciiCase trim)

/-! ### Saves and refreshes -/

/-- The row of settings, as a copy. -/
abbrev StoredCopy := Copy StoredGatewayAuthSettings

/-- What a refresh is for: a poll, or a save that has written its row and will be audited. -/
inductive Goal
  | poll (since : ℕ)
  | save (before : GatewayAuthSettingsResponse) (written : StoredCopy)

/-- The version that was there when the refresh was called. -/
def Goal.since : Goal → ℕ
  | .poll since => since
  | .save _ written => written.version

/-- Where a poll or a save stands. -/
inductive Call
  | starting (patch : GatewayAuthSettingsPatchRequest)
  | patching (before : GatewayAuthSettingsResponse) (patch : GatewayAuthSettingsPatchRequest)
  | writing (before : GatewayAuthSettingsResponse) (next : StoredGatewayAuthSettings)
  | waiting (goal : Goal)
  | reading (goal : Goal)
  | loaded (goal : Goal) (copy : StoredCopy)
  | auditing (before after : GatewayAuthSettingsResponse) (written : StoredCopy)

/-- The call holds the lock of refreshes. -/
def Call.holds : Call → Bool
  | .reading _ | .loaded _ _ => true
  | _ => false

/-- What the database and the client for keys reply: the statement had its effect, its result
arrived, the time of the database, and the client could be built. -/
structure Reply where
  effective : Bool
  arrived : Bool
  now : Timestamp
  client : Bool

/-- The checks of the table on a row. -/
def StoredGatewayAuthSettings.checks (row : StoredGatewayAuthSettings) : Bool :=
  (row.oidcDiscoveryUrl.all fun url ↦
    "http://".toList.isPrefixOf (url.map Char.toLower) ||
      "https://".toList.isPrefixOf (url.map Char.toLower)) &&
    !(row.unverifiedBearerEnabled && row.apigeeTrustedHeaderEnabled)

/-- The check of `patch_gateway_auth_settings` on a key header: no service forwards tokens in it.
The services are read only for a patch that has one. -/
def checkForwarding (env : GatewayAuthEnv) (patch : GatewayAuthSettingsPatchRequest)
    (forwardingHeaders : GatewayResult (List Text)) : GatewayResult Unit :=
  match patch.relaynaKeyHeader with
  | none => .ok ()
  | some header => do
    let keyHeader := if (trim header).isEmpty then env.relaynaKeyHeader else trim header
    if (← forwardingHeaders).any (eqIgnoreAsciiCase · keyHeader) then
      .error .invalidConfiguration
    else .ok ()

/-! ### Gateways -/

/-- A gateway that runs. `source` is the copy that its runtime was installed from. -/
structure Gateway where
  env : GatewayAuthEnv
  runtime : GatewayAuthRuntimeState
  serial : ℕ
  source : StoredCopy
  lock : Option ℕ
  calls : ℕ → Option Call

/-- What a save is answered: the settings in force, with the row it wrote, or an error. -/
inductive Answer
  | saved (response : GatewayAuthSettingsResponse) (written : StoredCopy)
  | failed (error : GatewayError)

structure AuditEvent where
  before : GatewayAuthSettingsResponse
  after : GatewayAuthSettingsResponse

/-- The database, the gateways that run, and what has come of their calls. -/
structure World (Replica : Type) where
  rows : List StoredGatewayAuthSettings
  gateways : Replica → Option Gateway
  refreshed : List (Replica × ℕ)
  answers : List (Replica × Answer)
  shown : List (Replica × GatewayResult GatewayAuthSettingsResponse)
  audits : List AuditEvent

/-- A database without the row, and no gateway. -/
def World.empty (Replica : Type) : World Replica :=
  ⟨[], fun _ ↦ none, [], [], [], []⟩

/-- What happens: a gateway starts or stops, a poll or a save begins, the settings are shown, a call
takes its next step, or it is dropped. A save begins with what it read of the services. -/
inductive Action (Replica : Type)
  | start (replica : Replica) (env : GatewayAuthEnv) (client : Bool)
  | stop (replica : Replica)
  | poll (replica : Replica) (id : ℕ)
  | save (replica : Replica) (id : ℕ) (patch : GatewayAuthSettingsPatchRequest)
    (forwardingHeaders : GatewayResult (List Text))
  | get (replica : Replica) (reply : Reply)
  | proceed (replica : Replica) (id : ℕ) (reply : Reply)
  | drop (replica : Replica) (id : ℕ)

/-- A gateway with a call that stands elsewhere. -/
def Gateway.put (gateway : Gateway) (id : ℕ) (call : Option Call) : Gateway :=
  { gateway with calls := Function.update gateway.calls id call }

/-- A gateway without a call, which gives the lock back if it holds it. -/
def Gateway.finish (gateway : Gateway) (id : ℕ) : Gateway :=
  { gateway.put id none with lock := if gateway.lock = some id then none else gateway.lock }

section Step

variable {Replica : Type} [DecidableEq Replica]

/-- The world with a gateway that has changed. -/
def World.put (world : World Replica) (replica : Replica) (gateway : Gateway) : World Replica :=
  { world with gateways := Function.update world.gateways replica (some gateway) }

/-- A save fails, and its call is over. -/
def World.fail (world : World Replica) (replica : Replica) (gateway : Gateway) (id : ℕ)
    (error : GatewayError) : World Replica :=
  let world := world.put replica (gateway.finish id)
  { world with answers := (replica, .failed error) :: world.answers }

/-- A refresh fails. A poll keeps what is in force and goes on, a save is answered with the error.
-/
def World.failRefresh (world : World Replica) (replica : Replica) (gateway : Gateway) (id : ℕ)
    (goal : Goal) (error : GatewayError) : World Replica :=
  match goal with
  | .poll _ => world.put replica (gateway.finish id)
  | .save _ _ => world.fail replica gateway id error

/-- `main` as far as `SharedGatewayAuthRuntime::new`. Nothing else uses the runtime before, so the
read and the installation are one step. -/
def World.start (world : World Replica) (replica : Replica) (env : GatewayAuthEnv)
    (client : Bool) : World Replica :=
  let copy := newest world.rows
  match fromSources copy.value env with
  | .error _ => world
  | .ok settings =>
    match GatewayAuthRuntimeState.new settings.runtimeConfig client 0 with
    | .error _ => world
    | .ok runtime => world.put replica ⟨env, runtime, 1, copy, none, fun _ ↦ none⟩

/-- What a save writes, `INSERT … ON CONFLICT DO UPDATE`. -/
def World.write (world : World Replica) (replica : Replica) (gateway : Gateway) (id : ℕ)
    (before : GatewayAuthSettingsResponse) (next : StoredGatewayAuthSettings) (reply : Reply) :
    World Replica :=
  if reply.effective && next.checks then
    let row := { next with updatedAt := some reply.now }
    let written : World Replica := { world with rows := row :: world.rows }
    if reply.arrived then
      written.put replica (gateway.put id (some (.waiting (.save before (newest written.rows)))))
    else written.fail replica gateway id .storeUnavailable
  else world.fail replica gateway id .storeUnavailable

/-- `from_sources` and `update` of a refresh that has read the row. -/
def World.install (world : World Replica) (replica : Replica) (gateway : Gateway) (id : ℕ)
    (goal : Goal) (copy : StoredCopy) (client : Bool) : World Replica :=
  match fromSources copy.value gateway.env with
  | .error error => world.failRefresh replica gateway id goal error
  | .ok settings =>
    match gateway.runtime.update settings.runtimeConfig client gateway.serial with
    | .error error => world.failRefresh replica gateway id goal error
    | .ok runtime =>
      let gateway := { gateway with runtime, serial := gateway.serial + 1, source := copy }
      let world := { world with refreshed := (replica, goal.since) :: world.refreshed }
      match goal with
      | .poll _ => world.put replica (gateway.finish id)
      | .save before written =>
        world.put replica
          ((gateway.finish id).put id (some (.auditing before settings.response written)))

/-- The next step of a call. -/
def World.proceed (world : World Replica) (replica : Replica) (gateway : Gateway) (id : ℕ)
    (call : Call) (reply : Reply) : World Replica :=
  match call with
  | .starting patch =>
    if reply.arrived then
      match fromSources world.rows.head? gateway.env with
      | .error error => world.fail replica gateway id error
      | .ok settings =>
        world.put replica (gateway.put id (some (.patching settings.response patch)))
    else world.fail replica gateway id .storeUnavailable
  | .patching before patch =>
    if reply.arrived then
      match (world.rows.head?.getD .default).applyPatch patch with
      | .error error => world.fail replica gateway id error
      | .ok next => world.put replica (gateway.put id (some (.writing before next)))
    else world.fail replica gateway id .storeUnavailable
  | .writing before next => world.write replica gateway id before next reply
  | .waiting goal =>
    if gateway.lock.isNone then
      world.put replica { gateway.put id (some (.reading goal)) with lock := some id }
    else world
  | .reading goal =>
    if reply.arrived then
      world.put replica (gateway.put id (some (.loaded goal (newest world.rows))))
    else world.failRefresh replica gateway id goal .storeUnavailable
  | .loaded goal copy => world.install replica gateway id goal copy reply.client
  | .auditing before after written =>
    if reply.effective then
      let audited := { world with audits := ⟨before, after⟩ :: world.audits }
      if reply.arrived then
        let done := audited.put replica (gateway.finish id)
        { done with answers := (replica, .saved after written) :: done.answers }
      else audited.fail replica gateway id .storeUnavailable
    else world.fail replica gateway id .storeUnavailable

/-- What an action does. A call gets a number that no call under way has. -/
def step (world : World Replica) : Action Replica → World Replica
  | .start replica env client =>
    if (world.gateways replica).isNone then world.start replica env client else world
  | .stop replica => { world with gateways := Function.update world.gateways replica none }
  | .poll replica id =>
    match world.gateways replica with
    | none => world
    | some gateway =>
      if (gateway.calls id).isNone then
        world.put replica (gateway.put id (some (.waiting (.poll world.rows.length))))
      else world
  | .save replica id patch forwardingHeaders =>
    match world.gateways replica with
    | none => world
    | some gateway =>
      if (gateway.calls id).isNone then
        match checkForwarding gateway.env patch forwardingHeaders with
        | .error error => { world with answers := (replica, .failed error) :: world.answers }
        | .ok () => world.put replica (gateway.put id (some (.starting patch)))
      else world
  | .get replica reply =>
    match world.gateways replica with
    | none => world
    | some gateway =>
      let response : GatewayResult GatewayAuthSettingsResponse :=
        if reply.arrived then
          EffectiveGatewayAuthSettings.response <$> fromSources world.rows.head? gateway.env
        else .error .storeUnavailable
      { world with shown := (replica, response) :: world.shown }
  | .proceed replica id reply =>
    match world.gateways replica with
    | none => world
    | some gateway =>
      match gateway.calls id with
      | none => world
      | some call => world.proceed replica gateway id call reply
  | .drop replica id =>
    match world.gateways replica with
    | none => world
    | some gateway => world.put replica (gateway.finish id)

end Step

/-! ### What holds of a gateway -/

/-- A goal refers to versions that were written. -/
structure Goal.Fits (rows : List StoredGatewayAuthSettings) (goal : Goal) : Prop where
  since : goal.since ≤ rows.length
  written : ∀ before written, goal = .save before written → written.Of rows

/-- A call fits the row and the copy that is installed: a copy it has read is not older than what it
was called for, nor than what is installed, and a save whose refresh is over is in force. -/
def Call.Fits (rows : List StoredGatewayAuthSettings) (source : StoredCopy) : Call → Prop
  | .starting _ | .patching _ _ => True
  | .writing _ next => next.Settled
  | .waiting goal | .reading goal => goal.Fits rows
  | .loaded goal copy =>
    goal.Fits rows ∧ copy.Of rows ∧ goal.since ≤ copy.version ∧ source.version ≤ copy.version
  | .auditing _ _ written => written.Of rows ∧ written.version ≤ source.version

/-- The runtime of a gateway is that of its copy of the row, its calls fit, and the lock is held by
the call that reads or installs. -/
structure Gateway.Follows (rows : List StoredGatewayAuthSettings) (gateway : Gateway) : Prop where
  source : gateway.source.Of rows
  config : ∃ settings, fromSources gateway.source.value gateway.env = .ok settings ∧
    gateway.runtime.config = settings.runtimeConfig
  sound : gateway.runtime.Sound
  calls : ∀ id call, gateway.calls id = some call → call.Fits rows gateway.source
  lock : ∀ id, gateway.lock = some id ↔ ∃ call, gateway.calls id = some call ∧ call.holds = true

section Gateways

variable {rows : List StoredGatewayAuthSettings}

theorem Gateway.put_self (gateway : Gateway) (id : ℕ) (call : Option Call) :
    (gateway.put id call).calls id = call :=
  Function.update_self ..

theorem Gateway.put_of_ne (gateway : Gateway) {id other : ℕ} (hother : other ≠ id)
    (call : Option Call) : (gateway.put id call).calls other = gateway.calls other :=
  Function.update_of_ne hother ..

theorem Gateway.finish_self (gateway : Gateway) (id : ℕ) : (gateway.finish id).calls id = none :=
  gateway.put_self id none

theorem Goal.Fits.write {goal : Goal} (hgoal : goal.Fits rows) (row : StoredGatewayAuthSettings) :
    goal.Fits (row :: rows) where
  since := Nat.le_succ_of_le hgoal.since
  written := fun before written hsave ↦ (hgoal.written before written hsave).write row

theorem Call.Fits.write {source : StoredCopy} {call : Call} (hcall : call.Fits rows source)
    (row : StoredGatewayAuthSettings) : call.Fits (row :: rows) source := by
  cases call with
  | starting patch => exact trivial
  | patching before patch => exact trivial
  | writing before next => exact hcall
  | waiting goal => exact Goal.Fits.write hcall row
  | reading goal => exact Goal.Fits.write hcall row
  | loaded goal copy =>
    obtain ⟨hgoal, hcopy, hsince, hsource⟩ := hcall
    exact ⟨hgoal.write row, hcopy.write row, hsince, hsource⟩
  | auditing before after written => exact ⟨hcall.1.write row, hcall.2⟩

/-- Assumes: a call that does not hold the lock. It fits every later copy. -/
theorem Call.Fits.advance {source later : StoredCopy} {call : Call}
    (hcall : call.Fits rows source) (hfree : call.holds = false)
    (hlater : source.version ≤ later.version) : call.Fits rows later := by
  cases call with
  | starting patch => exact trivial
  | patching before patch => exact trivial
  | writing before next => exact hcall
  | waiting goal => exact hcall
  | reading goal => exact hcall
  | loaded goal copy => cases hfree
  | auditing before after written => exact ⟨hcall.1, hcall.2.trans hlater⟩

/-- Writing the row leaves a gateway what it was. -/
theorem Gateway.Follows.write {gateway : Gateway} (hgateway : gateway.Follows rows)
    (row : StoredGatewayAuthSettings) : gateway.Follows (row :: rows) where
  source := hgateway.source.write row
  config := hgateway.config
  sound := hgateway.sound
  calls := fun id call hcall ↦ (hgateway.calls id call hcall).write row
  lock := hgateway.lock

/-- Assumes: a call that fits, and a lock that is held by it or as before. The gateway follows with
the call in the place of another. -/
theorem Gateway.Follows.move {gateway : Gateway} (hgateway : gateway.Follows rows) {id : ℕ}
    {call : Option Call} {lock : Option ℕ}
    (hother : ∀ other, other ≠ id → (lock = some other ↔ gateway.lock = some other))
    (hself : lock = some id ↔ ∃ found, call = some found ∧ found.holds = true)
    (hfits : ∀ found, call = some found → found.Fits rows gateway.source) :
    Gateway.Follows rows { gateway.put id call with lock := lock } where
  source := hgateway.source
  config := hgateway.config
  sound := hgateway.sound
  calls := fun other found hfound ↦ by
    by_cases hid : other = id
    · subst hid
      exact hfits found ((gateway.put_self other call).symm.trans hfound)
    · exact hgateway.calls other found ((gateway.put_of_ne hid call).symm.trans hfound)
  lock := fun other ↦ by
    show lock = some other ↔ ∃ found,
      (gateway.put id call).calls other = some found ∧ found.holds = true
    by_cases hid : other = id
    · subst hid
      rw [gateway.put_self]
      exact hself
    · rw [gateway.put_of_ne hid, hother other hid]
      exact hgateway.lock other

/-- Assumes: a place without a call, or with one that does not hold the lock. The lock is not held
from there. -/
theorem Gateway.Follows.lock_ne {gateway : Gateway} (hgateway : gateway.Follows rows) {id : ℕ}
    (hfree : ∀ call, gateway.calls id = some call → call.holds = false) :
    gateway.lock ≠ some id := by
  intro hlock
  obtain ⟨call, hcall, hholds⟩ := (hgateway.lock id).mp hlock
  rw [hfree call hcall] at hholds
  cases hholds

/-- Assumes: a call that does not hold the lock is replaced by one that does not and that fits. -/
theorem Gateway.Follows.put {gateway : Gateway} (hgateway : gateway.Follows rows) {id : ℕ}
    {call : Call} (hfree : ∀ call, gateway.calls id = some call → call.holds = false)
    (hcall : call.holds = false) (hfits : call.Fits rows gateway.source) :
    (gateway.put id (some call)).Follows rows := by
  refine hgateway.move (fun other _ ↦ Iff.rfl) ?_ fun found hfound ↦ ?_
  · refine iff_of_false (hgateway.lock_ne hfree) ?_
    rintro ⟨found, hfound, hholds⟩
    obtain rfl := Option.some.inj hfound
    rw [hcall] at hholds
    cases hholds
  · obtain rfl := Option.some.inj hfound
    exact hfits

/-- A call that is over leaves a gateway that follows. -/
theorem Gateway.Follows.finish {gateway : Gateway} (hgateway : gateway.Follows rows) (id : ℕ) :
    (gateway.finish id).Follows rows := by
  refine hgateway.move (fun other hother ↦ ?_) ?_ fun found hfound ↦ ?_
  · by_cases hlock : gateway.lock = some id
    · rw [if_pos hlock, hlock]
      exact iff_of_false (Option.some_ne_none _).symm fun hsame ↦
        hother (Option.some.inj hsame).symm
    · rw [if_neg hlock]
  · refine iff_of_false ?_ ?_
    · by_cases hlock : gateway.lock = some id
      · rw [if_pos hlock]
        exact (Option.some_ne_none _).symm
      · rw [if_neg hlock]
        exact hlock
    · rintro ⟨found, hfound, -⟩
      cases hfound
  · cases hfound

/-- Assumes: the call that holds the lock has read a copy that is not behind, and its settings are
put into force. The gateway follows that copy, with the call over. -/
theorem Gateway.Follows.install {gateway : Gateway} (hgateway : gateway.Follows rows) {id : ℕ}
    {goal : Goal} {copy : StoredCopy} {settings : EffectiveGatewayAuthSettings} {client : Bool}
    {runtime : GatewayAuthRuntimeState}
    (hcall : gateway.calls id = some (.loaded goal copy))
    (hsettings : fromSources copy.value gateway.env = .ok settings)
    (hruntime : gateway.runtime.update settings.runtimeConfig client gateway.serial =
      .ok runtime) :
    Gateway.Follows rows
      ({ gateway with runtime, serial := gateway.serial + 1, source := copy }.finish id) := by
  obtain ⟨hconfig, hsound⟩ := hgateway.sound.update hruntime
  obtain ⟨-, hcopy, -, hbehind⟩ := hgateway.calls id _ hcall
  have hlock : gateway.lock = some id := (hgateway.lock id).mpr ⟨_, hcall, rfl⟩
  have hfinished := hgateway.finish id
  refine ⟨hcopy, ⟨settings, hsettings, hconfig⟩, hsound, fun other found hfound ↦ ?_,
    hfinished.lock⟩
  have hfree : found.holds = false := by
    by_contra hholds
    rw [Bool.not_eq_false] at hholds
    have hheld := (hfinished.lock other).mpr ⟨found, hfound, hholds⟩
    rw [Gateway.finish, if_pos hlock] at hheld
    cases hheld
  exact (hfinished.calls other found hfound).advance hfree hbehind

end Gateways

/-! ### What holds of the world -/

section World

variable {Replica : Type} {floors : Replica → ℕ → Prop}

/-- A version was written, and the gateway, if it runs, has installed it or a later one. -/
structure World.Beyond (world : World Replica) (replica : Replica) (version : ℕ) : Prop where
  written : version ≤ world.rows.length
  installed : ∀ gateway, world.gateways replica = some gateway → version ≤ gateway.source.version

/-- Every row was left by a patch, every gateway follows the row, and is beyond what its refreshes
were called for, what its saves were answered with, and the versions that are given. -/
structure Orderly (floors : Replica → ℕ → Prop) (world : World Replica) : Prop where
  rows : ∀ row ∈ world.rows, row.Settled
  gateways : ∀ replica gateway, world.gateways replica = some gateway →
    gateway.Follows world.rows
  refreshed : ∀ replica since, (replica, since) ∈ world.refreshed → world.Beyond replica since
  answers : ∀ replica response written, (replica, .saved response written) ∈ world.answers →
    written.Of world.rows ∧ world.Beyond replica written.version
  floors : ∀ replica version, floors replica version → world.Beyond replica version

theorem orderly_empty (Replica : Type) :
    Orderly (fun (_ : Replica) _ ↦ False) (World.empty Replica) where
  rows := fun row hrow ↦ by cases hrow
  gateways := fun replica gateway hgateway ↦ by cases hgateway
  refreshed := fun replica since hmem ↦ by cases hmem
  answers := fun replica response written hmem ↦ by cases hmem
  floors := fun replica version hfloor ↦ hfloor.elim

/-- Assumes: the rows and the gateways of another world are in order, no copy and no version is lost
on the way to it, and what it records anew is right. It is orderly too. -/
theorem Orderly.carry {world next : World Replica} (horderly : Orderly floors world)
    (hrows : ∀ row ∈ next.rows, row.Settled)
    (hgateways : ∀ replica gateway, next.gateways replica = some gateway →
      gateway.Follows next.rows)
    (hcopies : ∀ copy : StoredCopy, copy.Of world.rows → copy.Of next.rows)
    (hbeyond : ∀ replica version, world.Beyond replica version → next.Beyond replica version)
    (hrefreshed : ∀ replica since, (replica, since) ∈ next.refreshed →
      (replica, since) ∈ world.refreshed ∨ world.Beyond replica since)
    (hanswers : ∀ replica response written, (replica, .saved response written) ∈ next.answers →
      (replica, .saved response written) ∈ world.answers ∨
        written.Of world.rows ∧ world.Beyond replica written.version) :
    Orderly floors next := by
  refine ⟨hrows, hgateways, fun replica since hmem ↦ ?_, fun replica response written hmem ↦ ?_,
    fun replica version hfloor ↦ ?_⟩
  · rcases hrefreshed replica since hmem with hold | hnew
    · exact hbeyond replica since (horderly.refreshed replica since hold)
    · exact hbeyond replica since hnew
  · rcases hanswers replica response written hmem with hold | ⟨hwritten, hnew⟩
    · obtain ⟨hwritten, hbefore⟩ := horderly.answers replica response written hold
      exact ⟨hcopies written hwritten, hbeyond replica _ hbefore⟩
    · exact ⟨hcopies written hwritten, hbeyond replica _ hnew⟩
  · exact hbeyond replica version (horderly.floors replica version hfloor)

/-- Assumes: a row that was left by a patch. Writing it keeps the world orderly. -/
theorem Orderly.write {world : World Replica} (horderly : Orderly floors world)
    {row : StoredGatewayAuthSettings} (hrow : row.Settled) :
    Orderly floors { world with rows := row :: world.rows } := by
  refine horderly.carry (fun other hmem ↦ ?_) (fun replica gateway hgateway ↦ ?_)
    (fun copy hcopy ↦ hcopy.write row) (fun replica version hbefore ↦ ?_)
    (fun replica since hmem ↦ Or.inl hmem) fun replica response written hmem ↦ Or.inl hmem
  · rcases List.mem_cons.mp hmem with rfl | hmem
    · exact hrow
    · exact horderly.rows other hmem
  · exact (horderly.gateways replica gateway hgateway).write row
  · exact ⟨Nat.le_succ_of_le hbefore.written, hbefore.installed⟩

/-- Assumes: what is recorded is right. Recording it keeps the world orderly. -/
theorem Orderly.record {world : World Replica} (horderly : Orderly floors world)
    {refreshed : List (Replica × ℕ)} {answers : List (Replica × Answer)}
    (shown : List (Replica × GatewayResult GatewayAuthSettingsResponse))
    (audits : List AuditEvent)
    (hrefreshed : ∀ replica since, (replica, since) ∈ refreshed →
      (replica, since) ∈ world.refreshed ∨ world.Beyond replica since)
    (hanswers : ∀ replica response written, (replica, .saved response written) ∈ answers →
      (replica, .saved response written) ∈ world.answers ∨
        written.Of world.rows ∧ world.Beyond replica written.version) :
    Orderly floors ⟨world.rows, world.gateways, refreshed, answers, shown, audits⟩ :=
  horderly.carry horderly.rows horderly.gateways (fun _ hcopy ↦ hcopy)
    (fun _ _ hbefore ↦ ⟨hbefore.written, hbefore.installed⟩) hrefreshed hanswers

/-- An error that is answered leaves the world orderly. -/
theorem Orderly.answerError {world : World Replica} (horderly : Orderly floors world)
    (replica : Replica) (error : GatewayError) :
    Orderly floors { world with answers := (replica, .failed error) :: world.answers } := by
  refine horderly.record world.shown world.audits (fun other since hmem ↦ Or.inl hmem) ?_
  intro other response written hmem
  rcases List.mem_cons.mp hmem with hnew | hold
  · cases hnew
  · exact Or.inl hold

variable [DecidableEq Replica]

theorem World.put_self (world : World Replica) (replica : Replica) (gateway : Gateway) :
    (world.put replica gateway).gateways replica = some gateway :=
  Function.update_self ..

theorem World.put_of_ne (world : World Replica) {replica other : Replica}
    (hother : other ≠ replica) (gateway : Gateway) :
    (world.put replica gateway).gateways other = world.gateways other :=
  Function.update_of_ne hother ..

/-- Assumes: a gateway that follows takes the place of one that is not ahead of it, or starts with
the newest row. -/
theorem Orderly.put {world : World Replica} (horderly : Orderly floors world) {replica : Replica}
    {gateway : Gateway} (hfollows : gateway.Follows world.rows)
    (hahead : ∀ version, world.Beyond replica version → version ≤ gateway.source.version) :
    Orderly floors (world.put replica gateway) := by
  refine horderly.carry horderly.rows (fun other found hfound ↦ ?_) (fun _ hcopy ↦ hcopy)
    (fun other version hbefore ↦ ⟨hbefore.written, fun found hfound ↦ ?_⟩)
    (fun other since hmem ↦ Or.inl hmem) fun other response written hmem ↦ Or.inl hmem
  · by_cases hsame : other = replica
    · subst hsame
      obtain rfl := Option.some.inj ((World.put_self ..).symm.trans hfound)
      exact hfollows
    · exact horderly.gateways other found ((World.put_of_ne _ hsame _).symm.trans hfound)
  · by_cases hsame : other = replica
    · subst hsame
      obtain rfl := Option.some.inj ((World.put_self ..).symm.trans hfound)
      exact hahead version hbefore
    · exact hbefore.installed found ((World.put_of_ne _ hsame _).symm.trans hfound)

/-- Assumes: a gateway changes without installing anything. -/
theorem Orderly.change {world : World Replica} (horderly : Orderly floors world)
    {replica : Replica} {gateway next : Gateway}
    (hgateway : world.gateways replica = some gateway) (hfollows : next.Follows world.rows)
    (hsource : next.source = gateway.source) : Orderly floors (world.put replica next) :=
  horderly.put hfollows fun _ hbeyond ↦ hsource ▸ hbeyond.installed gateway hgateway

section Gateway

variable {world : World Replica} {replica : Replica} {gateway : Gateway} {id : ℕ}

theorem Orderly.finish (horderly : Orderly floors world)
    (hgateway : world.gateways replica = some gateway) :
    Orderly floors (world.put replica (gateway.finish id)) :=
  horderly.change hgateway ((horderly.gateways replica gateway hgateway).finish id) rfl

theorem Orderly.fail (horderly : Orderly floors world)
    (hgateway : world.gateways replica = some gateway) (error : GatewayError) :
    Orderly floors (world.fail replica gateway id error) :=
  (horderly.finish hgateway).answerError replica error

theorem Orderly.failRefresh (horderly : Orderly floors world)
    (hgateway : world.gateways replica = some gateway) (goal : Goal) (error : GatewayError) :
    Orderly floors (world.failRefresh replica gateway id goal error) := by
  cases goal with
  | poll since => exact horderly.finish hgateway
  | save before written => exact horderly.fail hgateway error

/-- Assumes: a call that does not hold the lock goes on as one that does not and that fits. -/
theorem Orderly.moveOn (horderly : Orderly floors world)
    (hgateway : world.gateways replica = some gateway) {call : Call}
    (hfree : ∀ call, gateway.calls id = some call → call.holds = false)
    (hcall : call.holds = false) (hfits : call.Fits world.rows gateway.source) :
    Orderly floors (world.put replica (gateway.put id (some call))) :=
  horderly.change hgateway
    ((horderly.gateways replica gateway hgateway).put hfree hcall hfits) rfl

/-- A gateway that starts follows the newest row. -/
theorem Orderly.start (horderly : Orderly floors world) (replica : Replica)
    (env : GatewayAuthEnv) (client : Bool) :
    Orderly floors (world.start replica env client) := by
  unfold World.start
  dsimp only
  split
  · exact horderly
  · rename_i settings hsettings
    split
    · exact horderly
    · rename_i runtime hruntime
      obtain ⟨hconfig, hsound⟩ := GatewayAuthRuntimeState.new_eq_ok hruntime
      refine horderly.put ⟨Copy.of_newest world.rows, ⟨settings, hsettings, hconfig⟩, hsound,
        fun id call hcall ↦ ?_, fun id ↦ ?_⟩ fun version hbeyond ↦ hbeyond.written
      · cases hcall
      · refine iff_of_false (Option.some_ne_none _).symm ?_
        rintro ⟨call, hcall, -⟩
        cases hcall

/-- A save that writes its row goes on to a refresh for this version. -/
theorem Orderly.writeRow (horderly : Orderly floors world)
    (hgateway : world.gateways replica = some gateway) {before : GatewayAuthSettingsResponse}
    {next : StoredGatewayAuthSettings} (hcall : gateway.calls id = some (.writing before next))
    (reply : Reply) : Orderly floors (world.write replica gateway id before next reply) := by
  have hnext : next.Settled := (horderly.gateways replica gateway hgateway).calls id _ hcall
  have hrow : { next with updatedAt := some reply.now }.Settled := ⟨hnext.valid, hnext.header⟩
  unfold World.write
  split
  · have hwritten := horderly.write hrow
    split
    · refine hwritten.moveOn hgateway (fun call hfound ↦ ?_) rfl ⟨Nat.le_refl _, ?_⟩
      · obtain rfl := Option.some.inj (hcall.symm.trans hfound)
        rfl
      · intro found written hsave
        obtain ⟨-, rfl⟩ := Goal.save.inj hsave
        exact Copy.of_newest _
    · exact hwritten.fail hgateway .storeUnavailable
  · exact horderly.fail hgateway .storeUnavailable

/-- A refresh that has read the row installs it, or fails. -/
theorem Orderly.install (horderly : Orderly floors world)
    (hgateway : world.gateways replica = some gateway) {goal : Goal} {copy : StoredCopy}
    (hcall : gateway.calls id = some (.loaded goal copy)) (client : Bool) :
    Orderly floors (world.install replica gateway id goal copy client) := by
  have hfollows := horderly.gateways replica gateway hgateway
  obtain ⟨hgoal, hcopy, hsince, hbehind⟩ := hfollows.calls id _ hcall
  unfold World.install
  split
  · exact horderly.failRefresh hgateway goal _
  · rename_i settings hsettings
    split
    · exact horderly.failRefresh hgateway goal _
    · rename_i runtime hruntime
      have hinstalled := hfollows.install hcall hsettings hruntime
      have hbeyond (next : Gateway) (hnext : next.source = copy) :
          World.Beyond (world.put replica next) replica goal.since := by
        refine ⟨hgoal.since, fun found hfound ↦ ?_⟩
        obtain rfl := Option.some.inj ((World.put_self ..).symm.trans hfound)
        exact hnext ▸ hsince
      have hput (next : Gateway) (hnext : next.source = copy)
          (hfits : next.Follows world.rows) :
          Orderly floors (World.put
            { world with refreshed := (replica, goal.since) :: world.refreshed } replica next) := by
        have hchanged : Orderly floors (world.put replica next) :=
          horderly.put hfits fun version hversion ↦
            hnext ▸ (hversion.installed gateway hgateway).trans hbehind
        refine hchanged.record world.shown world.audits (fun other since hmem ↦ ?_)
          fun other response written hmem ↦ Or.inl hmem
        rcases List.mem_cons.mp hmem with hnew | hold
        · obtain ⟨rfl, rfl⟩ := Prod.mk.inj hnew
          exact Or.inr (hbeyond next hnext)
        · exact Or.inl hold
      cases goal with
      | poll since => exact hput _ rfl hinstalled
      | save before written =>
        refine hput _ rfl (hinstalled.put (fun call hfound ↦ ?_) rfl
          ⟨hgoal.written before written rfl, hsince⟩)
        rw [Gateway.finish_self] at hfound
        cases hfound

/-- The next step of a call keeps the world orderly. -/
theorem Orderly.proceed (horderly : Orderly floors world)
    (hgateway : world.gateways replica = some gateway) {call : Call}
    (hcall : gateway.calls id = some call) (reply : Reply) :
    Orderly floors (world.proceed replica gateway id call reply) := by
  have hfollows := horderly.gateways replica gateway hgateway
  have hfits := hfollows.calls id call hcall
  have hfree (hholds : call.holds = false) (found : Call)
      (hfound : gateway.calls id = some found) : found.holds = false := by
    obtain rfl := Option.some.inj (hcall.symm.trans hfound)
    exact hholds
  cases call with
  | starting patch =>
    show Orderly floors (if reply.arrived = true then _ else _)
    split
    · split
      · exact horderly.fail hgateway _
      · exact horderly.moveOn hgateway (hfree rfl) rfl trivial
    · exact horderly.fail hgateway _
  | patching before patch =>
    show Orderly floors (if reply.arrived = true then _ else _)
    split
    · split
      · exact horderly.fail hgateway _
      · rename_i next hnext
        refine horderly.moveOn hgateway (hfree rfl) rfl (settled_of_applyPatch ?_ hnext)
        intro header hheader
        cases hrows : world.rows.head? with
        | none =>
          rw [hrows] at hheader
          cases hheader
        | some row =>
          rw [hrows] at hheader
          exact (horderly.rows row (List.mem_of_mem_head? hrows)).header header hheader
    · exact horderly.fail hgateway _
  | writing before next => exact horderly.writeRow hgateway hcall reply
  | waiting goal =>
    show Orderly floors (if gateway.lock.isNone = true then _ else _)
    split
    · rename_i hnone
      have hunlocked : gateway.lock = none := Option.isNone_iff_eq_none.mp hnone
      refine horderly.change hgateway (hfollows.move (fun other hother ↦ ?_) ?_
        fun found hfound ↦ ?_) rfl
      · rw [hunlocked]
        exact iff_of_false (fun hsame ↦ hother (Option.some.inj hsame).symm)
          (Option.some_ne_none _).symm
      · exact iff_of_true rfl ⟨_, rfl, rfl⟩
      · obtain rfl := Option.some.inj hfound
        exact hfits
    · exact horderly
  | reading goal =>
    show Orderly floors (if reply.arrived = true then _ else _)
    split
    · refine horderly.change hgateway (hfollows.move (fun other _ ↦ Iff.rfl) ?_
        fun found hfound ↦ ?_) rfl
      · exact iff_of_true ((hfollows.lock id).mpr ⟨_, hcall, rfl⟩) ⟨_, rfl, rfl⟩
      · obtain rfl := Option.some.inj hfound
        have hgoal : goal.Fits world.rows := hfits
        exact ⟨hgoal, Copy.of_newest world.rows, hgoal.since, hfollows.source.written⟩
    · exact horderly.failRefresh hgateway goal _
  | loaded goal copy => exact horderly.install hgateway hcall reply.client
  | auditing before after written =>
    have hwritten : written.Of world.rows ∧ written.version ≤ gateway.source.version := hfits
    have haudited := horderly.record world.shown (⟨before, after⟩ :: world.audits)
      (fun other since hmem ↦ Or.inl hmem) fun other response copy hmem ↦ Or.inl hmem
    show Orderly floors (if reply.effective = true then _ else _)
    split
    · split
      · have hdone : Orderly floors (World.put _ replica (gateway.finish id)) :=
          haudited.finish hgateway
        refine hdone.record world.shown (⟨before, after⟩ :: world.audits)
          (fun other since hmem ↦ Or.inl hmem) fun other response copy hmem ↦ ?_
        rcases List.mem_cons.mp hmem with hnew | hold
        · obtain ⟨rfl, hsaved⟩ := Prod.mk.inj hnew
          obtain ⟨-, rfl⟩ := Answer.saved.inj hsaved
          refine Or.inr ⟨hwritten.1, hwritten.1.written, fun found hfound ↦ ?_⟩
          obtain rfl := Option.some.inj ((World.put_self ..).symm.trans hfound)
          exact hwritten.2
        · exact Or.inl hold
      · exact haudited.fail hgateway _
    · exact horderly.fail hgateway _

end Gateway

/-- A gateway that stops leaves the world orderly. -/
theorem Orderly.stop {world : World Replica} (horderly : Orderly floors world)
    (replica : Replica) :
    Orderly floors { world with gateways := Function.update world.gateways replica none } := by
  have hrunning {other : Replica} {gateway : Gateway}
      (hgateway : Function.update world.gateways replica none other = some gateway) :
      world.gateways other = some gateway := by
    by_cases hsame : other = replica
    · subst hsame
      rw [Function.update_self] at hgateway
      cases hgateway
    · rwa [Function.update_of_ne hsame] at hgateway
  exact horderly.carry horderly.rows
    (fun other gateway hgateway ↦ horderly.gateways other gateway (hrunning hgateway))
    (fun _ hcopy ↦ hcopy)
    (fun other version hbefore ↦ ⟨hbefore.written, fun gateway hgateway ↦
      hbefore.installed gateway (hrunning hgateway)⟩)
    (fun other since hmem ↦ Or.inl hmem) fun other response written hmem ↦ Or.inl hmem

theorem free_of_isNone {gateway : Gateway} {id : ℕ} (hnone : (gateway.calls id).isNone = true)
    (call : Call) (hcall : gateway.calls id = some call) : call.holds = false := by
  rw [hcall] at hnone
  cases hnone

theorem Orderly.step {world : World Replica} (horderly : Orderly floors world)
    (action : Action Replica) : Orderly floors (FrontDoor.step world action) := by
  cases action with
  | start replica env client =>
    show Orderly floors (if (world.gateways replica).isNone = true then _ else _)
    split
    · exact horderly.start replica env client
    · exact horderly
  | stop replica => exact horderly.stop replica
  | poll replica id =>
    cases hgateway : world.gateways replica with
    | none => simpa only [FrontDoor.step, hgateway] using horderly
    | some gateway =>
      simp only [FrontDoor.step, hgateway]
      split
      · refine horderly.moveOn hgateway (free_of_isNone ‹_›) rfl ⟨Nat.le_refl _, ?_⟩
        intro before written hsave
        cases hsave
      · exact horderly
  | save replica id patch forwardingHeaders =>
    cases hgateway : world.gateways replica with
    | none => simpa only [FrontDoor.step, hgateway] using horderly
    | some gateway =>
      simp only [FrontDoor.step, hgateway]
      split
      · rename_i hfree
        split
        · exact horderly.answerError replica _
        · exact horderly.moveOn hgateway (free_of_isNone hfree) rfl trivial
      · exact horderly
  | get replica reply =>
    cases hgateway : world.gateways replica with
    | none => simpa only [FrontDoor.step, hgateway] using horderly
    | some gateway =>
      simp only [FrontDoor.step, hgateway]
      exact horderly.record _ world.audits (fun other since hmem ↦ Or.inl hmem)
        fun other response written hmem ↦ Or.inl hmem
  | proceed replica id reply =>
    cases hgateway : world.gateways replica with
    | none => simpa only [FrontDoor.step, hgateway] using horderly
    | some gateway =>
      cases hcall : gateway.calls id with
      | none => simpa only [FrontDoor.step, hgateway, hcall] using horderly
      | some call =>
        simp only [FrontDoor.step, hgateway, hcall]
        exact horderly.proceed hgateway hcall reply
  | drop replica id =>
    cases hgateway : world.gateways replica with
    | none => simpa only [FrontDoor.step, hgateway] using horderly
    | some gateway =>
      simp only [FrontDoor.step, hgateway]
      exact horderly.finish hgateway

/-! ### Every run -/

theorem Orderly.run {world : World Replica} (horderly : Orderly floors world)
    (actions : List (Action Replica)) :
    Orderly floors (Library.Transition.run FrontDoor.step world actions) := by
  have hstep (world : World Replica) (action : Action Replica) (horderly : Orderly floors world) :
      Orderly floors (FrontDoor.step world action) := horderly.step action
  exact run_invariant hstep actions world horderly

/-- Assumes: an orderly world, and a gateway that has installed a version. It is beyond that version
in every world that comes later, if it runs there. -/
theorem Orderly.later {world : World Replica} (horderly : Orderly floors world)
    {replica : Replica} {version : ℕ} (hbeyond : world.Beyond replica version)
    (later : List (Action Replica)) :
    (Library.Transition.run FrontDoor.step world later).Beyond replica version := by
  have hfloor : Orderly (fun other floor ↦ other = replica ∧ floor = version) world := by
    refine ⟨horderly.rows, horderly.gateways, horderly.refreshed, horderly.answers, ?_⟩
    rintro other floor ⟨rfl, rfl⟩
    exact hbeyond
  exact (hfloor.run later).floors replica version ⟨rfl, rfl⟩

/-- In every run of gateways that share the row: the runtime of a gateway is that of one version of
the row, whole, with the verifier of its own configuration; it is not older than any refresh that
completed, nor than any save that was answered there; and it is never replaced by an older one,
whatever happens next. Where the last version is installed, the runtime is that of the row. -/
theorem settings_followed (actions : List (Action Replica)) (replica : Replica)
    (gateway : Gateway)
    (hgateway : (run step (World.empty Replica) actions).gateways replica = some gateway) :
    gateway.source.Of (run step (World.empty Replica) actions).rows ∧
      (∃ settings, fromSources gateway.source.value gateway.env = .ok settings ∧
        gateway.runtime.config = settings.runtimeConfig) ∧
      gateway.runtime.Sound ∧
      (∀ since, (replica, since) ∈ (run step (World.empty Replica) actions).refreshed →
        since ≤ gateway.source.version) ∧
      (∀ response written,
        (replica, .saved response written) ∈ (run step (World.empty Replica) actions).answers →
          written.Of (run step (World.empty Replica) actions).rows ∧
            written.version ≤ gateway.source.version) ∧
      (∀ later next,
        (run step (World.empty Replica) (actions ++ later)).gateways replica = some next →
          gateway.source.version ≤ next.source.version) ∧
      ((replica, (run step (World.empty Replica) actions).rows.length) ∈
          (run step (World.empty Replica) actions).refreshed →
        gateway.source.value = (run step (World.empty Replica) actions).rows.head?) := by
  have horderly := (orderly_empty Replica).run actions
  have hfollows := horderly.gateways replica gateway hgateway
  have hrefreshed (since : ℕ)
      (hmem : (replica, since) ∈ (run step (World.empty Replica) actions).refreshed) :
      since ≤ gateway.source.version :=
    (horderly.refreshed replica since hmem).installed gateway hgateway
  refine ⟨hfollows.source, hfollows.config, hfollows.sound, hrefreshed, ?_, ?_, ?_⟩
  · intro response written hmem
    obtain ⟨hwritten, hbeyond⟩ := horderly.answers replica response written hmem
    exact ⟨hwritten, hbeyond.installed gateway hgateway⟩
  · intro later next hnext
    have hbeyond : (run step (World.empty Replica) actions).Beyond replica
        gateway.source.version := by
      refine ⟨hfollows.source.written, fun found hfound ↦ ?_⟩
      obtain rfl := Option.some.inj (hgateway.symm.trans hfound)
      exact Nat.le_refl _
    rw [run_append] at hnext
    exact (horderly.later hbeyond later).installed next hnext
  · intro hmem
    exact hfollows.source.value_eq_head? (hrefreshed _ hmem)

/-- An environment that turns nothing on. -/
def sampleEnv : GatewayAuthEnv :=
  ⟨false, "k".toList, none, none⟩

/-- A patch that pauses the verification of bearer tokens. -/
def samplePatch : GatewayAuthSettingsPatchRequest :=
  ⟨some true, none, none, .unchanged, .unchanged, .unchanged, .unchanged, .unchanged, .unchanged,
    none, none, none, none, none, .unchanged⟩

/-- Everything replies. -/
def sampleReply : Reply :=
  ⟨true, true, 0, true⟩

/-- Two gateways start, and the patch is saved at the first one. -/
def sampleSave : List (Action ℕ) :=
  [.start 0 sampleEnv true, .start 1 sampleEnv true, .save 0 0 samplePatch (.ok [])] ++
    List.replicate 7 (.proceed 0 0 sampleReply)

/-- The gateway with the save has installed what it wrote, for good. -/
theorem settings_followed_saved :
    ∃ gateway, (run step (World.empty ℕ) sampleSave).gateways 0 = some gateway ∧
      gateway.source.version = 1 ∧
      ∀ later next, (run step (World.empty ℕ) (sampleSave ++ later)).gateways 0 = some next →
        gateway.source.version ≤ next.source.version := by
  have hversion : ((run step (World.empty ℕ) sampleSave).gateways 0).map
      (fun gateway ↦ gateway.source.version) = some 1 := by
    decide
  obtain ⟨gateway, hgateway, hone⟩ := Option.map_eq_some_iff.mp hversion
  obtain ⟨-, -, -, -, -, hlater, -⟩ := settings_followed sampleSave 0 gateway hgateway
  exact ⟨gateway, hgateway, hone, hlater⟩

/-! ### Refreshes that are not disturbed -/

theorem step_proceed {world : World Replica} {replica : Replica} {gateway : Gateway} {id : ℕ}
    {call : Call} (hgateway : world.gateways replica = some gateway)
    (hcall : gateway.calls id = some call) (reply : Reply) :
    step world (.proceed replica id reply) = world.proceed replica gateway id call reply := by
  simp only [step, hgateway, hcall]

/-- Assumes: a gateway with a usable key header in its environment, a copy that is not behind what
it has installed, and a client. The settings of the copy can be put into force. -/
theorem Gateway.Follows.exists_update {rows : List StoredGatewayAuthSettings} {gateway : Gateway}
    (hfollows : gateway.Follows rows) (hrows : ∀ row ∈ rows, row.Settled)
    (henv : UsableHeader gateway.env.relaynaKeyHeader) {copy : StoredCopy} (hcopy : copy.Of rows)
    (hbehind : gateway.source.version ≤ copy.version) :
    ∃ settings runtime, fromSources copy.value gateway.env = .ok settings ∧
      gateway.runtime.update settings.runtimeConfig true gateway.serial = .ok runtime := by
  cases hvalue : copy.value with
  | some row =>
    obtain ⟨settings, hsettings, hinstallable⟩ :=
      (hrows row (hcopy.mem hvalue)).settings henv
    obtain ⟨runtime, hruntime⟩ :=
      exists_update_of_installable gateway.runtime hinstallable gateway.serial
    exact ⟨settings, runtime, hsettings, hruntime⟩
  | none =>
    -- Nothing has ever been written, so the environment is in force already.
    have hversion := hcopy.version_eq_zero hvalue
    have hsource := hfollows.source.value_eq_none (Nat.le_zero.mp (hversion ▸ hbehind))
    obtain ⟨settings, hsettings, hconfig⟩ := hfollows.config
    rw [hsource] at hsettings
    refine ⟨settings, gateway.runtime, hsettings, ?_⟩
    rw [GatewayAuthRuntimeState.update, if_neg (not_not.mpr hconfig)]

/-- Assumes: a gateway runs in a reachable world with a usable key header in its environment, and no
refresh holds its lock. A poll that the database and the client for keys serve leaves the last
version in force, whatever saves have written it. -/
theorem poll_installs_newest (actions : List (Action Replica)) (replica : Replica)
    (gateway : Gateway) (id : ℕ) (reply : Reply)
    (hgateway : (run step (World.empty Replica) actions).gateways replica = some gateway)
    (henv : UsableHeader gateway.env.relaynaKeyHeader) (hid : gateway.calls id = none)
    (hlock : gateway.lock = none) (harrived : reply.arrived = true)
    (hclient : reply.client = true) :
    ∃ next settings,
      (run step (World.empty Replica) (actions ++ [.poll replica id, .proceed replica id reply,
        .proceed replica id reply, .proceed replica id reply])).gateways replica = some next ∧
      next.source = newest (run step (World.empty Replica) actions).rows ∧
      fromSources (run step (World.empty Replica) actions).rows.head? gateway.env = .ok settings ∧
      next.runtime.config = settings.runtimeConfig := by
  have horderly := (orderly_empty Replica).run actions
  have hfollows := horderly.gateways replica gateway hgateway
  obtain ⟨settings, runtime, hsettings, hruntime⟩ := hfollows.exists_update horderly.rows henv
    (Copy.of_newest _) hfollows.source.written
  rw [run_append]
  generalize run step (World.empty Replica) actions = world at *
  let goal := Goal.poll world.rows.length
  let asked := gateway.put id (some (.waiting goal))
  let locked : Gateway := { asked.put id (some (.reading goal)) with lock := some id }
  let loaded := locked.put id (some (.loaded goal (newest world.rows)))
  have hasked : step world (.poll replica id) = world.put replica asked := by
    simp only [step, hgateway, hid, Option.isNone_none, if_true]
    rfl
  have hlocked : step (world.put replica asked) (.proceed replica id reply) =
      (world.put replica asked).put replica locked := by
    rw [step_proceed (World.put_self ..) (gateway.put_self ..)]
    show (if gateway.lock.isNone = true then _ else _) = _
    rw [hlock]
    rfl
  have hloaded : step ((world.put replica asked).put replica locked)
      (.proceed replica id reply) =
        ((world.put replica asked).put replica locked).put replica loaded := by
    have hreading : locked.calls id = some (.reading goal) := asked.put_self id _
    rw [step_proceed (World.put_self ..) hreading]
    show (if reply.arrived = true then _ else _) = _
    rw [if_pos harrived]
    rfl
  obtain ⟨hconfig, -⟩ := hfollows.sound.update hruntime
  simp only [run_cons, run_nil, hasked, hlocked, hloaded]
  rw [step_proceed (World.put_self ..) (locked.put_self ..)]
  show ∃ next settings, World.gateways (World.install _ replica loaded id goal
    (newest world.rows) reply.client) replica = some next ∧ _
  rw [hclient]
  unfold World.install
  simp only [show fromSources (newest world.rows).value loaded.env = .ok settings from hsettings,
    show loaded.runtime.update settings.runtimeConfig true loaded.serial = .ok runtime
      from hruntime]
  exact ⟨_, settings, World.put_self .., rfl, hsettings, hconfig⟩

/-- The other gateway polls what was saved. -/
theorem poll_installs_newest_saved :
    ∃ next, (run step (World.empty ℕ) (sampleSave ++ [.poll 1 0, .proceed 1 0 sampleReply,
        .proceed 1 0 sampleReply, .proceed 1 0 sampleReply])).gateways 1 = some next ∧
      next.source = newest (run step (World.empty ℕ) sampleSave).rows := by
  have hidle : ((run step (World.empty ℕ) sampleSave).gateways 1).map
      (fun gateway ↦ (gateway.env.relaynaKeyHeader, (gateway.calls 0).isNone, gateway.lock)) =
        some ("k".toList, true, none) := by
    decide
  obtain ⟨gateway, hgateway, hfields⟩ := Option.map_eq_some_iff.mp hidle
  obtain ⟨hheader, hrest⟩ := Prod.mk.inj hfields
  obtain ⟨hid, hlock⟩ := Prod.mk.inj hrest
  have henv : UsableHeader gateway.env.relaynaKeyHeader := by
    rw [hheader, UsableHeader]
    decide
  obtain ⟨next, -, hnext, hsource, -⟩ := poll_installs_newest sampleSave 1 gateway 0 sampleReply
    hgateway henv (Option.isNone_iff_eq_none.mp hid) hlock rfl rfl
  exact ⟨next, hnext, hsource⟩

end World

end Relayna.FrontDoor

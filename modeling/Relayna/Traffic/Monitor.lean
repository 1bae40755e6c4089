import Mathlib.Data.List.AList
import Relayna.Common
import Relayna.Library.MachineWord

/-!
# The live-traffic monitor

`crates/gateway-core/src/traffic.rs` counts the requests that are open in each protocol and retains
a bounded summary row for each, as long as the rows fit. Every request carries an internal id and a
lifecycle marker that its clones share; the marker says in which protocol the request is counted, or
that it has completed.

A record is `TrafficRequest` with the fields that a summary row keeps. Those that the projection
clears or replaces by their defaults are left out, and the marker and the last sampling time, which
clones share, are in the state of the monitor under the id of the record. The serialized length of a
row belongs to `serde_json` and is a parameter. The counters of open requests and the sequence
number are `u64` in the source and natural numbers here; the byte counter keeps its saturation,
because the length of a row that does not serialize is `usize::MAX`.
-/

set_option autoImplicit false
set_option relaxedAutoImplicit false

namespace Relayna.Traffic

open Library.MachineWord

/-! ### Records -/

structure WebSocketDiagnostics where
  state : String
  app : Option String
  channel : String
  openedAt : Option Timestamp
  observedAt : Option Timestamp
  closedAt : Option Timestamp
  durationMs : ℕ
  clientBytes : ℕ
  upstreamBytes : ℕ
  clientFrames : ℕ
  upstreamFrames : ℕ
  clientCloseFrame : Bool
  upstreamCloseFrame : Bool
  lastClientActivityAt : Option Timestamp
  lastUpstreamActivityAt : Option Timestamp
  idleTimeoutMs : ℕ
  sessionExpiresAt : Option Timestamp
  maxFrameBytes : ℕ
  closeCause : Option String
  deriving DecidableEq

/-- `RequestDiagnostics`, without the authentication and identity details that a summary drops. -/
structure RequestDiagnostics where
  protocol : Option String
  websocket : Option WebSocketDiagnostics
  routingMode : Option String
  trafficId : Option Uuid
  failureStage : Option String
  failureCode : Option String
  failureSource : Option String
  outcome : Option String
  upstreamStatus : Option ℕ
  instanceId : Option String
  deriving DecidableEq

/-- `TrafficRequest`, without the timings, usage, debug bundle and timeline that a summary drops. -/
structure TrafficRequest where
  completedAt : Option Timestamp
  summaryOnly : Bool
  keyPrefix : Option String
  id : Uuid
  requestId : String
  instanceId : String
  startedAt : Timestamp
  elapsedMs : ℤ
  method : String
  endpoint : Option String
  service : Option String
  provider : Option String
  keyId : Option Uuid
  projectId : Option Uuid
  stage : String
  clientStatus : Option ℕ
  attempts : ℕ
  streaming : Bool
  completed : Bool
  diagnostics : RequestDiagnostics
  timelineTruncated : Bool
  recordingFailures : List String
  deriving DecidableEq

/-- The protocols a record can report. -/
inductive Protocol
  | http
  | websocket
  | unknown
  deriving DecidableEq

def TrafficRequest.protocol (request : TrafficRequest) : Protocol :=
  if request.diagnostics.protocol = some "websocket" then .websocket
  else if request.diagnostics.protocol = some "http" then .http
  else if request.diagnostics.websocket.isSome then .websocket
  else .unknown

/-- The first 256 characters of a text. -/
def bounded (text : String) : String :=
  String.ofList (text.toList.take 256)

/-- The texts of a socket, bounded. -/
def WebSocketDiagnostics.project (socket : WebSocketDiagnostics) : WebSocketDiagnostics :=
  { socket with
    state := bounded socket.state
    app := socket.app.map bounded
    channel := bounded socket.channel
    closeCause := socket.closeCause.map bounded }

/-- `active_projection`: the summary row of a record. -/
def activeProjection (request : TrafficRequest) : TrafficRequest where
  completedAt := request.completedAt
  summaryOnly := true
  keyPrefix := request.keyPrefix.map bounded
  id := request.id
  requestId := bounded request.requestId
  instanceId := bounded request.instanceId
  startedAt := request.startedAt
  elapsedMs := request.elapsedMs
  method := bounded request.method
  endpoint := request.endpoint.map bounded
  service := request.service.map bounded
  provider := request.provider.map bounded
  keyId := request.keyId
  projectId := request.projectId
  stage := bounded request.stage
  clientStatus := request.clientStatus
  attempts := request.attempts
  streaming := request.streaming
  completed := request.completed
  diagnostics := {
    protocol := request.diagnostics.protocol.map bounded
    websocket := request.diagnostics.websocket.map WebSocketDiagnostics.project
    routingMode := request.diagnostics.routingMode.map bounded
    trafficId := request.diagnostics.trafficId
    failureStage := request.diagnostics.failureStage.map bounded
    failureCode := request.diagnostics.failureCode.map bounded
    failureSource := request.diagnostics.failureSource.map bounded
    outcome := request.diagnostics.outcome.map bounded
    upstreamStatus := request.diagnostics.upstreamStatus
    instanceId := some (bounded request.instanceId) }
  timelineTruncated := request.timelineTruncated
  recordingFailures := (request.recordingFailures.take 3).map bounded

/-- The cumulative progress of a socket, copied from a newer sample. -/
def WebSocketDiagnostics.coalesce (target source : WebSocketDiagnostics) : WebSocketDiagnostics :=
  { target with
    observedAt := source.observedAt
    durationMs := source.durationMs
    clientBytes := source.clientBytes
    upstreamBytes := source.upstreamBytes
    clientFrames := source.clientFrames
    upstreamFrames := source.upstreamFrames
    clientCloseFrame := source.clientCloseFrame
    upstreamCloseFrame := source.upstreamCloseFrame
    lastClientActivityAt := source.lastClientActivityAt
    lastUpstreamActivityAt := source.lastUpstreamActivityAt }

def coalesceSocketProgress (target source : TrafficRequest) : TrafficRequest :=
  { target with
    elapsedMs := source.elapsedMs
    diagnostics := { target.diagnostics with
      websocket :=
        match target.diagnostics.websocket, source.diagnostics.websocket with
        | some target, some source => some (target.coalesce source)
        | socket, _ => socket } }

@[simp] theorem activeProjection_id (request : TrafficRequest) :
    (activeProjection request).id = request.id :=
  rfl

/-! ### Partitions -/

def socketProgressReserve : ℕ := 512

/-- `SOCKET_SAMPLE_INTERVAL`, in nanoseconds. -/
def socketSampleInterval : ℤ := 500000000

/-- The limits of a monitor. A byte limit is less than `usize::MAX`, the length of a row that does
not serialize. -/
structure Limits where
  capacity : ℕ
  recordLimit : ℕ
  byteLimit : ℕ
  byteLimit_lt : byteLimit < 2 ^ 64 - 1

/-- The limits of `TrafficMonitor::new(JOURNAL_CAPACITY)`. -/
def Limits.standard : Limits where
  capacity := 512
  recordLimit := 2048
  byteLimit := 2 * 1024 * 1024
  byteLimit_lt := by decide

/-- `ActivePartition`, with the size recorded for each row. -/
structure ActivePartition where
  rows : AList fun _ : Uuid ↦ TrafficRequest × ℕ
  bytes : ℕ
  total : ℕ

def ActivePartition.empty : ActivePartition where
  rows := ∅
  bytes := 0
  total := 0

def ActivePartition.remove (partition : ActivePartition) (id : Uuid) : ActivePartition :=
  match partition.rows.lookup id with
  | none => partition
  | some (_, size) =>
    { partition with rows := partition.rows.erase id, bytes := partition.bytes - size }

section Monitor

variable (serializedLength : TrafficRequest → Option ℕ)

/-- The size recorded for a row: its serialized length, and room for the progress of a socket. -/
def rowSize (row : TrafficRequest) : ℕ :=
  saturatingAdd 64 ((serializedLength row).getD (2 ^ 64 - 1))
    (if row.diagnostics.websocket.isSome then socketProgressReserve else 0)

def ActivePartition.update (limits : Limits) (partition : ActivePartition)
    (request : TrafficRequest) : ActivePartition :=
  let row := activeProjection request
  let size := rowSize serializedLength row
  let previous := ((partition.rows.lookup row.id).map Prod.snd).getD 0
  if ((partition.rows.lookup row.id).isSome ∨ partition.rows.entries.length < limits.recordLimit) ∧
      saturatingAdd 64 (partition.bytes - previous) size ≤ limits.byteLimit then
    { partition with
      rows := partition.rows.insert row.id (row, size)
      bytes := saturatingAdd 64 (partition.bytes - previous) size }
  else partition.remove request.id

/-! ### The monitor -/

/-- The values of the lifecycle marker: `0` before the first observation, `1` and `2` while the
request is counted, `3` once it has completed or its lease was dropped. -/
inductive Marker
  | unseen
  | http
  | websocket
  | completed
  deriving DecidableEq

/-- What the clones of a record share. -/
structure Lifecycle where
  marker : Marker
  sampledAt : Option Timestamp
  deriving DecidableEq

/-- `MonitorState`, with the markers of the records that have been created. -/
structure MonitorState where
  sequence : ℕ
  journal : List (ℕ × TrafficRequest)
  socketUpdates : AList fun _ : Uuid ↦ Timestamp × TrafficRequest
  http : ActivePartition
  websocket : ActivePartition
  lifecycles : AList fun _ : Uuid ↦ Lifecycle

/-- A monitor that has seen nothing. -/
def MonitorState.initial : MonitorState where
  sequence := 0
  journal := []
  socketUpdates := ∅
  http := .empty
  websocket := .empty
  lifecycles := ∅

/-- The marker that an observation of a record leaves. -/
def TrafficRequest.nextMarker (request : TrafficRequest) : Marker :=
  if request.completed then .completed
  else if request.protocol = .websocket then .websocket
  else .http

/-- Move the totals from one marker to the next, when they differ. -/
def MonitorState.recount (state : MonitorState) (previous next : Marker) : MonitorState :=
  if previous = next then state
  else
    { state with
      http := { state.http with
        total := (if previous = .http then state.http.total - 1 else state.http.total) +
          if next = .http then 1 else 0 }
      websocket := { state.websocket with
        total := (if previous = .websocket then state.websocket.total - 1
          else state.websocket.total) + if next = .websocket then 1 else 0 } }

/-- `observe`. The result says whether the record was accepted. -/
def observe (limits : Limits) (state : MonitorState) (lifecycle : Lifecycle)
    (request : TrafficRequest) : Bool × MonitorState :=
  if lifecycle.marker = .completed then (false, state)
  else
    let next := request.nextMarker
    let counted := state.recount lifecycle.marker next
    let http := if next = .http then counted.http.update serializedLength limits request
      else counted.http.remove request.id
    let websocket :=
      if next = .websocket then counted.websocket.update serializedLength limits request
      else counted.websocket.remove request.id
    (true, { counted with
      http := http
      websocket := websocket
      lifecycles := counted.lifecycles.insert request.id { lifecycle with marker := next } })

def append (limits : Limits) (state : MonitorState) (request : TrafficRequest) : MonitorState :=
  let journal := state.journal ++ [(state.sequence + 1, request)]
  { state with
    sequence := state.sequence + 1
    journal := journal.drop (journal.length - max limits.capacity 1) }

/-- `publish`, for a record whose lifecycle exists. -/
def publish (limits : Limits) (state : MonitorState) (lifecycle : Lifecycle)
    (request : TrafficRequest) : MonitorState :=
  let pending := { state with socketUpdates := state.socketUpdates.erase request.id }
  let (accepted, observed) := observe serializedLength limits pending lifecycle request
  if !accepted && !request.completed then observed else append limits observed request

/-- Coalesce a sample into the retained row and into the pending update of its request. -/
def MonitorState.coalesce (state : MonitorState) (request : TrafficRequest) : MonitorState :=
  { state with
    websocket := { state.websocket with
      rows :=
        match state.websocket.rows.lookup request.id with
        | some (row, size) =>
          state.websocket.rows.insert request.id (coalesceSocketProgress row request, size)
        | none => state.websocket.rows }
    socketUpdates :=
      match state.socketUpdates.lookup request.id with
      | some (at', row) =>
        state.socketUpdates.insert request.id (at', coalesceSocketProgress row request)
      | none => state.socketUpdates }

/-- `publish_socket_progress` at an instant, for a record whose lifecycle exists. -/
def publishSocketProgress (limits : Limits) (state : MonitorState) (lifecycle : Lifecycle)
    (request : TrafficRequest) (now : Timestamp) : MonitorState :=
  if request.completed ∨ lifecycle.marker = .completed then state
  else
    let coalesced := state.coalesce request
    if lifecycle.sampledAt.any (now - · < socketSampleInterval) then coalesced
    else
      let sampled := { lifecycle with sampledAt := some now }
      let (accepted, observed) := observe serializedLength limits
        { coalesced with lifecycles := coalesced.lifecycles.insert request.id sampled } sampled
        request
      if !accepted then observed
      else if observed.socketUpdates.entries.length < max limits.capacity 1 ∨
          (observed.socketUpdates.lookup request.id).isSome then
        { observed with socketUpdates := observed.socketUpdates.insert request.id (now, request) }
      else observed

/-- The drop of a `TrafficActiveLease`. -/
def dropLease (state : MonitorState) (id : Uuid) (lifecycle : Lifecycle) : MonitorState :=
  let swapped := { state with
    lifecycles := state.lifecycles.insert id { lifecycle with marker := .completed } }
  match lifecycle.marker with
  | .unseen => swapped
  | .completed => swapped
  | marker =>
    let counted := swapped.recount marker .completed
    { counted with
      http := counted.http.remove id
      websocket := counted.websocket.remove id
      socketUpdates := counted.socketUpdates.erase id }

/-- One step of the requests: a new record with its own id and marker, a publication, a sample of a
socket, or the drop of a lease. -/
inductive Action
  | create (id : Uuid)
  | publish (request : TrafficRequest)
  | publishSocketProgress (request : TrafficRequest) (now : Timestamp)
  | dropLease (id : Uuid)

/-- One step. A record that was not created cannot be published. -/
def step (limits : Limits) (state : MonitorState) : Action → MonitorState
  | .create id =>
    if id ∈ state.lifecycles then state
    else { state with lifecycles := state.lifecycles.insert id ⟨.unseen, none⟩ }
  | .publish request =>
    match state.lifecycles.lookup request.id with
    | some lifecycle => publish serializedLength limits state lifecycle request
    | none => state
  | .publishSocketProgress request now =>
    match state.lifecycles.lookup request.id with
    | some lifecycle => publishSocketProgress serializedLength limits state lifecycle request now
    | none => state
  | .dropLease id =>
    match state.lifecycles.lookup id with
    | some lifecycle => dropLease state id lifecycle
    | none => state

end Monitor

end Relayna.Traffic

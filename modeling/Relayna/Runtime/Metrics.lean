import Mathlib.Data.List.AList
import Relayna.Library.RollingWindow
import Relayna.Runtime.Histogram

/-!
# The runtime metrics

`RuntimeMetrics` and `RuntimeRequest` of `crates/gateway-telemetry/src/runtime.rs`. The state behind
the lock has totals, gauges of active requests and a rolling window of buckets, one for each second.
A request guard belongs to its request: it has the transport and whether it is finished, and its
operations lock the state once. So a run is a sequence of operations, in any order, on any number of
guards; the clock, in nanoseconds since the metrics were created, moves between them.

What an operation does to the state and what it does to its guard are two functions, `State.step`
and `Callers.step`. The second never looks at the state, so the events it logs, the arrivals and the
completions with the second in which each one happened, are decided by the actions alone.

A snapshot is modelled without the fields that come from elsewhere: the wall clock, the body
capacity and the process sample.
-/

set_option autoImplicit false
set_option relaxedAutoImplicit false

namespace Relayna.Runtime

open Library.MachineWord Library.RollingWindow

/-! ### Records of counters -/

section Fields

variable {Field : Type}

def zeroFields : Field → ℕ :=
  fun _ ↦ 0

/-- Add two records field by field, as 64-bit words that stop at the end of the range. -/
def mergeFields (fields other : Field → ℕ) : Field → ℕ :=
  fun field ↦ saturatingAdd 64 (fields field) (other field)

variable [DecidableEq Field]

def incrementField (fields : Field → ℕ) (field : Field) : Field → ℕ :=
  Function.update fields field (saturatingAdd 64 (fields field) 1)

/-- Subtract one from a field, which stops at zero. -/
def decrementField (fields : Field → ℕ) (field : Field) : Field → ℕ :=
  Function.update fields field (fields field - 1)

theorem incrementField_self (fields : Field → ℕ) (field : Field) :
    incrementField fields field field = saturatingAdd 64 (fields field) 1 :=
  Function.update_self ..

theorem incrementField_of_ne (fields : Field → ℕ) {field other : Field} (hother : other ≠ field) :
    incrementField fields field other = fields other :=
  Function.update_of_ne hother ..

theorem decrementField_self (fields : Field → ℕ) (field : Field) :
    decrementField fields field field = fields field - 1 :=
  Function.update_self ..

theorem decrementField_of_ne (fields : Field → ℕ) {field other : Field} (hother : other ≠ field) :
    decrementField fields field other = fields other :=
  Function.update_of_ne hother ..

end Fields

/-- `RuntimeTransport`, and so the fields of `RuntimeActive`. -/
inductive RuntimeTransport
  | http
  | sse
  | webSocket
  deriving DecidableEq

abbrev RuntimeActive := RuntimeTransport → ℕ

/-- The fields of `RuntimeCounters`. -/
inductive Counter
  | started
  | completed
  | succeeded
  | failed
  | rejected
  | unattributed
  | httpCompleted
  | sseCompleted
  | websocketCompleted
  deriving DecidableEq

abbrev RuntimeCounters := Counter → ℕ

/-- The fields of `AdmissionDenials`. -/
inductive DenialReason
  | concurrency
  | bytes
  | other
  deriving DecidableEq

abbrev AdmissionDenials := DenialReason → ℕ

/-- The fields of `RecordingFailures`. -/
inductive Destination
  | usageEvents
  | debugBundles
  | requestTraffic
  deriving DecidableEq

abbrev RecordingFailures := Destination → ℕ

def RecordingFailures.forDestination (destination : String) : Option RecordingFailures :=
  if destination = "usage_events" then some (Function.update zeroFields .usageEvents 1)
  else if destination = "debug_bundles" then some (Function.update zeroFields .debugBundles 1)
  else if destination = "request_traffic" then some (Function.update zeroFields .requestTraffic 1)
  else none

/-- The denial that `record_admission_denial` counts for a reason. -/
def AdmissionDenials.forReason (reason : String) : AdmissionDenials :=
  if reason = "concurrency" then Function.update zeroFields .concurrency 1
  else if reason = "bytes" then Function.update zeroFields .bytes 1
  else Function.update zeroFields .other 1

structure RuntimeOutcome where
  success : Bool := false
  rejected : Bool := false
  attributed : Bool := false
  upstreamDurationMs : Option ℕ := none
  ttfbMs : Option ℕ := none
  ttftMs : Option ℕ := none
  websocketHandshakeMs : Option ℕ := none
  websocketSessionMs : Option ℕ := none

def completion (transport : RuntimeTransport) (outcome : RuntimeOutcome) : RuntimeCounters
  | .started => 0
  | .completed => 1
  | .succeeded => outcome.success.toNat
  | .failed => (!outcome.success).toNat
  | .rejected => outcome.rejected.toNat
  | .unattributed => (!outcome.attributed).toNat
  | .httpCompleted => (transport = .http : Bool).toNat
  | .sseCompleted => (transport = .sse : Bool).toNat
  | .websocketCompleted => (transport = .webSocket : Bool).toNat

/-- `duration_us`, of a duration in nanoseconds. -/
def durationUs (duration : ℕ) : ℕ :=
  min (duration / 1000) (2 ^ 64 - 1)

/-! ### The state behind the lock -/

def retainSeconds : ℕ :=
  900

structure Bucket where
  second : ℕ
  counters : RuntimeCounters
  denials : AdmissionDenials
  recordingFailures : RecordingFailures
  latency : RuntimeLatency

/-- The bucket that is pushed for a second. -/
def Bucket.fresh (second : ℕ) : Bucket :=
  ⟨second, zeroFields, zeroFields, zeroFields, .empty⟩

structure State where
  buckets : List Bucket
  totals : RuntimeCounters
  active : RuntimeActive
  admissionDenialsTotal : AdmissionDenials
  recordingFailuresTotal : RecordingFailures
  admissionLatencyTotal : RuntimeLatency

/-- `State::default`. -/
def State.empty : State :=
  ⟨[], zeroFields, zeroFields, zeroFields, zeroFields, .empty⟩

def State.prune (state : State) (second : ℕ) : State :=
  { state with
    buckets := Library.RollingWindow.prune Bucket.second retainSeconds second state.buckets }

/-- `State::bucket`, and the change that the caller makes through the reference it returns. -/
def State.bucket (state : State) (second : ℕ) (change : Bucket → Bucket) : State :=
  { state with
    buckets := write Bucket.second retainSeconds second (.fresh second) change state.buckets }

/-! ### Requests -/

/-- `RuntimeRequest`, without the reference to the metrics. -/
structure RuntimeRequest where
  started : ℕ
  transport : RuntimeTransport
  finished : Bool

/-- What `RuntimeRequest::start` does to the state. -/
def State.start (state : State) (transport : RuntimeTransport) (second : ℕ) : State :=
  let counted := { state with totals := incrementField state.totals .started }
  let opened := counted.bucket second fun bucket ↦
    { bucket with counters := incrementField bucket.counters .started }
  { opened with active := incrementField opened.active transport }

/-- What `RuntimeRequest::set_transport` does to the state. -/
def State.setTransport (state : State) (request : RuntimeRequest) (transport : RuntimeTransport) :
    State :=
  if request.finished ∨ request.transport = transport then state
  else { state with
    active := incrementField (decrementField state.active request.transport) transport }

/-- What `RuntimeRequest::set_transport` does to the guard. -/
def RuntimeRequest.setTransport (request : RuntimeRequest) (transport : RuntimeTransport) :
    RuntimeRequest :=
  if request.finished ∨ request.transport = transport then request
  else { request with transport := transport }

/-- The latency samples of a completion. -/
def RuntimeLatency.complete (latency : RuntimeLatency) (transport : RuntimeTransport)
    (outcome : RuntimeOutcome) (durationUs : ℕ) : RuntimeLatency :=
  if transport ≠ .webSocket then
    let latency := latency.observeUs .httpDuration durationUs
    let latency :=
      if outcome.success then latency.observeUs .httpSuccessDuration durationUs else latency
    let latency := latency.observeMs .upstreamDuration outcome.upstreamDurationMs
    let latency := latency.observeMs .ttfb outcome.ttfbMs
    if transport = .sse then latency.observeMs .ttft outcome.ttftMs else latency
  else
    let latency := latency.observeMs .websocketHandshake outcome.websocketHandshakeMs
    latency.observeMs .websocketSession outcome.websocketSessionMs

/-- What `RuntimeRequest::finish` does to the state, in a second, and at an instant for the duration
of the request. -/
def State.finish (state : State) (request : RuntimeRequest) (outcome : RuntimeOutcome)
    (second instant : ℕ) : State :=
  if request.finished then state
  else
    let counters := completion request.transport outcome
    let counted := { state with
      active := decrementField state.active request.transport
      totals := mergeFields state.totals counters }
    counted.bucket second fun bucket ↦
      { bucket with
        counters := mergeFields bucket.counters counters
        latency := bucket.latency.complete request.transport outcome
          (durationUs (instant - request.started)) }

/-- What `RuntimeRequest::finish` does to the guard. -/
def RuntimeRequest.finish (request : RuntimeRequest) : RuntimeRequest :=
  { request with finished := true }

/-! ### Other records -/

def State.recordRecordingFailure (state : State) (destination : String) (second : ℕ) : State :=
  match RecordingFailures.forDestination destination with
  | none => state
  | some failure =>
    let counted := { state with
      recordingFailuresTotal := mergeFields state.recordingFailuresTotal failure }
    counted.bucket second fun bucket ↦
      { bucket with recordingFailures := mergeFields bucket.recordingFailures failure }

def State.recordAdmissionDenial (state : State) (reason : String) (second : ℕ) : State :=
  let denial := AdmissionDenials.forReason reason
  let counted := { state with
    admissionDenialsTotal := mergeFields state.admissionDenialsTotal denial }
  counted.bucket second fun bucket ↦ { bucket with denials := mergeFields bucket.denials denial }

/-- The samples of a body-admission decision. -/
def RuntimeLatency.recordDecision (latency : RuntimeLatency) (rejected : Bool) (elapsedUs : ℕ) :
    RuntimeLatency :=
  let latency := latency.observeUs .admissionDecision elapsedUs
  if rejected then latency.observeUs .admissionRejection elapsedUs else latency

def State.recordBodyAdmissionDecision (state : State) (elapsed : ℕ) (rejected : Bool)
    (second : ℕ) : State :=
  let counted := { state with
    admissionLatencyTotal :=
      state.admissionLatencyTotal.recordDecision rejected (durationUs elapsed) }
  counted.bucket second fun bucket ↦
    { bucket with latency := bucket.latency.recordDecision rejected (durationUs elapsed) }

def State.recordBodyRetention (state : State) (elapsed second : ℕ) : State :=
  let counted := { state with
    admissionLatencyTotal :=
      state.admissionLatencyTotal.observeUs .bodyRetention (durationUs elapsed) }
  counted.bucket second fun bucket ↦
    { bucket with latency := bucket.latency.observeUs .bodyRetention (durationUs elapsed) }

/-! ### Snapshots -/

structure RuntimeSnapshot where
  schemaVersion : ℕ
  windowSeconds : ℕ
  uptimeSeconds : Option ℕ
  observedSeconds : ℕ
  instanceCount : ℕ
  incompatibleInstances : ℕ
  counters : RuntimeCounters
  totals : RuntimeCounters
  active : RuntimeActive
  admissionDenials : AdmissionDenials
  recordingFailures : RecordingFailures
  recordingFailuresTotal : RecordingFailures
  latency : RuntimeLatency

def normalizeWindow (windowSeconds : ℕ) : ℕ :=
  if windowSeconds = 300 ∨ windowSeconds = 900 then windowSeconds else 60

def emptySnapshot (windowSeconds : ℕ) : RuntimeSnapshot where
  schemaVersion := 1
  windowSeconds := normalizeWindow windowSeconds
  uptimeSeconds := none
  observedSeconds := 0
  instanceCount := 0
  incompatibleInstances := 0
  counters := zeroFields
  totals := zeroFields
  active := zeroFields
  admissionDenials := zeroFields
  recordingFailures := zeroFields
  recordingFailuresTotal := zeroFields
  latency := .empty

/-- `RuntimeMetrics::snapshot_state`, with the reading of the clock that it takes before it locks
the state: the snapshot without the window, and the state with the buckets that it copies. -/
def State.snapshotState (state : State) (windowSeconds elapsed : ℕ) : RuntimeSnapshot × State :=
  let state := state.prune elapsed
  let snapshot := emptySnapshot windowSeconds
  ({ snapshot with
      uptimeSeconds := some elapsed
      observedSeconds := min (saturatingAdd 64 elapsed 1) snapshot.windowSeconds
      instanceCount := 1
      totals := state.totals
      recordingFailuresTotal := state.recordingFailuresTotal
      active := state.active },
    state)

def RuntimeSnapshot.addBucket (snapshot : RuntimeSnapshot) (bucket : Bucket) : RuntimeSnapshot :=
  { snapshot with
    counters := mergeFields snapshot.counters bucket.counters
    admissionDenials := mergeFields snapshot.admissionDenials bucket.denials
    recordingFailures := mergeFields snapshot.recordingFailures bucket.recordingFailures
    latency := snapshot.latency.merge bucket.latency }

def aggregateBuckets (snapshot : RuntimeSnapshot) (buckets : List Bucket) : RuntimeSnapshot :=
  let elapsed := snapshot.uptimeSeconds.getD 0
  let merged := buckets.foldl
    (fun snapshot bucket ↦
      if elapsed - bucket.second < snapshot.windowSeconds then snapshot.addBucket bucket
      else snapshot)
    snapshot
  { merged with latency := merged.latency.refreshQuantiles }

/-- `RuntimeMetrics::snapshot`, at a reading of the clock. -/
def State.snapshot (state : State) (windowSeconds elapsed : ℕ) : RuntimeSnapshot :=
  let copied := state.snapshotState windowSeconds elapsed
  aggregateBuckets copied.1 copied.2.buckets

/-! ### Runs -/

/-- What happened to a request. -/
inductive Occurrence
  | started
  | completed (transport : RuntimeTransport) (outcome : RuntimeOutcome)

/-- What happened, and in which second. -/
structure Event where
  second : ℕ
  occurrence : Occurrence

/-- The clock, the guards that have not been dropped, and the log of events, the latest first. -/
structure Callers where
  clock : ℕ
  requests : AList fun _ : ℕ ↦ RuntimeRequest
  next : ℕ
  events : List Event

/-- `Duration::as_secs`, of a number of nanoseconds. -/
def asSecs (nanoseconds : ℕ) : ℕ :=
  nanoseconds / 1000000000

/-- The second that an operation finds. -/
def Callers.second (callers : Callers) : ℕ :=
  asSecs callers.clock

/-- The operations on the metrics. An operation that reads the clock once more, for a duration,
reads it `lag` nanoseconds after the reading for its bucket; a snapshot reads it `lag` nanoseconds
before it has the lock. -/
inductive Action
  | advance (elapsed : ℕ)
  | start (transport : RuntimeTransport) (lag : ℕ)
  | setTransport (id : ℕ) (transport : RuntimeTransport)
  | finish (id : ℕ) (outcome : RuntimeOutcome) (lag : ℕ)
  | drop (id : ℕ) (lag : ℕ)
  | recordRecordingFailure (destination : String)
  | recordAdmissionDenial (reason : String)
  | recordBodyAdmissionDecision (elapsed : ℕ) (rejected : Bool)
  | recordBodyRetention (elapsed : ℕ)
  | snapshot (windowSeconds lag : ℕ)

/-- Complete a request, unless it is finished. -/
def Callers.finish (callers : Callers) (id : ℕ) (request : RuntimeRequest)
    (outcome : RuntimeOutcome) : Callers :=
  { callers with
    requests := callers.requests.insert id request.finish
    events :=
      if request.finished then callers.events
      else ⟨callers.second, .completed request.transport outcome⟩ :: callers.events }

/-- The clock, the guards and the log after an action. -/
def Callers.step (callers : Callers) : Action → Callers
  | .advance elapsed => { callers with clock := callers.clock + elapsed }
  | .start transport lag =>
    { callers with
      requests := callers.requests.insert callers.next ⟨callers.clock + lag, transport, false⟩
      next := callers.next + 1
      events := ⟨callers.second, .started⟩ :: callers.events }
  | .setTransport id transport =>
    match callers.requests.lookup id with
    | none => callers
    | some request =>
      { callers with requests := callers.requests.insert id (request.setTransport transport) }
  | .finish id outcome _ =>
    match callers.requests.lookup id with
    | none => callers
    | some request => callers.finish id request outcome
  | .drop id _ =>
    match callers.requests.lookup id with
    | none => callers
    | some request =>
      let finished := callers.finish id request {}
      { finished with requests := finished.requests.erase id }
  | _ => callers

/-- The state after an action of the callers. -/
def State.step (state : State) (callers : Callers) : Action → State
  | .advance _ => state
  | .start transport _ => state.start transport callers.second
  | .setTransport id transport =>
    match callers.requests.lookup id with
    | none => state
    | some request => state.setTransport request transport
  | .finish id outcome lag =>
    match callers.requests.lookup id with
    | none => state
    | some request => state.finish request outcome callers.second (callers.clock + lag)
  | .drop id lag =>
    match callers.requests.lookup id with
    | none => state
    | some request => state.finish request {} callers.second (callers.clock + lag)
  | .recordRecordingFailure destination => state.recordRecordingFailure destination callers.second
  | .recordAdmissionDenial reason => state.recordAdmissionDenial reason callers.second
  | .recordBodyAdmissionDecision elapsed rejected =>
    state.recordBodyAdmissionDecision elapsed rejected callers.second
  | .recordBodyRetention elapsed => state.recordBodyRetention elapsed callers.second
  | .snapshot windowSeconds lag =>
    (state.snapshotState windowSeconds (asSecs (callers.clock - lag))).2

/-- The metrics and their callers. -/
structure World where
  state : State
  callers : Callers

/-- New metrics. -/
def World.init : World :=
  ⟨.empty, ⟨0, ∅, 0, []⟩⟩

/-- An action of the callers on the metrics. -/
def World.step (world : World) (action : Action) : World :=
  ⟨world.state.step world.callers action, world.callers.step action⟩

end Relayna.Runtime

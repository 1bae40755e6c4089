import Relayna.Library.Utf8
import Relayna.Traffic.Monitor
import Relayna.Usage.Cursor

/-!
# The JSON of a summary row

The monitor measures a row by the length of its JSON. `TrafficRequest.document` is that JSON, with
the fields in the order of the source's records and without those that are skipped. The text forms
of instants and ids belong to other crates and are parameters.

A sample changes the elapsed time of a row and the progress of its socket, and nothing else.
`rowLength_eq` splits the length of a row into the length of its `blank`, which no sample changes,
and the length of what a sample can change. `progressLength_le` bounds the latter.
-/

set_option autoImplicit false
set_option relaxedAutoImplicit false

namespace Relayna.Traffic

open Library.Json Library.Utf8
open Usage (decimal)

/-! ### Documents -/

/-- The text forms of instants and ids, of `chrono` and of `uuid`. -/
structure RowFormats where
  instantText : Timestamp → List UInt8
  uuidText : Uuid → List UInt8

def textTree (text : String) : Tree :=
  .string (escape (encode text.toList))

/-- The JSON of an unsigned number. -/
def numberTree (value : ℕ) : Tree :=
  .number (decimal value)

/-- The JSON of a signed number. -/
def integerTree (value : ℤ) : Tree :=
  .number (if value < 0 then minus :: decimal value.natAbs else decimal value.natAbs)

/-- The JSON of a value that may be missing. -/
def optionTree {Value : Type} (tree : Value → Tree) : Option Value → Tree
  | some value => tree value
  | none => .null

section Formats

variable (formats : RowFormats)

def instantTree (instant : Timestamp) : Tree :=
  .string (escape (formats.instantText instant))

/-- The JSON of an id. -/
def uuidTree (id : Uuid) : Tree :=
  .string (escape (formats.uuidText id))

/-- The JSON of `WebSocketDiagnostics`. -/
def WebSocketDiagnostics.document (socket : WebSocketDiagnostics) : Tree :=
  .object [
    (ascii "state", textTree socket.state),
    (ascii "app", optionTree textTree socket.app),
    (ascii "channel", textTree socket.channel),
    (ascii "opened_at", optionTree (instantTree formats) socket.openedAt),
    (ascii "observed_at", optionTree (instantTree formats) socket.observedAt),
    (ascii "closed_at", optionTree (instantTree formats) socket.closedAt),
    (ascii "duration_ms", numberTree socket.durationMs),
    (ascii "client_bytes", numberTree socket.clientBytes),
    (ascii "upstream_bytes", numberTree socket.upstreamBytes),
    (ascii "client_frames", numberTree socket.clientFrames),
    (ascii "upstream_frames", numberTree socket.upstreamFrames),
    (ascii "client_close_frame", .bool socket.clientCloseFrame),
    (ascii "upstream_close_frame", .bool socket.upstreamCloseFrame),
    (ascii "last_client_activity_at",
      optionTree (instantTree formats) socket.lastClientActivityAt),
    (ascii "last_upstream_activity_at",
      optionTree (instantTree formats) socket.lastUpstreamActivityAt),
    (ascii "idle_timeout_ms", numberTree socket.idleTimeoutMs),
    (ascii "session_expires_at", optionTree (instantTree formats) socket.sessionExpiresAt),
    (ascii "max_frame_bytes", numberTree socket.maxFrameBytes),
    (ascii "close_cause", optionTree textTree socket.closeCause)]

/-- The JSON of the `RequestDiagnostics` of a row. Authentication profiles are skipped, and there is
no identity. -/
def RequestDiagnostics.document (diagnostics : RequestDiagnostics) : Tree :=
  .object [
    (ascii "protocol", optionTree textTree diagnostics.protocol),
    (ascii "websocket",
      optionTree (WebSocketDiagnostics.document formats) diagnostics.websocket),
    (ascii "entra", .null),
    (ascii "routing_mode", optionTree textTree diagnostics.routingMode),
    (ascii "traffic_id", optionTree (uuidTree formats) diagnostics.trafficId),
    (ascii "failure_stage", optionTree textTree diagnostics.failureStage),
    (ascii "failure_code", optionTree textTree diagnostics.failureCode),
    (ascii "failure_source", optionTree textTree diagnostics.failureSource),
    (ascii "outcome", optionTree textTree diagnostics.outcome),
    (ascii "upstream_status", optionTree numberTree diagnostics.upstreamStatus),
    (ascii "instance_id", optionTree textTree diagnostics.instanceId)]

/-- The members of the JSON of a row. A completion instant that is missing is skipped, and timings,
usage, debug bundle and timeline are empty. -/
def TrafficRequest.members (row : TrafficRequest) : List (List UInt8 × Tree) :=
  (row.completedAt.map fun instant ↦
      (ascii "completed_at", instantTree formats instant)).toList ++ [
    (ascii "summary_only", .bool row.summaryOnly),
    (ascii "upstream_timings", .array []),
    (ascii "usage", .null),
    (ascii "debug_bundle", .null),
    (ascii "key_prefix", optionTree textTree row.keyPrefix),
    (ascii "id", uuidTree formats row.id),
    (ascii "request_id", textTree row.requestId),
    (ascii "instance_id", textTree row.instanceId),
    (ascii "started_at", instantTree formats row.startedAt),
    (ascii "elapsed_ms", integerTree row.elapsedMs),
    (ascii "method", textTree row.method),
    (ascii "endpoint", optionTree textTree row.endpoint),
    (ascii "service", optionTree textTree row.service),
    (ascii "provider", optionTree textTree row.provider),
    (ascii "key_id", optionTree (uuidTree formats) row.keyId),
    (ascii "project_id", optionTree (uuidTree formats) row.projectId),
    (ascii "stage", textTree row.stage),
    (ascii "client_status", optionTree numberTree row.clientStatus),
    (ascii "attempts", numberTree row.attempts),
    (ascii "streaming", .bool row.streaming),
    (ascii "completed", .bool row.completed),
    (ascii "diagnostics", row.diagnostics.document formats),
    (ascii "timeline", .array []),
    (ascii "timeline_truncated", .bool row.timelineTruncated),
    (ascii "recording_failures", .array (row.recordingFailures.map textTree))]

/-- The JSON of the `TrafficRequest` of a row. -/
def TrafficRequest.document (row : TrafficRequest) : Tree :=
  .object (row.members formats)

/-- The length of `serde_json::to_vec` of a row. -/
def rowLength (row : TrafficRequest) : ℕ :=
  (row.document formats).text.length

/-! ### What a sample can change -/

/-- A socket without progress. -/
def WebSocketDiagnostics.blank (socket : WebSocketDiagnostics) : WebSocketDiagnostics :=
  { socket with
    observedAt := none
    durationMs := 0
    clientBytes := 0
    upstreamBytes := 0
    clientFrames := 0
    upstreamFrames := 0
    clientCloseFrame := false
    upstreamCloseFrame := false
    lastClientActivityAt := none
    lastUpstreamActivityAt := none }

/-- Diagnostics whose socket has no progress. -/
def RequestDiagnostics.blank (diagnostics : RequestDiagnostics) : RequestDiagnostics :=
  { diagnostics with websocket := diagnostics.websocket.map WebSocketDiagnostics.blank }

/-- A row without elapsed time and progress. -/
def TrafficRequest.blank (row : TrafficRequest) : TrafficRequest :=
  { row with elapsedMs := 0, diagnostics := row.diagnostics.blank }

def WebSocketDiagnostics.progressLength (socket : WebSocketDiagnostics) : ℕ :=
  (optionTree (instantTree formats) socket.observedAt).text.length +
    (numberTree socket.durationMs).text.length + (numberTree socket.clientBytes).text.length +
    (numberTree socket.upstreamBytes).text.length + (numberTree socket.clientFrames).text.length +
    (numberTree socket.upstreamFrames).text.length +
    (Tree.bool socket.clientCloseFrame).text.length +
    (Tree.bool socket.upstreamCloseFrame).text.length +
    (optionTree (instantTree formats) socket.lastClientActivityAt).text.length +
    (optionTree (instantTree formats) socket.lastUpstreamActivityAt).text.length

/-- The length of the progress in diagnostics that may have a socket. -/
def RequestDiagnostics.progressLength (diagnostics : RequestDiagnostics) : ℕ :=
  (diagnostics.websocket.map (WebSocketDiagnostics.progressLength formats)).getD 0

/-- The length of the elapsed time of a row and of the progress of its socket. -/
def TrafficRequest.progressLength (row : TrafficRequest) : ℕ :=
  (integerTree row.elapsedMs).text.length + row.diagnostics.progressLength formats

/-- A sample leaves the blank of a row as it is. -/
theorem blank_coalesce (row sample : TrafficRequest) :
    (coalesceSocketProgress row sample).blank = row.blank := by
  unfold coalesceSocketProgress TrafficRequest.blank RequestDiagnostics.blank
  rcases row.diagnostics.websocket with _ | socket <;>
    rcases sample.diagnostics.websocket with _ | source <;> rfl

theorem socketLength_eq (socket : WebSocketDiagnostics) :
    (socket.document formats).text.length + socket.blank.progressLength formats =
      (socket.blank.document formats).text.length + socket.progressLength formats := by
  unfold WebSocketDiagnostics.document WebSocketDiagnostics.progressLength
  rw [Tree.length_text_object (List.cons_ne_nil _ _),
    Tree.length_text_object (List.cons_ne_nil _ _)]
  simp only [List.map_cons, List.map_nil, List.sum_cons, List.sum_nil,
    WebSocketDiagnostics.blank]
  omega

theorem diagnosticsLength_eq (diagnostics : RequestDiagnostics) :
    (diagnostics.document formats).text.length + diagnostics.blank.progressLength formats =
      (diagnostics.blank.document formats).text.length + diagnostics.progressLength formats := by
  have hsocket : (optionTree (WebSocketDiagnostics.document formats)
        diagnostics.websocket).text.length + diagnostics.blank.progressLength formats =
      (optionTree (WebSocketDiagnostics.document formats)
        (diagnostics.websocket.map WebSocketDiagnostics.blank)).text.length +
          diagnostics.progressLength formats := by
    unfold RequestDiagnostics.blank RequestDiagnostics.progressLength
    rcases diagnostics.websocket with _ | socket
    · rfl
    · exact socketLength_eq formats socket
  unfold RequestDiagnostics.document
  rw [Tree.length_text_object (List.cons_ne_nil _ _),
    Tree.length_text_object (List.cons_ne_nil _ _)]
  simp only [List.map_cons, List.map_nil, List.sum_cons, List.sum_nil,
    RequestDiagnostics.blank] at hsocket ⊢
  omega

/-- The length of a row is the length of its blank, up to what a sample can change. -/
theorem rowLength_eq (row : TrafficRequest) :
    rowLength formats row + row.blank.progressLength formats =
      rowLength formats row.blank + row.progressLength formats := by
  have hdiagnostics := diagnosticsLength_eq formats row.diagnostics
  unfold rowLength TrafficRequest.document TrafficRequest.members TrafficRequest.progressLength
  rw [Tree.length_text_object (List.append_ne_nil_of_right_ne_nil _ (List.cons_ne_nil _ _)),
    Tree.length_text_object (List.append_ne_nil_of_right_ne_nil _ (List.cons_ne_nil _ _))]
  simp only [List.map_append, List.sum_append, List.map_cons, List.map_nil, List.sum_cons,
    List.sum_nil, TrafficRequest.blank] at hdiagnostics ⊢
  omega

/-- The length of the elapsed time is part of the length of a row. -/
theorem elapsedLength_le (row : TrafficRequest) :
    (integerTree row.elapsedMs).text.length ≤ rowLength formats row := by
  have hmember : (ascii "elapsed_ms", integerTree row.elapsedMs) ∈ row.members formats := by
    simp [TrafficRequest.members]
  exact Tree.length_text_le hmember

/-! ### Values within their types -/

/-- The counters of a socket are `u64`. -/
structure WebSocketDiagnostics.InRange (socket : WebSocketDiagnostics) : Prop where
  durationMs : socket.durationMs < 2 ^ 64
  clientBytes : socket.clientBytes < 2 ^ 64
  upstreamBytes : socket.upstreamBytes < 2 ^ 64
  clientFrames : socket.clientFrames < 2 ^ 64
  upstreamFrames : socket.upstreamFrames < 2 ^ 64

/-- The elapsed time of a record is an `i64`, and the counters of its socket are `u64`. -/
structure TrafficRequest.InRange (request : TrafficRequest) : Prop where
  elapsedMs_ge : -2 ^ 63 ≤ request.elapsedMs
  elapsedMs_lt : request.elapsedMs < 2 ^ 63
  websocket : ∀ socket ∈ request.diagnostics.websocket, socket.InRange

/-- The JSON of an instant has at most 35 bytes between its quotes, as an RFC 3339 text has in
nanoseconds and with a year of six digits. -/
def RowFormats.Bounded : Prop :=
  ∀ instant, (escape (formats.instantText instant)).length ≤ 35

theorem TrafficRequest.InRange.project {request : TrafficRequest} (hrequest : request.InRange) :
    (activeProjection request).InRange where
  elapsedMs_ge := hrequest.elapsedMs_ge
  elapsedMs_lt := hrequest.elapsedMs_lt
  websocket socket hsocket := by
    obtain ⟨held, hheld, rfl⟩ := Option.mem_map.mp hsocket
    obtain ⟨hduration, hclient, hupstream, hclientFrames, hupstreamFrames⟩ :=
      hrequest.websocket held hheld
    exact ⟨hduration, hclient, hupstream, hclientFrames, hupstreamFrames⟩

/-- A sample in range keeps a row in range. -/
theorem TrafficRequest.InRange.coalesce {row sample : TrafficRequest} (hrow : row.InRange)
    (hsample : sample.InRange) : (coalesceSocketProgress row sample).InRange where
  elapsedMs_ge := hsample.elapsedMs_ge
  elapsedMs_lt := hsample.elapsedMs_lt
  websocket socket hsocket := by
    have hheld := hrow.websocket
    have hsource := hsample.websocket
    dsimp only [coalesceSocketProgress] at hsocket
    rcases hrowSocket : row.diagnostics.websocket with _ | held <;>
      rcases hsampleSocket : sample.diagnostics.websocket with _ | source <;>
      rw [hrowSocket, hsampleSocket] at hsocket
    · exact nomatch hsocket
    · exact nomatch hsocket
    · exact hheld socket (hrowSocket.trans hsocket)
    · obtain rfl := Option.some.inj hsocket
      obtain ⟨hduration, hclient, hupstream, hclientFrames, hupstreamFrames⟩ :=
        hsource source hsampleSocket
      exact ⟨hduration, hclient, hupstream, hclientFrames, hupstreamFrames⟩

/-- Assumes: a number with at most so many digits. It is written with them. -/
theorem length_decimal_le {value digits : ℕ} (hdigits : 1 ≤ digits) (hvalue : value < 10 ^ digits) :
    (decimal value).length ≤ digits := by
  unfold decimal
  split_ifs
  · exact hdigits
  · rw [List.length_map, List.length_reverse]
    exact (Nat.digits_length_le_iff (by decide) value).mpr hvalue

theorem length_numberTree_le {value : ℕ} (hvalue : value < 2 ^ 64) :
    (numberTree value).text.length ≤ 20 :=
  length_decimal_le (by decide) (hvalue.trans (by decide))

/-- Assumes: a word. It is written with at most twenty bytes, its sign included. -/
theorem length_integerTree_le {value : ℤ} (hge : -2 ^ 63 ≤ value) (hlt : value < 2 ^ 63) :
    (integerTree value).text.length ≤ 20 := by
  have hdigits : (decimal value.natAbs).length ≤ 19 :=
    length_decimal_le (by decide) (by omega)
  show List.length (if value < 0 then minus :: decimal value.natAbs
    else decimal value.natAbs) ≤ 20
  split_ifs
  · rw [List.length_cons]
    omega
  · omega

theorem length_boolTree_le (value : Bool) : (Tree.bool value).text.length ≤ 5 := by
  cases value <;> decide

/-- Assumes: bounded instants. One that may be missing is written with at most 37 bytes. -/
theorem RowFormats.Bounded.length_le {formats : RowFormats} (hformats : formats.Bounded)
    (instant : Option Timestamp) :
    (optionTree (instantTree formats) instant).text.length ≤ 37 := by
  rcases instant with _ | instant
  · show Tree.null.text.length ≤ 37
    decide
  · have hinstant := hformats instant
    show (quote :: escape (formats.instantText instant) ++ [quote]).length ≤ 37
    rw [List.length_append, List.length_cons, List.length_singleton]
    omega

/-- Assumes: bounded instants, and a row in range. What a sample can change fits the reserve. -/
theorem progressLength_le (hformats : formats.Bounded) {row : TrafficRequest}
    (hrow : row.InRange) : row.progressLength formats ≤ socketProgressReserve := by
  have helapsed := length_integerTree_le hrow.elapsedMs_ge hrow.elapsedMs_lt
  unfold TrafficRequest.progressLength RequestDiagnostics.progressLength socketProgressReserve
  rcases hsocket : row.diagnostics.websocket with _ | socket
  · rw [Option.map_none, Option.getD_none]
    omega
  · rw [Option.map_some, Option.getD_some]
    unfold WebSocketDiagnostics.progressLength
    obtain ⟨hduration, hclient, hupstream, hclientFrames, hupstreamFrames⟩ :=
      hrow.websocket socket hsocket
    have hobserved := hformats.length_le socket.observedAt
    have hclientAt := hformats.length_le socket.lastClientActivityAt
    have hupstreamAt := hformats.length_le socket.lastUpstreamActivityAt
    have hclientClose := length_boolTree_le socket.clientCloseFrame
    have hupstreamClose := length_boolTree_le socket.upstreamCloseFrame
    have hnumbers := length_numberTree_le hduration
    have hclientBytes := length_numberTree_le hclient
    have hupstreamBytes := length_numberTree_le hupstream
    have hclientFrames' := length_numberTree_le hclientFrames
    have hupstreamFrames' := length_numberTree_le hupstreamFrames
    omega

end Formats

end Relayna.Traffic

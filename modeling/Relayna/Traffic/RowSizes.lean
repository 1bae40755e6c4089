import Relayna.Traffic.RowDocument
import Relayna.Traffic.Snapshot

/-!
# The sizes recorded for the rows

A row is measured when it is recorded: by the length of its JSON, and for a row with socket
diagnostics by a reserve on top of it. A sample within the sampling interval changes a row without
measuring it again. The reserve is enough for whatever samples change (`Measured.length_le`), but a
row whose protocol is a socket's and which has no socket diagnostics took none, and the sample
changes its elapsed time all the same.

`row_sizes_cover_iff` says in which runs the recorded sizes cover the rows at every moment:
exactly in those in which no such sample needs more digits than the row has room for.
`reserveless_row_grows` is a run in which one does.
-/

set_option autoImplicit false
set_option relaxedAutoImplicit false

namespace Relayna.Traffic

open Library.Json Library.KeyedSum Library.Transition

/-- `publication_snapshot`. -/
def publicationSnapshot (limits : Limits) (instanceId : String) (sampledAt : Timestamp)
    (state : MonitorState) : TrafficActiveSnapshot :=
  activeSnapshotWithLimit limits instanceId sampledAt state .default 2048

section Sizes

variable (formats : RowFormats)

/-- The lengths that the monitor measures. -/
def measure (row : TrafficRequest) : Option ℕ :=
  some (rowLength formats row)

/-- The recorded sizes cover the rows, and those of a publication as a whole. -/
structure Covers (limits : Limits) (state : MonitorState) : Prop where
  length_le : ∀ gauge id row size, (state.partition gauge).rows.lookup id = some (row, size) →
    rowLength formats row ≤ size
  published_le : ∀ instanceId sampledAt,
    ((publicationSnapshot limits instanceId sampledAt state).rows.map (rowLength formats)).sum ≤
      state.http.bytes + state.websocket.bytes
  bytes_le : state.http.bytes ≤ limits.byteLimit ∧ state.websocket.bytes ≤ limits.byteLimit

/-! ### The condition -/

/-- A sample that reaches the row of its request without being observed: the request is open, and
has been sampled within the interval. -/
def Throttled (state : MonitorState) (request : TrafficRequest) (now : Timestamp) : Prop :=
  request.completed = false ∧ ∃ lifecycle, state.lifecycles.lookup request.id = some lifecycle ∧
    lifecycle.marker ≠ .completed ∧
    lifecycle.sampledAt.any (now - · < socketSampleInterval) = true

/-- The bytes that the recorded size of a row has for its elapsed time. -/
def elapsedRoom (row : TrafficRequest) (size : ℕ) : ℕ :=
  size - (rowLength formats row - (integerTree row.elapsedMs).text.length)

/-- Where the row that a throttled sample reaches has no socket diagnostics, the elapsed time of the
sample fits the room of the row. -/
def Fits (state : MonitorState) : Action → Prop
  | .publishSocketProgress request now =>
    Throttled state request now → ∀ row size,
      state.websocket.rows.lookup request.id = some (row, size) →
      row.diagnostics.websocket = none →
      (integerTree request.elapsedMs).text.length ≤ elapsedRoom formats row size
  | _ => True

def Action.request? : Action → Option TrafficRequest
  | .publish request => some request
  | .publishSocketProgress request _ => some request
  | _ => none

def Action.InRange (action : Action) : Prop :=
  ∀ request ∈ action.request?, request.InRange

/-! ### The rows after a step -/

theorem Lifecycle.exists_history (lifecycle : Lifecycle) :
    ∃ history : History, history.lifecycle = lifecycle := by
  obtain ⟨marker, sampledAt⟩ := lifecycle
  cases marker with
  | unseen => exact ⟨⟨.unseen, sampledAt⟩, rfl⟩
  | http => exact ⟨⟨.opened .http, sampledAt⟩, rfl⟩
  | websocket => exact ⟨⟨.opened .websocket, sampledAt⟩, rfl⟩
  | completed => exact ⟨⟨.closed, sampledAt⟩, rfl⟩

/-- How an entry came about in a step: it was recorded for the record of the action, it is an old
one, or it is an old one of a socket with the progress of a throttled sample. -/
inductive Origin (limits : Limits) (state : MonitorState) (action : Action) (gauge : Gauge)
    (id : Uuid) (row : TrafficRequest) (size : ℕ) : Prop
  | recorded (request : TrafficRequest) (hrequest : action.request? = some request)
      (hrecorded : Recorded (measure formats) limits request row size)
  | kept (hheld : (state.partition gauge).rows.lookup id = some (row, size))
  | coalesced (request : TrafficRequest) (now : Timestamp) (held : TrafficRequest)
      (haction : action = .publishSocketProgress request now)
      (hthrottled : Throttled state request now) (hgauge : gauge = .websocket)
      (hid : id = request.id)
      (hheld : (state.partition gauge).rows.lookup id = some (held, size))
      (hrow : row = coalesceSocketProgress held request)

variable {formats} {limits : Limits} {state : MonitorState}

theorem origin_of_coalesced {action : Action} {request : TrafficRequest} {now : Timestamp}
    {gauge : Gauge} {id : Uuid} {row : TrafficRequest} {size : ℕ}
    (haction : action = .publishSocketProgress request now)
    (hthrottled : id = request.id → Throttled state request now)
    (hrow : ((state.coalesce request).partition gauge).rows.lookup id = some (row, size)) :
    Origin formats limits state action gauge id row size := by
  obtain ⟨held, hheld, rfl | ⟨hgauge, hid, hcoalesced⟩⟩ := coalesce_rows hrow
  · exact .kept hheld
  · exact .coalesced request now held haction (hthrottled hid) hgauge hid hheld hcoalesced

/-- Every entry after a step has an origin. -/
theorem origin_of_step {action : Action} {gauge : Gauge} {id : Uuid} {row : TrafficRequest}
    {size : ℕ}
    (hrow : ((step (measure formats) limits state action).partition gauge).rows.lookup id =
      some (row, size)) :
    Origin formats limits state action gauge id row size := by
  cases action with
  | create other =>
    simp only [step] at hrow
    split_ifs at hrow
    · exact .kept hrow
    · rcases gauge with _ | _ <;> exact .kept hrow
  | publish request =>
    simp only [step] at hrow
    rcases hlifecycle : state.lifecycles.lookup request.id with _ | lifecycle
    · rw [hlifecycle] at hrow
      exact .kept hrow
    · rw [hlifecycle] at hrow
      obtain ⟨history, rfl⟩ := lifecycle.exists_history
      by_cases hclosed : history.phase = .closed
      · dsimp only at hrow
        rw [publish_closed_rows state request hclosed gauge] at hrow
        exact .kept hrow
      · rcases publish_rows hclosed hrow with ⟨-, hrecorded⟩ | ⟨-, hheld⟩
        · exact .recorded request rfl hrecorded
        · exact .kept hheld
  | publishSocketProgress request now =>
    simp only [step] at hrow
    rcases hlifecycle : state.lifecycles.lookup request.id with _ | lifecycle
    · rw [hlifecycle] at hrow
      exact .kept hrow
    · rw [hlifecycle] at hrow
      obtain ⟨history, rfl⟩ := lifecycle.exists_history
      dsimp only at hrow
      rw [publishSocketProgress_partition] at hrow
      split_ifs at hrow with hidle hthrottled
      · exact .kept hrow
      · obtain ⟨hopen, hphase⟩ := not_or.mp hidle
        refine origin_of_coalesced rfl (fun _ ↦ ⟨Bool.eq_false_of_not_eq_true hopen, _,
          hlifecycle, ?_, hthrottled⟩) hrow
        exact fun hmarker ↦ hphase (history.marker_eq_completed.mp hmarker)
      · obtain ⟨-, hphase⟩ := not_or.mp hidle
        rcases observe_rows hphase hrow with ⟨-, hrecorded⟩ | ⟨hne, hheld⟩
        · exact .recorded request rfl hrecorded
        · exact origin_of_coalesced rfl (fun hid ↦ absurd hid hne) hheld
  | dropLease other =>
    simp only [step] at hrow
    rcases hlifecycle : state.lifecycles.lookup other with _ | lifecycle
    · rw [hlifecycle] at hrow
      exact .kept hrow
    · rw [hlifecycle] at hrow
      obtain ⟨history, rfl⟩ := lifecycle.exists_history
      exact .kept (dropLease_rows hrow)

/-! ### The reserve is enough -/

/-- The rows are in range, and the size of a row with socket diagnostics has the reserve for
whatever a sample can change. -/
structure Measured (formats : RowFormats) (state : MonitorState) : Prop where
  inRange : ∀ gauge id row size, (state.partition gauge).rows.lookup id = some (row, size) →
    row.InRange
  reserved : ∀ gauge id row size, (state.partition gauge).rows.lookup id = some (row, size) →
    row.diagnostics.websocket.isSome →
    rowLength formats row.blank + socketProgressReserve ≤ size + row.blank.progressLength formats

/-- Assumes: a recorded entry. Its size is the length of its row, with the reserve for a socket. -/
theorem Recorded.size_eq_add {request row : TrafficRequest} {size : ℕ}
    (hrecorded : Recorded (measure formats) limits request row size) :
    size = rowLength formats row +
      if row.diagnostics.websocket.isSome then socketProgressReserve else 0 := by
  obtain ⟨-, hsize, hle⟩ := hrecorded
  rw [hsize] at hle ⊢
  exact saturatingAdd_eq_of_le limits hle

theorem coalesce_isSome (held request : TrafficRequest) :
    (coalesceSocketProgress held request).diagnostics.websocket.isSome =
      held.diagnostics.websocket.isSome := by
  unfold coalesceSocketProgress
  rcases held.diagnostics.websocket with _ | target <;>
    rcases request.diagnostics.websocket with _ | source <;> rfl

theorem measured_initial : Measured formats .initial := by
  constructor
  all_goals
    intro gauge id row size hrow
    rcases gauge with _ | _ <;> exact absurd hrow (by simp [MonitorState.partition,
      MonitorState.initial, ActivePartition.empty])

/-- Assumes: an action in range. It keeps the rows in range and their reserves. -/
theorem measured_step (action : Action) (haction : action.InRange)
    (hmeasured : Measured formats state) :
    Measured formats (step (measure formats) limits state action) := by
  constructor
  · intro gauge id row size hrow
    rcases origin_of_step hrow with ⟨request, hrequest, hrecorded⟩ | hheld |
      ⟨request, now, held, rfl, -, -, -, hheld, rfl⟩
    · rw [hrecorded.row_eq]
      exact (haction request hrequest).project
    · exact hmeasured.inRange gauge id row size hheld
    · exact (hmeasured.inRange gauge id held size hheld).coalesce (haction request rfl)
  · intro gauge id row size hrow hsocket
    rcases origin_of_step hrow with ⟨request, -, hrecorded⟩ | hheld |
      ⟨request, now, held, -, -, -, -, hheld, rfl⟩
    · have hsize := hrecorded.size_eq_add
      rw [if_pos hsocket] at hsize
      have hlength := rowLength_eq formats row
      omega
    · exact hmeasured.reserved gauge id row size hheld hsocket
    · rw [coalesce_isSome] at hsocket
      rw [blank_coalesce]
      exact hmeasured.reserved gauge id held size hheld hsocket

/-- Assumes: bounded instants. The size of a row with socket diagnostics covers the row. -/
theorem Measured.length_le (hformats : formats.Bounded) (hmeasured : Measured formats state)
    {gauge : Gauge} {id : Uuid} {row : TrafficRequest} {size : ℕ}
    (hrow : (state.partition gauge).rows.lookup id = some (row, size))
    (hsocket : row.diagnostics.websocket.isSome) : rowLength formats row ≤ size := by
  have hlength := rowLength_eq formats row
  have hreserved := hmeasured.reserved gauge id row size hrow hsocket
  have hprogress := progressLength_le formats hformats (hmeasured.inRange gauge id row size hrow)
  omega

/-! ### Rows without socket diagnostics -/

/-- Assumes: a row without socket diagnostics. A sample changes the length of its elapsed time. -/
theorem rowLength_coalesce {held : TrafficRequest} (request : TrafficRequest)
    (hsocket : held.diagnostics.websocket = none) :
    rowLength formats (coalesceSocketProgress held request) +
        (integerTree held.elapsedMs).text.length =
      rowLength formats held + (integerTree request.elapsedMs).text.length := by
  have hheld := rowLength_eq formats held
  have hcoalesced := rowLength_eq formats (coalesceSocketProgress held request)
  have hprogress : (coalesceSocketProgress held request).progressLength formats =
      (integerTree request.elapsedMs).text.length := by
    unfold TrafficRequest.progressLength RequestDiagnostics.progressLength coalesceSocketProgress
    dsimp only
    rw [hsocket]
    rfl
  have hheldProgress : held.progressLength formats =
      (integerTree held.elapsedMs).text.length := by
    unfold TrafficRequest.progressLength RequestDiagnostics.progressLength
    rw [hsocket]
    rfl
  rw [blank_coalesce, hprogress] at hcoalesced
  rw [hheldProgress] at hheld
  omega

/-- Assumes: a row without socket diagnostics that its size covers. The size still covers the row
after a sample exactly when the elapsed time of the sample fits the room. -/
theorem rowLength_coalesce_le_iff {held : TrafficRequest} (request : TrafficRequest) {size : ℕ}
    (hsocket : held.diagnostics.websocket = none) (hheld : rowLength formats held ≤ size) :
    rowLength formats (coalesceSocketProgress held request) ≤ size ↔
      (integerTree request.elapsedMs).text.length ≤ elapsedRoom formats held size := by
  have hcoalesced : rowLength formats (coalesceSocketProgress held request) + _ = _ :=
    rowLength_coalesce request hsocket
  have helapsed := elapsedLength_le formats held
  unfold elapsedRoom
  omega

/-- Every size covers its row. -/
def Covered (formats : RowFormats) (state : MonitorState) : Prop :=
  ∀ gauge id row size, (state.partition gauge).rows.lookup id = some (row, size) →
    rowLength formats row ≤ size

/-- A throttled sample is coalesced into the row of its request, and no more. -/
theorem lookup_of_throttled {request held : TrafficRequest} {now : Timestamp} {size : ℕ}
    (hthrottled : Throttled state request now)
    (hheld : state.websocket.rows.lookup request.id = some (held, size)) :
    (step (measure formats) limits state
      (.publishSocketProgress request now)).websocket.rows.lookup request.id =
        some (coalesceSocketProgress held request, size) := by
  obtain ⟨hopen, lifecycle, hlifecycle, hmarker, hsampled⟩ := hthrottled
  simp only [step, hlifecycle]
  obtain ⟨history, rfl⟩ := lifecycle.exists_history
  have hidle : ¬ (request.completed = true ∨ history.phase = .closed) := by
    rw [hopen]
    rintro (hcompleted | hclosed)
    · exact absurd hcompleted Bool.false_ne_true
    · exact hmarker (history.marker_eq_completed.mpr hclosed)
  have hsampled' : history.sampledAt.any (now - · < socketSampleInterval) = true := hsampled
  show ((publishSocketProgress (measure formats) limits state history.lifecycle request
    now).partition .websocket).rows.lookup request.id = _
  rw [publishSocketProgress_partition, if_neg hidle, if_pos hsampled']
  exact lookup_coalesce hheld

/-- Assumes: bounded instants, and an action in range. It leaves every size covering its row exactly
when it fits. -/
theorem covered_step_iff (hformats : formats.Bounded) (action : Action) (haction : action.InRange)
    (hmeasured : Measured formats state) (hcovered : Covered formats state) :
    Covered formats (step (measure formats) limits state action) ↔ Fits formats state action := by
  constructor
  · intro hnext
    cases action with
    | publishSocketProgress request now =>
      intro hthrottled row size hrow hsocket
      rw [← rowLength_coalesce_le_iff request hsocket
        (hcovered .websocket request.id row size hrow)]
      exact hnext .websocket request.id _ size (lookup_of_throttled hthrottled hrow)
    | create id => trivial
    | publish request => trivial
    | dropLease id => trivial
  · intro hfits gauge id row size hrow
    rcases hsocket : row.diagnostics.websocket with _ | socket
    · rcases origin_of_step hrow with ⟨request, -, hrecorded⟩ | hheld |
        ⟨request, now, held, rfl, hthrottled, rfl, rfl, hheld, rfl⟩
      · rw [hrecorded.size_eq_add]
        exact Nat.le_add_right _ _
      · exact hcovered gauge id row size hheld
      · have hnone : held.diagnostics.websocket = none := by
          rw [← Option.not_isSome_iff_eq_none, ← coalesce_isSome held request, hsocket]
          exact Bool.false_ne_true
        rw [rowLength_coalesce_le_iff request hnone (hcovered _ _ held size hheld)]
        exact hfits hthrottled held size hheld hnone
    · have hsome : row.diagnostics.websocket.isSome := by rw [hsocket]; rfl
      exact (measured_step action haction hmeasured).length_le hformats hrow hsome

/-! ### Runs -/

/-- Assumes: sizes that cover their rows. The rows of a publication are within the bytes of their
partition. -/
theorem sum_selected_le {partition : ActivePartition} (hsound : partition.Sound limits)
    (hcovered : ∀ id row size, partition.rows.lookup id = some (row, size) →
      rowLength formats row ≤ size) (query : TrafficQuery) (limit : ℕ) :
    (((partition.selected query).take limit).map (rowLength formats)).sum ≤ partition.bytes := by
  have htake : (((partition.selected query).take limit).map (rowLength formats)).sum ≤
      ((partition.selected query).map (rowLength formats)).sum :=
    ((List.take_sublist _ _).map _).sum_le_sum fun _ _ ↦ Nat.zero_le _
  have hsort : ((partition.selected query).map (rowLength formats)).sum =
      (((partition.rows.entries.map fun entry ↦ entry.2.1).filter query.matchesActive).map
        (rowLength formats)).sum :=
    ((List.perm_insertionSort _ _).map _).sum_eq
  have hfilter : (((partition.rows.entries.map fun entry ↦ entry.2.1).filter
      query.matchesActive).map (rowLength formats)).sum ≤
        ((partition.rows.entries.map fun entry ↦ entry.2.1).map (rowLength formats)).sum :=
    (List.filter_sublist.map _).sum_le_sum fun _ _ ↦ Nat.zero_le _
  have hrows : ((partition.rows.entries.map fun entry ↦ entry.2.1).map (rowLength formats)).sum ≤
      recordedBytes partition.rows := by
    rw [List.map_map]
    exact total_le_total (fun _ (entry : TrafficRequest × ℕ) ↦ rowLength formats entry.1)
      (fun _ (entry : TrafficRequest × ℕ) ↦ entry.2) fun id entry hentry ↦
        hcovered id entry.1 entry.2 hentry
  rw [hsound.bytes_eq]
  omega

/-- Assumes: sound partitions. The recorded sizes cover the rows and their publications when they
cover each row. -/
theorem covers_iff (hsound : ∀ gauge, (state.partition gauge).Sound limits) :
    Covers formats limits state ↔ Covered formats state := by
  constructor
  · intro hcovers
    exact hcovers.length_le
  · intro hcovered
    refine ⟨hcovered, fun instanceId sampledAt ↦ ?_, (hsound .http).bytes_le,
      (hsound .websocket).bytes_le⟩
    have hhttp := sum_selected_le (hsound .http) (hcovered .http) .default 2048
    have hwebsocket := sum_selected_le (hsound .websocket) (hcovered .websocket) .default 2048
    unfold publicationSnapshot activeSnapshotWithLimit
    rw [List.map_append, List.sum_append]
    exact Nat.add_le_add hhttp hwebsocket

/-- Assumes: instants whose texts are bounded, and records whose numbers are within their types. In
a run of actions the recorded sizes cover the rows at every moment exactly when every sample fits
the room of the row that it reaches without being observed. -/
theorem row_sizes_cover_iff (formats : RowFormats) (hformats : formats.Bounded) (limits : Limits)
    (actions : List Action) (hactions : ∀ action ∈ actions, action.InRange) :
    (∀ before after, actions = before ++ after →
        Covers formats limits (run (step (measure formats) limits) .initial before)) ↔
      Guarded (step (measure formats) limits) (Fits formats) .initial actions := by
  have hinitial : Covered formats .initial := by
    intro gauge id row size hrow
    rcases gauge with _ | _ <;> exact absurd hrow (by simp [MonitorState.partition,
      MonitorState.initial, ActivePartition.empty])
  rw [← forall_prefix_iff_guarded (fun _ action haction hmeasured ↦
    measured_step action haction hmeasured) (fun _ action haction hmeasured hcovered ↦
      covered_step_iff hformats action haction hmeasured hcovered) actions .initial
        measured_initial hinitial hactions]
  refine forall₃_congr fun before after hsplit ↦ covers_iff fun gauge ↦ ?_
  exact (consistent_run (measure formats) limits before).sound gauge

end Sizes

/-! ### A row without a reserve -/

/-- The text forms of the start of the epoch and of the first id. -/
def epochFormats : RowFormats where
  instantText _ := ascii "1970-01-01T00:00:00Z"
  uuidText _ := ascii "00000000-0000-0000-0000-000000000001"

/-- A sample of a socket that has no diagnostics yet. -/
def upgradeSample (elapsedMs : ℤ) : TrafficRequest :=
  { TrafficRequest.received 1 with
    elapsedMs := elapsedMs
    diagnostics := { (TrafficRequest.received 1).diagnostics with protocol := some "websocket" } }

theorem epochFormats_bounded : epochFormats.Bounded := by
  intro instant
  show (escape (ascii "1970-01-01T00:00:00Z")).length ≤ 35
  decide

theorem upgradeSample_inRange {elapsedMs : ℤ} (hge : -2 ^ 63 ≤ elapsedMs)
    (hlt : elapsedMs < 2 ^ 63) : (upgradeSample elapsedMs).InRange :=
  ⟨hge, hlt, fun _ hsocket ↦ nomatch hsocket⟩

/-- The monitor once the upgrade has been sampled after nine milliseconds. -/
def upgraded : MonitorState :=
  run (step (measure epochFormats) .standard) .initial
    [.create 1, .publishSocketProgress (upgradeSample 9) 0]

/-- The sample is observed: its row is retained without a reserve. -/
theorem upgraded_lookup :
    upgraded.websocket.rows.lookup 1 = some (activeProjection (upgradeSample 9),
        rowLength epochFormats (activeProjection (upgradeSample 9))) ∧
      upgraded.lifecycles.lookup 1 = some { marker := .websocket, sampledAt := some 0 } := by
  decide +kernel

/-- A sample of another duration changes the row by the digits of that duration. -/
theorem upgraded_coalesce (elapsedMs : ℤ) :
    rowLength epochFormats (coalesceSocketProgress (activeProjection (upgradeSample 9))
        (upgradeSample elapsedMs)) + 1 =
      rowLength epochFormats (activeProjection (upgradeSample 9)) +
        (integerTree elapsedMs).text.length := by
  have hsocket : (activeProjection (upgradeSample 9)).diagnostics.websocket = none := rfl
  have helapsed : (integerTree (activeProjection (upgradeSample 9)).elapsedMs).text.length = 1 := by
    decide
  rw [← helapsed]
  exact rowLength_coalesce (upgradeSample elapsedMs) hsocket

theorem upgraded_throttled (elapsedMs : ℤ) : Throttled upgraded (upgradeSample elapsedMs) 1 :=
  ⟨rfl, _, upgraded_lookup.2, by decide, by decide⟩

/-- The next sample is coalesced into the row, and takes one byte as the one before it. -/
theorem row_sizes_cover_upgrade :
    Guarded (step (measure epochFormats) .standard) (Fits epochFormats) .initial
        [.create 1, .publishSocketProgress (upgradeSample 9) 0,
          .publishSocketProgress (upgradeSample 8) 1] ∧
      Throttled upgraded (upgradeSample 8) 1 ∧
      Covers epochFormats .standard (run (step (measure epochFormats) .standard) .initial
        [.create 1, .publishSocketProgress (upgradeSample 9) 0,
          .publishSocketProgress (upgradeSample 8) 1]) := by
  have hactions : ∀ action ∈ [Action.create 1, .publishSocketProgress (upgradeSample 9) 0,
      .publishSocketProgress (upgradeSample 8) 1], action.InRange := by
    intro action haction request hrequest
    simp only [List.mem_cons, List.not_mem_nil, or_false] at haction
    rcases haction with rfl | rfl | rfl
    · exact nomatch hrequest
    · obtain rfl := Option.some.inj hrequest
      exact upgradeSample_inRange (by decide) (by decide)
    · obtain rfl := Option.some.inj hrequest
      exact upgradeSample_inRange (by decide) (by decide)
  have hobserved : Fits epochFormats (step (measure epochFormats) .standard .initial (.create 1))
      (.publishSocketProgress (upgradeSample 9) 0) := by
    rintro - row size hrow -
    exact nomatch hrow
  have hcoalesced : Fits epochFormats upgraded (.publishSocketProgress (upgradeSample 8) 1) := by
    rintro - row size hrow hsocket
    obtain ⟨rfl, rfl⟩ := Prod.mk.inj (Option.some.inj (upgraded_lookup.1.symm.trans hrow))
    rw [← rowLength_coalesce_le_iff _ hsocket le_rfl]
    have hdigits : (integerTree 8).text.length = 1 := by decide
    have hsame := upgraded_coalesce 8
    omega
  have hguarded : Guarded (step (measure epochFormats) .standard) (Fits epochFormats) .initial
      [.create 1, .publishSocketProgress (upgradeSample 9) 0,
        .publishSocketProgress (upgradeSample 8) 1] := ⟨trivial, hobserved, hcoalesced, trivial⟩
  exact ⟨hguarded, upgraded_throttled 8, (row_sizes_cover_iff epochFormats epochFormats_bounded
    .standard _ hactions).mpr hguarded _ [] (List.append_nil _).symm⟩

/-- A sample after ten milliseconds is coalesced as well: the row then has one byte more than its
size. -/
theorem reserveless_row_grows :
    ¬ Covers epochFormats .standard (run (step (measure epochFormats) .standard) .initial
      [.create 1, .publishSocketProgress (upgradeSample 9) 0,
        .publishSocketProgress (upgradeSample 10) 1]) := by
  intro hcovers
  have hrun : run (step (measure epochFormats) .standard) .initial
      [.create 1, .publishSocketProgress (upgradeSample 9) 0,
        .publishSocketProgress (upgradeSample 10) 1] =
      step (measure epochFormats) .standard upgraded
        (.publishSocketProgress (upgradeSample 10) 1) := by
    simp only [upgraded, run_cons, run_nil]
  rw [hrun] at hcovers
  have hheld : upgraded.websocket.rows.lookup (upgradeSample 10).id =
      some (activeProjection (upgradeSample 9),
        rowLength epochFormats (activeProjection (upgradeSample 9))) := upgraded_lookup.1
  have hle := hcovers.length_le .websocket (upgradeSample 10).id _ _
    (lookup_of_throttled (upgraded_throttled 10) hheld)
  have hgrown := upgraded_coalesce 10
  have hdigits : (integerTree 10).text.length = 2 := by decide
  omega

end Relayna.Traffic

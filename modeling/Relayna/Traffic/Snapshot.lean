import Mathlib.Data.Finset.Card
import Mathlib.Data.List.Sort
import Relayna.Traffic.Rows

/-!
# Snapshots of the open requests

`TrafficMonitor::active_snapshot` filters the retained rows of each partition by a query, returns
the newest of them and reports how many open requests match. Where rows were dropped for space the
count is unknown, unless the query filters no rows: then it is the total of the partition, or zero
when the query names another protocol.

What the monitor should report is decided by the actions: `note` keeps, beside the histories, the
last record that was accepted for each request. `Reflects` says that a retained row answers every
query as the summary of that record does, and `snapshot_exact_iff` states exactly which snapshots
count the matching requests of a partition.
-/

set_option autoImplicit false
set_option relaxedAutoImplicit false

namespace Relayna.Traffic

open Library.KeyedSum Library.Transition

/-! ### Queries -/

/-- `TrafficQuery`, without the fields that only saved history and the handlers read. -/
structure TrafficQuery where
  id : Option Uuid
  requestId : Option String
  service : Option String
  projectId : Option Uuid
  keyId : Option Uuid
  status : Option ℕ
  failuresOnly : Option Bool
  failureCode : Option String
  fromTime : Option Timestamp
  toTime : Option Timestamp
  before : Option Timestamp
  beforeId : Option Uuid
  limit : Option ℤ
  protocol : Option String

/-- A query that filters nothing. -/
def TrafficQuery.default : TrafficQuery :=
  ⟨none, none, none, none, none, none, none, none, none, none, none, none, none, none⟩

def Protocol.text : Protocol → String
  | .http => "http"
  | .websocket => "websocket"
  | .unknown => "unknown"

/-- `matches_active`. -/
def TrafficQuery.matchesActive (query : TrafficQuery) (row : TrafficRequest) : Bool :=
  query.id.all (· = row.id) &&
    query.requestId.all (fun text ↦ text.toList <:+: row.requestId.toList) &&
    query.service.all (fun service ↦ row.service = some service) &&
    query.projectId.all (fun project ↦ row.projectId = some project) &&
    query.keyId.all (fun key ↦ row.keyId = some key) &&
    query.status.all (fun status ↦ row.clientStatus = some status) &&
    query.failureCode.all (fun code ↦ row.diagnostics.failureCode = some code) &&
    (query.failuresOnly ≠ some true || row.diagnostics.failureCode.isSome) &&
    query.protocol.all (fun protocol ↦ row.protocol.text = protocol) &&
    query.fromTime.all (· ≤ row.startedAt) &&
    query.toTime.all (row.startedAt ≤ ·) &&
    (query.before.bind fun before ↦ query.beforeId.map (before, ·)).all fun bound ↦
      row.startedAt < bound.1 ∨ row.startedAt = bound.1 ∧ row.id < bound.2

/-- `has_row_filters`. -/
def TrafficQuery.hasRowFilters (query : TrafficQuery) : Bool :=
  query.id.isSome || query.requestId.isSome || query.service.isSome || query.projectId.isSome ||
    query.keyId.isSome || query.status.isSome || query.failureCode.isSome ||
    query.failuresOnly = some true || query.fromTime.isSome || query.toTime.isSome ||
      query.before.isSome

/-! ### Snapshots -/

/-- `TrafficCoverage`. -/
structure TrafficCoverage where
  total : ℕ
  retained : ℕ
  retainedBytes : ℕ
  recordLimit : ℕ
  byteLimit : ℕ
  saturated : Bool
  matching : Option ℕ

/-- `ActivePartition::coverage`. -/
def ActivePartition.coverage (limits : Limits) (partition : ActivePartition) : TrafficCoverage where
  total := partition.total
  retained := partition.rows.entries.length
  retainedBytes := partition.bytes
  recordLimit := limits.recordLimit
  byteLimit := limits.byteLimit
  saturated := partition.rows.entries.length < partition.total
  matching := some partition.total

/-- `TrafficSummarySnapshot`. -/
structure TrafficSummarySnapshot where
  instanceId : String
  sampledAt : Timestamp
  httpCount : ℕ
  websocketCount : ℕ
  http : TrafficCoverage
  websocket : TrafficCoverage

/-- `TrafficActiveSnapshot`. -/
structure TrafficActiveSnapshot where
  summary : TrafficSummarySnapshot
  rows : List TrafficRequest
  hasMore : Bool
  truncated : Bool

/-- The order of the rows: the later start first, and the larger id among equal starts. -/
def TrafficRequest.Newer (first second : TrafficRequest) : Prop :=
  second.startedAt < first.startedAt ∨ second.startedAt = first.startedAt ∧ second.id ≤ first.id

instance (first second : TrafficRequest) : Decidable (first.Newer second) :=
  inferInstanceAs (Decidable (_ ∨ _))

/-- The retained rows that match, in order. -/
def ActivePartition.selected (partition : ActivePartition) (query : TrafficQuery) :
    List TrafficRequest :=
  ((partition.rows.entries.map fun entry ↦ entry.2.1).filter query.matchesActive).insertionSort
    TrafficRequest.Newer

/-- The coverage of a partition under a query. -/
def ActivePartition.covers (limits : Limits) (partition : ActivePartition) (protocol : String)
    (query : TrafficQuery) : TrafficCoverage :=
  let coverage := partition.coverage limits
  let matching :=
    if coverage.saturated && query.hasRowFilters then none
    else some (partition.selected query).length
  { coverage with
    matching :=
      -- A protocol filter selects a whole partition, including overflow.
      if !query.hasRowFilters then
        some (if query.protocol.all (· = protocol) then partition.total else 0)
      else matching }

/-- `active_snapshot_with_limit`. -/
def activeSnapshotWithLimit (limits : Limits) (instanceId : String) (sampledAt : Timestamp)
    (state : MonitorState) (query : TrafficQuery) (limit : ℕ) : TrafficActiveSnapshot :=
  let http := state.http.covers limits "http" query
  let websocket := state.websocket.covers limits "websocket" query
  { summary :=
      { instanceId := instanceId
        sampledAt := sampledAt
        httpCount := state.http.total
        websocketCount := state.websocket.total
        http := http
        websocket := websocket }
    rows := (state.http.selected query).take limit ++ (state.websocket.selected query).take limit
    hasMore := limit < (state.http.selected query).length ||
      limit < (state.websocket.selected query).length
    truncated := http.saturated || websocket.saturated }

/-- The largest number of rows of a partition that a query asks for. -/
def TrafficQuery.rowLimit (query : TrafficQuery) : ℕ :=
  (max 1 (min 200 (query.limit.getD 100))).toNat

/-- `active_snapshot`. -/
def activeSnapshot (limits : Limits) (instanceId : String) (sampledAt : Timestamp)
    (state : MonitorState) (query : TrafficQuery) : TrafficActiveSnapshot :=
  activeSnapshotWithLimit limits instanceId sampledAt state query query.rowLimit

/-! ### What the requests are -/

/-- The last record that was accepted for each request. -/
abbrev Observed := AList fun _ : Uuid ↦ TrafficRequest

/-- Whether a publication finds its request open. -/
def History.takesPublication (history : History) : Bool :=
  history.phase ≠ .closed

/-- Whether a sample finds its request open and outside the sampling interval of the last one. -/
def History.takesSample (history : History) (request : TrafficRequest) (now : Timestamp) : Bool :=
  !request.completed && history.phase ≠ .closed &&
    !history.sampledAt.any (now - · < socketSampleInterval)

/-- The records after an action. -/
def note (histories : Histories) (observed : Observed) : Action → Observed
  | .publish request =>
    if (histories.lookup request.id).any History.takesPublication then
      observed.insert request.id request
    else observed
  | .publishSocketProgress request now =>
    if (histories.lookup request.id).any fun history ↦ history.takesSample request now then
      observed.insert request.id request
    else observed
  | _ => observed

/-- The histories and the records after an action. -/
def recordAll (known : Histories × Observed) (action : Action) : Histories × Observed :=
  (record known.1 action, note known.1 known.2 action)

/-- The requests that are open in a gauge. -/
def inFlight (gauge : Gauge) (histories : Histories) : Finset Uuid :=
  histories.keys.toFinset.filter fun id ↦
    (histories.lookup id).map History.phase = some (.opened gauge)

/-- The requests that are open in a gauge and whose summaries match a query. -/
def matchingInFlight (query : TrafficQuery) (gauge : Gauge) (known : Histories × Observed) :
    Finset Uuid :=
  (inFlight gauge known.1).filter fun id ↦
    (known.2.lookup id).any fun request ↦ query.matchesActive (activeProjection request)

/-- The name of a gauge, as a protocol filter spells it. -/
def Gauge.name : Gauge → String
  | .http => "http"
  | .websocket => "websocket"

/-! ### Summaries answer queries as their records do -/

theorem coalesceSocketProgress_protocol (row sample : TrafficRequest) :
    (coalesceSocketProgress row sample).protocol = row.protocol := by
  have hsocket : (coalesceSocketProgress row sample).diagnostics.websocket.isSome =
      row.diagnostics.websocket.isSome := by
    dsimp only [coalesceSocketProgress]
    rcases row.diagnostics.websocket with _ | target <;>
      rcases sample.diagnostics.websocket with _ | source <;> rfl
  unfold TrafficRequest.protocol
  rw [hsocket]
  rfl

/-- The progress of a socket is not queried. -/
theorem matchesActive_coalesce (query : TrafficQuery) (row sample : TrafficRequest) :
    query.matchesActive (coalesceSocketProgress row sample) = query.matchesActive row := by
  unfold TrafficQuery.matchesActive
  rw [coalesceSocketProgress_protocol]
  rfl

/-- A text of at most 256 characters is not cut. -/
theorem bounded_eq_self {text : String} (hlength : text.length ≤ 256) : bounded text = text := by
  unfold bounded
  rw [List.take_of_length_le (by rwa [String.length_toList]), String.ofList_toList]

/-- A short text is the bounded form of no other text. -/
theorem bounded_eq_iff {text short : String} (hshort : short.length < 256) :
    bounded text = short ↔ text = short := by
  constructor
  · intro hbounded
    have hlist : text.toList.take 256 = short.toList := by
      rw [← hbounded, bounded, String.toList_ofList]
    have hlength : (text.toList.take 256).length < 256 := by
      rwa [hlist, String.length_toList]
    rw [List.length_take] at hlength
    rw [← hbounded, bounded_eq_self]
    rw [← String.length_toList]
    omega
  · rintro rfl
    exact bounded_eq_self hshort.le

theorem activeProjection_protocol (request : TrafficRequest) :
    (activeProjection request).protocol = request.protocol := by
  have htext (name : String) (hname : name.length < 256) :
      request.diagnostics.protocol.map bounded = some name ↔
        request.diagnostics.protocol = some name := by
    rcases request.diagnostics.protocol with _ | text
    · simp
    · simpa using bounded_eq_iff hname
  unfold TrafficRequest.protocol activeProjection
  simp only [htext "websocket" (by decide), htext "http" (by decide), Option.isSome_map]

/-! ### Rows follow the records -/

/-- Every open request has a record of its gauge, and a retained row answers every query as the
summary of that record does. -/
structure Reflects (state : MonitorState) (known : Histories × Observed) : Prop where
  observed : ∀ gauge id history, known.1.lookup id = some history →
    history.phase = .opened gauge → ∃ request, known.2.lookup id = some request ∧
      request.gauge = gauge
  answers : ∀ gauge id row size, (state.partition gauge).rows.lookup id = some (row, size) →
    ∃ request, known.2.lookup id = some request ∧
      ∀ query : TrafficQuery, query.matchesActive row =
        query.matchesActive (activeProjection request)

section Monitor

variable {serializedLength : TrafficRequest → Option ℕ} {limits : Limits}

/-- A row after a sample is the summary of its record, or an old row: of another request, where the
sample is taken, and with newer progress at most. -/
theorem publishSocketProgress_rows {state : MonitorState} {history : History}
    {request : TrafficRequest} {now : Timestamp} {gauge : Gauge} {id : Uuid} {row : TrafficRequest}
    {size : ℕ}
    (hrow : ((publishSocketProgress serializedLength limits state history.lifecycle request
      now).partition gauge).rows.lookup id = some (row, size)) :
    history.takesSample request now = true ∧ id = request.id ∧ row = activeProjection request ∨
      (history.takesSample request now = true → id ≠ request.id) ∧
        ∃ held, (state.partition gauge).rows.lookup id = some (held, size) ∧
          ∀ query : TrafficQuery, query.matchesActive row = query.matchesActive held := by
  have hcoalesced (hheld : ((state.coalesce request).partition gauge).rows.lookup id =
      some (row, size)) : ∃ held, (state.partition gauge).rows.lookup id = some (held, size) ∧
        ∀ query : TrafficQuery, query.matchesActive row = query.matchesActive held := by
    obtain ⟨old, hold, rfl | ⟨-, -, rfl⟩⟩ := coalesce_rows hheld
    · exact ⟨row, hold, fun _ ↦ rfl⟩
    · exact ⟨old, hold, fun query ↦ matchesActive_coalesce query old request⟩
  rw [publishSocketProgress_partition] at hrow
  split_ifs at hrow with hidle hthrottled
  · refine .inr ⟨fun htakes ↦ ?_, row, hrow, fun _ ↦ rfl⟩
    simp only [History.takesSample, Bool.and_eq_true, Bool.not_eq_true',
      decide_eq_true_eq] at htakes
    rcases hidle with hcompleted | hclosed
    · exact absurd (hcompleted.symm.trans htakes.1.1) (by decide)
    · exact absurd hclosed htakes.1.2
  · refine .inr ⟨fun htakes ↦ ?_, hcoalesced hrow⟩
    simp only [History.takesSample, hthrottled, Bool.not_true, Bool.and_false,
      Bool.false_eq_true] at htakes
  · obtain ⟨hopen, hphase⟩ := not_or.mp hidle
    have htakes : history.takesSample request now = true := by
      unfold History.takesSample
      simp only [Bool.not_eq_true] at hopen hthrottled
      simp [hopen, hphase, hthrottled]
    rcases observe_rows hphase hrow with ⟨hid, hself⟩ | ⟨hne, hheld⟩
    · exact .inl ⟨htakes, hid, hself.row_eq⟩
    · exact .inr ⟨fun _ ↦ hne, hcoalesced hheld⟩

/-- Assumes: a row that answers as an old row of another request. It still answers as the record of
that request when a record is noted. -/
theorem Reflects.answers_insert {state : MonitorState} {known : Histories × Observed}
    (hreflects : Reflects state known) {request row held : TrafficRequest} {gauge : Gauge}
    {id : Uuid} {size : ℕ} (hne : id ≠ request.id)
    (hheld : (state.partition gauge).rows.lookup id = some (held, size))
    (hsame : ∀ query : TrafficQuery, query.matchesActive row = query.matchesActive held) :
    ∃ noted, (known.2.insert request.id request).lookup id = some noted ∧
      ∀ query : TrafficQuery, query.matchesActive row =
        query.matchesActive (activeProjection noted) := by
  obtain ⟨noted, hnoted, hanswers⟩ := hreflects.answers gauge id held size hheld
  refine ⟨noted, (AList.lookup_insert_ne hne).trans hnoted, fun query ↦ ?_⟩
  rw [hsame query, hanswers query]

/-- Assumes: a phase in which a record leaves its request. The record has that gauge. -/
theorem TrafficRequest.gauge_of_phase {request : TrafficRequest} {gauge : Gauge}
    (hphase : request.phase = .opened gauge) : request.gauge = gauge := by
  unfold TrafficRequest.phase at hphase
  split_ifs at hphase
  exact Phase.opened.inj hphase

/-- Assumes: a history that is replaced by one whose phase is that of a new record. Noting the
record keeps a record of its gauge for every open request. -/
theorem Reflects.observed_insert {state : MonitorState} {known : Histories × Observed}
    (hreflects : Reflects state known) {request : TrafficRequest} {moved : History}
    (hmoved : moved.phase = request.phase) {gauge : Gauge} {id : Uuid} {history : History}
    (hhistory : (known.1.insert request.id moved).lookup id = some history)
    (hphase : history.phase = .opened gauge) :
    ∃ noted, (known.2.insert request.id request).lookup id = some noted ∧ noted.gauge = gauge := by
  rcases Library.Table.lookup_insert_cases hhistory with ⟨rfl, rfl⟩ | ⟨hid, hold⟩
  · exact ⟨request, AList.lookup_insert _, TrafficRequest.gauge_of_phase (hmoved ▸ hphase)⟩
  · rw [AList.lookup_insert_ne hid]
    exact hreflects.observed gauge id history hold hphase

/-- Assumes: a history that is replaced by one that is open only where it was. Every open request
keeps its record. -/
theorem Reflects.observed_of_open {state : MonitorState} {known : Histories × Observed}
    (hreflects : Reflects state known) {replaced : Uuid} {before moved : History}
    (hbefore : known.1.lookup replaced = some before)
    (hmoved : ∀ gauge, moved.phase = .opened gauge → before.phase = .opened gauge) {gauge : Gauge}
    {id : Uuid} {history : History}
    (hhistory : (known.1.insert replaced moved).lookup id = some history)
    (hphase : history.phase = .opened gauge) :
    ∃ noted, known.2.lookup id = some noted ∧ noted.gauge = gauge := by
  rcases Library.Table.lookup_insert_cases hhistory with ⟨rfl, rfl⟩ | ⟨-, hold⟩
  · exact hreflects.observed gauge id before hbefore (hmoved gauge hphase)
  · exact hreflects.observed gauge id history hold hphase

/-- Publications keep the rows reflected. -/
theorem reflects_publish {state : MonitorState} {known : Histories × Observed}
    (hreflects : Reflects state known) {history : History} {request : TrafficRequest}
    (hhistory : known.1.lookup request.id = some history) :
    Reflects (publish serializedLength limits state history.lifecycle request)
      (known.1.insert request.id (history.publish request),
        if history.takesPublication then known.2.insert request.id request else known.2) := by
  by_cases hclosed : history.phase = .closed
  · have hkept : history.publish request = history := if_pos hclosed
    have htakes : ¬ history.takesPublication = true := by
      simp [History.takesPublication, hclosed]
    rw [hkept, if_neg htakes]
    refine ⟨fun gauge id other hother hphase ↦ ?_, fun gauge id row size hrow ↦ ?_⟩
    · exact hreflects.observed_of_open hhistory (fun _ hopened ↦ hopened) hother hphase
    · rw [publish_closed_rows state request hclosed gauge] at hrow
      exact hreflects.answers gauge id row size hrow
  · have hmoved : (history.publish request).phase = request.phase := by
      unfold History.publish
      rw [if_neg hclosed]
    have htakes : history.takesPublication = true := by
      simp [History.takesPublication, hclosed]
    rw [if_pos htakes]
    refine ⟨fun gauge id other hother hphase ↦ ?_, fun gauge id row size hrow ↦ ?_⟩
    · exact hreflects.observed_insert hmoved hother hphase
    · rcases publish_rows hclosed hrow with hself | ⟨hne, hheld⟩
      · exact ⟨request, hself.1 ▸ AList.lookup_insert _, fun query ↦ by rw [hself.2.row_eq]⟩
      · exact hreflects.answers_insert hne hheld fun _ ↦ rfl

/-- Samples keep the rows reflected. -/
theorem reflects_publishSocketProgress {state : MonitorState} {known : Histories × Observed}
    (hreflects : Reflects state known) {history : History} {request : TrafficRequest}
    (hhistory : known.1.lookup request.id = some history) (now : Timestamp) :
    Reflects (publishSocketProgress serializedLength limits state history.lifecycle request now)
      (known.1.insert request.id (history.sample request now),
        if history.takesSample request now then known.2.insert request.id request
        else known.2) := by
  by_cases htakes : history.takesSample request now = true
  · have hmoved : (history.sample request now).phase = request.phase := by
      unfold History.takesSample at htakes
      unfold History.sample
      rw [if_neg (by simp_all), if_neg (by simp_all)]
    rw [if_pos htakes]
    refine ⟨fun gauge id other hother hphase ↦ ?_, fun gauge id row size hrow ↦ ?_⟩
    · exact hreflects.observed_insert hmoved hother hphase
    · rcases publishSocketProgress_rows hrow with ⟨-, hself⟩ | ⟨hne, hold⟩
      · exact ⟨request, hself.1 ▸ AList.lookup_insert _, fun query ↦ by rw [hself.2]⟩
      · obtain ⟨held, hheld, hsame⟩ := hold
        exact hreflects.answers_insert (hne htakes) hheld hsame
  · have hkept : history.sample request now = history := by
      unfold History.takesSample at htakes
      unfold History.sample
      split_ifs
      · rfl
      · rfl
      · exact absurd htakes (by simp_all)
    rw [if_neg htakes, hkept]
    refine ⟨fun gauge id other hother hphase ↦ ?_, fun gauge id row size hrow ↦ ?_⟩
    · exact hreflects.observed_of_open hhistory (fun _ hopened ↦ hopened) hother hphase
    · rcases publishSocketProgress_rows hrow with ⟨htakes', -⟩ | ⟨-, held, hheld, hsame⟩
      · exact absurd htakes' htakes
      · obtain ⟨noted, hnoted, hanswers⟩ := hreflects.answers gauge id held size hheld
        exact ⟨noted, hnoted, fun query ↦ (hsame query).trans (hanswers query)⟩

/-- Drops keep the rows reflected. -/
theorem reflects_dropLease {state : MonitorState} {known : Histories × Observed}
    (hreflects : Reflects state known) {history : History} {id : Uuid}
    (hhistory : known.1.lookup id = some history) :
    Reflects (dropLease state id history.lifecycle) (known.1.insert id history.close, known.2) := by
  refine ⟨fun gauge other moved hmoved hphase ↦ ?_, fun gauge other row size hrow ↦ ?_⟩
  · refine hreflects.observed_of_open hhistory (fun gauge hclosed ↦ ?_) hmoved hphase
    exact absurd hclosed Phase.noConfusion
  · exact hreflects.answers gauge other row size (dropLease_rows hrow)

/-- What a monitor knows of the requests. -/
def Knows (limits : Limits) (state : MonitorState) (known : Histories × Observed) : Prop :=
  Consistent limits state known.1 ∧ Reflects state known

/-- Every action keeps the rows reflected. -/
theorem knows_step (state : MonitorState) (known : Histories × Observed) (action : Action)
    (hknows : Knows limits state known) :
    Knows limits (step serializedLength limits state action) (recordAll known action) := by
  obtain ⟨hconsistent, hreflects⟩ := hknows
  refine ⟨consistent_step state known.1 action hconsistent, ?_⟩
  rcases action with id | request | ⟨request, now⟩ | id
  · have hpartition (gauge : Gauge) :
        (step serializedLength limits state (.create id)).partition gauge =
          state.partition gauge := by
      simp only [step]
      split_ifs
      · rfl
      · rcases gauge with _ | _ <;> rfl
    refine ⟨fun gauge other history hhistory hphase ↦ ?_, fun gauge other row size hrow ↦ ?_⟩
    · simp only [recordAll, record] at hhistory
      split_ifs at hhistory
      · exact hreflects.observed gauge other history hhistory hphase
      · rcases Library.Table.lookup_insert_cases hhistory with ⟨-, rfl⟩ | ⟨-, hold⟩
        · exact absurd hphase Phase.noConfusion
        · exact hreflects.observed gauge other history hold hphase
    · rw [hpartition] at hrow
      exact hreflects.answers gauge other row size hrow
  · simp only [step, recordAll, record, note, Histories.modify, hconsistent.lifecycles]
    rcases hhistory : known.1.lookup request.id with _ | history
    · exact hreflects
    · exact reflects_publish hreflects hhistory
  · simp only [step, recordAll, record, note, Histories.modify, hconsistent.lifecycles]
    rcases hhistory : known.1.lookup request.id with _ | history
    · exact hreflects
    · exact reflects_publishSocketProgress hreflects hhistory now
  · simp only [step, recordAll, record, note, Histories.modify, hconsistent.lifecycles]
    rcases hhistory : known.1.lookup id with _ | history
    · exact hreflects
    · exact reflects_dropLease hreflects hhistory

/-- After every interleaving the rows are reflected. -/
theorem knows_run (serializedLength : TrafficRequest → Option ℕ) (limits : Limits)
    (actions : List Action) :
    Knows limits (run (step serializedLength limits) .initial actions)
      (run recordAll (∅, ∅) actions) := by
  refine run_simulation knows_step actions _ _ ⟨consistent_initial, ?_, ?_⟩
  · intro gauge id history hhistory
    exact absurd hhistory (by simp)
  · intro gauge id row size hrow
    rcases gauge with _ | _ <;> exact absurd hrow (by simp [MonitorState.partition,
      MonitorState.initial, ActivePartition.empty])

/-! ### Counting matches -/

theorem card_inFlight (gauge : Gauge) (histories : Histories) :
    (inFlight gauge histories).card = openLifecycles gauge histories := by
  unfold inFlight openLifecycles
  rw [card_filter_keys]
  refine total_congr histories fun id history hhistory ↦ ?_
  rw [hhistory, Option.map_some]
  simp only [Option.some.injEq]

theorem mem_inFlight (gauge : Gauge) (histories : Histories) (id : Uuid) :
    id ∈ inFlight gauge histories ↔
      ∃ history, histories.lookup id = some history ∧ history.phase = .opened gauge := by
  unfold inFlight
  rw [Finset.mem_filter, List.mem_toFinset, Option.map_eq_some_iff, and_iff_right_iff_imp]
  rintro ⟨history, hhistory, -⟩
  exact AList.mem_keys.mp (AList.lookup_isSome.mp (by rw [hhistory]; rfl))

/-- The requests of a partition that have rows. -/
def ActivePartition.retainedIds (partition : ActivePartition) : Finset Uuid :=
  partition.rows.keys.toFinset

theorem ActivePartition.card_retainedIds (partition : ActivePartition) :
    partition.retainedIds.card = partition.rows.entries.length := by
  unfold ActivePartition.retainedIds
  rw [List.toFinset_card_of_nodup partition.rows.keys_nodup, AList.keys, List.keys,
    List.length_map]

theorem ActivePartition.mem_retainedIds (partition : ActivePartition) (id : Uuid) :
    id ∈ partition.retainedIds ↔ ∃ row size, partition.rows.lookup id = some (row, size) := by
  unfold ActivePartition.retainedIds
  rw [List.mem_toFinset, ← AList.mem_keys, ← AList.lookup_isSome, Option.isSome_iff_exists,
    Prod.exists]

/-- The matching rows of a partition are as many as the requests with such rows. -/
theorem length_selected_retained (partition : ActivePartition) (query : TrafficQuery) :
    (partition.selected query).length =
      (partition.retainedIds.filter fun id ↦
        (partition.rows.lookup id).any fun entry ↦ query.matchesActive entry.1).card := by
  unfold ActivePartition.selected ActivePartition.retainedIds
  rw [List.length_insertionSort, ← List.countP_eq_length_filter, List.countP_map, card_filter_keys]
  have hagree : total (fun id _ ↦ if ((partition.rows.lookup id).any fun entry ↦
        query.matchesActive entry.1) = true then 1 else 0) partition.rows =
      total (fun _ (entry : TrafficRequest × ℕ) ↦
        if query.matchesActive entry.1 = true then 1 else 0) partition.rows := by
    refine total_congr _ fun id entry hentry ↦ ?_
    rw [hentry, Option.any_some]
  rw [hagree, total_indicator fun _ (entry : TrafficRequest × ℕ) ↦
    query.matchesActive entry.1 = true]
  simp [Function.comp_def]

theorem Knows.retainedIds_subset {state : MonitorState} {known : Histories × Observed}
    (hknows : Knows limits state known) (gauge : Gauge) :
    (state.partition gauge).retainedIds ⊆ inFlight gauge known.1 := by
  intro id hid
  obtain ⟨row, size, hrow⟩ := ((state.partition gauge).mem_retainedIds id).mp hid
  exact (mem_inFlight gauge known.1 id).mpr (hknows.1.retained gauge id row size hrow)

/-- The matching rows of a partition are those of the matching requests that have rows. -/
theorem Knows.length_selected {state : MonitorState} {known : Histories × Observed}
    (hknows : Knows limits state known) (gauge : Gauge) (query : TrafficQuery) :
    ((state.partition gauge).selected query).length =
      ((state.partition gauge).retainedIds.filter
        (· ∈ matchingInFlight query gauge known)).card := by
  rw [length_selected_retained]
  congr 1
  refine Finset.filter_congr fun id hid ↦ ?_
  obtain ⟨row, size, hrow⟩ := ((state.partition gauge).mem_retainedIds id).mp hid
  obtain ⟨request, hrequest, hanswers⟩ := hknows.2.answers gauge id row size hrow
  unfold matchingInFlight
  rw [Finset.mem_filter, hrow, hrequest, Option.any_some, Option.any_some, hanswers query]
  exact (and_iff_right (hknows.retainedIds_subset gauge hid)).symm

/-- There are no more matching rows than matching requests. -/
theorem Knows.length_selected_le {state : MonitorState} {known : Histories × Observed}
    (hknows : Knows limits state known) (gauge : Gauge) (query : TrafficQuery) :
    ((state.partition gauge).selected query).length ≤
      (matchingInFlight query gauge known).card := by
  rw [hknows.length_selected]
  refine Finset.card_le_card fun id hid ↦ ?_
  exact (Finset.mem_filter.mp hid).2

/-- Assumes: a partition that has dropped no row. The matching rows are as many as the matching
requests. -/
theorem Knows.length_selected_eq {state : MonitorState} {known : Histories × Observed}
    (hknows : Knows limits state known) (gauge : Gauge) (query : TrafficQuery)
    (hall : (state.partition gauge).total ≤ (state.partition gauge).rows.entries.length) :
    ((state.partition gauge).selected query).length =
      (matchingInFlight query gauge known).card := by
  have hids : (state.partition gauge).retainedIds = inFlight gauge known.1 := by
    refine Finset.eq_of_subset_of_card_le (hknows.retainedIds_subset gauge) ?_
    rw [card_inFlight, ← hknows.1.total_eq, ActivePartition.card_retainedIds]
    exact hall
  rw [hknows.length_selected, hids]
  congr 1
  ext id
  rw [Finset.mem_filter, and_iff_right_iff_imp]
  exact fun hid ↦ (Finset.mem_filter.mp hid).1

/-- Assumes: a query that filters no rows. It looks at the protocol only. -/
theorem matchesActive_of_not_hasRowFilters {query : TrafficQuery}
    (hfilters : query.hasRowFilters = false) (row : TrafficRequest) :
    query.matchesActive row = query.protocol.all fun protocol ↦ row.protocol.text = protocol := by
  unfold TrafficQuery.hasRowFilters at hfilters
  simp only [Bool.or_eq_false_iff, Option.isSome_eq_false_iff, Option.isNone_iff_eq_none,
    decide_eq_false_iff_not] at hfilters
  obtain ⟨⟨⟨⟨⟨⟨⟨⟨⟨⟨hid, hrequest⟩, hservice⟩, hproject⟩, hkey⟩, hstatus⟩, hcode⟩, honly⟩, hfrom⟩,
    hto⟩,
    hbefore⟩ := hfilters
  unfold TrafficQuery.matchesActive
  simp [hid, hrequest, hservice, hproject, hkey, hstatus, hcode, honly, hfrom, hto, hbefore]

/-! ### Which counts are exact -/

def TrafficSummarySnapshot.coverage (summary : TrafficSummarySnapshot) : Gauge → TrafficCoverage
  | .http => summary.http
  | .websocket => summary.websocket

/-- The rows that a snapshot returns for a gauge. -/
def returned (state : MonitorState) (query : TrafficQuery) (gauge : Gauge) : List TrafficRequest :=
  ((state.partition gauge).selected query).take query.rowLimit

theorem rows_eq_returned (instanceId : String) (sampledAt : Timestamp) (state : MonitorState)
    (query : TrafficQuery) :
    (activeSnapshot limits instanceId sampledAt state query).rows =
      returned state query .http ++ returned state query .websocket :=
  rfl

/-- Whenever a snapshot reports a number of matches for a gauge, this is the number of open requests
of the gauge that match, and the rows returned for it match and are at most that many. -/
def SnapshotExact (limits : Limits) (instanceId : String) (sampledAt : Timestamp)
    (state : MonitorState) (known : Histories × Observed) (query : TrafficQuery) (gauge : Gauge) :
    Prop :=
  ∀ matching, ((activeSnapshot limits instanceId sampledAt state query).summary.coverage
      gauge).matching = some matching →
    matching = (matchingInFlight query gauge known).card ∧
      (∀ row ∈ returned state query gauge, query.matchesActive row = true) ∧
      (returned state query gauge).length ≤ matching

/-- The query filters rows, or the gauge is that of the sockets, or the query does not ask for HTTP
or for unknown protocols, or no request that is open in the HTTP gauge has an unknown protocol. -/
def Discerns (known : Histories × Observed) (query : TrafficQuery) (gauge : Gauge) : Prop :=
  query.hasRowFilters = true ∨ gauge = .websocket ∨
    query.protocol ≠ some "http" ∧ query.protocol ≠ some "unknown" ∨
    ∀ id ∈ inFlight .http known.1, ∀ request, known.2.lookup id = some request →
      request.protocol ≠ .unknown

theorem coverage_matching (instanceId : String) (sampledAt : Timestamp) (state : MonitorState)
    (query : TrafficQuery) (gauge : Gauge) :
    ((activeSnapshot limits instanceId sampledAt state query).summary.coverage gauge).matching =
      if query.hasRowFilters = true then
        if (state.partition gauge).rows.entries.length < (state.partition gauge).total then none
        else some ((state.partition gauge).selected query).length
      else some (if query.protocol.all (· = gauge.name) then (state.partition gauge).total
        else 0) := by
  have hcovers (partition : ActivePartition) (protocol : String) :
      (partition.covers limits protocol query).matching =
        if query.hasRowFilters = true then
          if partition.rows.entries.length < partition.total then none
          else some (partition.selected query).length
        else some (if query.protocol.all (· = protocol) then partition.total else 0) := by
    unfold ActivePartition.covers ActivePartition.coverage
    rcases query.hasRowFilters with _ | _ <;> simp
  rcases gauge with _ | _ <;> exact hcovers _ _

theorem mem_returned {state : MonitorState} {query : TrafficQuery} {gauge : Gauge}
    {row : TrafficRequest} (hrow : row ∈ returned state query gauge) :
    query.matchesActive row = true := by
  have hselected : row ∈ (state.partition gauge).selected query := List.mem_of_mem_take hrow
  unfold ActivePartition.selected at hselected
  rw [List.mem_insertionSort] at hselected
  exact (List.mem_filter.mp hselected).2

theorem Knows.length_returned_le {state : MonitorState} {known : Histories × Observed}
    (hknows : Knows limits state known) (gauge : Gauge) (query : TrafficQuery) :
    (returned state query gauge).length ≤ (matchingInFlight query gauge known).card :=
  (List.length_take_le' _ _).trans (hknows.length_selected_le gauge query)

/-- Rows are only returned for requests that match, so the count decides whether a snapshot is
exact. -/
theorem Knows.snapshotExact_iff {state : MonitorState} {known : Histories × Observed}
    (hknows : Knows limits state known) (instanceId : String) (sampledAt : Timestamp)
    (query : TrafficQuery) (gauge : Gauge) :
    SnapshotExact limits instanceId sampledAt state known query gauge ↔
      ∀ matching, ((activeSnapshot limits instanceId sampledAt state query).summary.coverage
          gauge).matching = some matching →
        matching = (matchingInFlight query gauge known).card := by
  constructor
  · intro hexact matching hmatching
    exact (hexact matching hmatching).1
  · intro hcount matching hmatching
    have heq := hcount matching hmatching
    refine ⟨heq, fun row hrow ↦ mem_returned hrow, ?_⟩
    rw [heq]
    exact hknows.length_returned_le gauge query

/-- Assumes: a query that filters no rows. The matching requests are those whose protocol it asks
for. -/
theorem mem_matchingInFlight {state : MonitorState} {known : Histories × Observed}
    (hknows : Knows limits state known) {query : TrafficQuery}
    (hfilters : query.hasRowFilters = false) (gauge : Gauge) (id : Uuid) :
    id ∈ matchingInFlight query gauge known ↔
      id ∈ inFlight gauge known.1 ∧ ∃ request, known.2.lookup id = some request ∧
        request.gauge = gauge ∧ ∀ protocol, query.protocol = some protocol →
          request.protocol.text = protocol := by
  unfold matchingInFlight
  rw [Finset.mem_filter]
  refine and_congr_right fun hid ↦ ?_
  obtain ⟨history, hhistory, hphase⟩ := (mem_inFlight gauge known.1 id).mp hid
  obtain ⟨request, hrequest, hgauge⟩ := hknows.2.observed gauge id history hhistory hphase
  rw [hrequest, Option.any_some, matchesActive_of_not_hasRowFilters hfilters,
    activeProjection_protocol]
  simp only [Option.some.injEq, exists_eq_left', hgauge, true_and]
  rcases query.protocol with _ | protocol <;> simp

theorem matchingInFlight_subset (query : TrafficQuery) (gauge : Gauge)
    (known : Histories × Observed) : matchingInFlight query gauge known ⊆ inFlight gauge known.1 :=
  Finset.filter_subset _ _

/-- The total of a partition is the number of matching requests exactly when all its open requests
match. -/
theorem Knows.total_eq_iff {state : MonitorState} {known : Histories × Observed}
    (hknows : Knows limits state known) (query : TrafficQuery) (gauge : Gauge) :
    (state.partition gauge).total = (matchingInFlight query gauge known).card ↔
      ∀ id ∈ inFlight gauge known.1, id ∈ matchingInFlight query gauge known := by
  rw [hknows.1.total_eq, ← card_inFlight]
  constructor
  · intro hcard id hid
    rwa [Finset.eq_of_subset_of_card_le (matchingInFlight_subset query gauge known) hcard.le]
  · intro hall
    exact congrArg Finset.card (Finset.Subset.antisymm hall
      (matchingInFlight_subset query gauge known))

theorem TrafficRequest.protocol_of_websocket {request : TrafficRequest}
    (hgauge : request.gauge = .websocket) : request.protocol = .websocket := by
  unfold TrafficRequest.gauge at hgauge
  split_ifs at hgauge with hprotocol
  exact hprotocol

theorem TrafficRequest.protocol_of_http {request : TrafficRequest}
    (hgauge : request.gauge = .http) : request.protocol = .http ∨ request.protocol = .unknown := by
  unfold TrafficRequest.gauge at hgauge
  split_ifs at hgauge with hprotocol
  rcases hcases : request.protocol with _ | _ | _
  · exact .inl rfl
  · exact absurd hcases hprotocol
  · exact .inr rfl

/-- Assumes: a query that filters no rows. What it reports for the gauge of the sockets is the
number of matching requests. -/
theorem Knows.websocket_exact {state : MonitorState} {known : Histories × Observed}
    (hknows : Knows limits state known) {query : TrafficQuery}
    (hfilters : query.hasRowFilters = false) :
    (if query.protocol.all (· = Gauge.websocket.name) then (state.partition .websocket).total
      else 0) = (matchingInFlight query .websocket known).card := by
  have hmem := mem_matchingInFlight hknows hfilters .websocket
  split_ifs with hprotocol
  · rw [hknows.total_eq_iff]
    intro id hid
    obtain ⟨history, hhistory, hphase⟩ := (mem_inFlight _ known.1 id).mp hid
    obtain ⟨request, hrequest, hgauge⟩ := hknows.2.observed _ id history hhistory hphase
    refine (hmem id).mpr ⟨hid, request, hrequest, hgauge, fun protocol hasked ↦ ?_⟩
    rw [TrafficRequest.protocol_of_websocket hgauge]
    rw [hasked, Option.all_some, decide_eq_true_eq] at hprotocol
    exact hprotocol.symm
  · rw [eq_comm, Finset.card_eq_zero, Finset.eq_empty_iff_forall_notMem]
    intro id hid
    obtain ⟨-, request, -, hgauge, htext⟩ := (hmem id).mp hid
    rcases hasked : query.protocol with _ | protocol
    · exact hprotocol (by rw [hasked]; rfl)
    · have hsame := htext protocol hasked
      rw [TrafficRequest.protocol_of_websocket hgauge] at hsame
      exact hprotocol (by rw [hasked, ← hsame]; rfl)

/-- Assumes: a query that filters no rows. What it reports for the HTTP gauge is the number of
matching requests exactly when it does not confuse HTTP with unknown protocols. -/
theorem Knows.http_exact_iff {state : MonitorState} {known : Histories × Observed}
    (hknows : Knows limits state known) {query : TrafficQuery}
    (hfilters : query.hasRowFilters = false) :
    (if query.protocol.all (· = Gauge.http.name) then (state.partition .http).total else 0) =
        (matchingInFlight query .http known).card ↔
      query.protocol ≠ some "http" ∧ query.protocol ≠ some "unknown" ∨
        ∀ id ∈ inFlight .http known.1, ∀ request, known.2.lookup id = some request →
          request.protocol ≠ .unknown := by
  have hmem := mem_matchingInFlight hknows hfilters .http
  have hrecord : ∀ id ∈ inFlight .http known.1, ∃ request, known.2.lookup id = some request ∧
      request.gauge = .http := by
    intro id hid
    obtain ⟨history, hhistory, hphase⟩ := (mem_inFlight _ known.1 id).mp hid
    exact hknows.2.observed _ id history hhistory hphase
  rcases hasked : query.protocol with _ | protocol
  · rw [Option.all_none, if_pos rfl, hknows.total_eq_iff]
    simp only [ne_eq, reduceCtorEq, not_false_eq_true, and_self, true_or, iff_true]
    intro id hid
    obtain ⟨request, hrequest, hgauge⟩ := hrecord id hid
    exact (hmem id).mpr ⟨hid, request, hrequest, hgauge, fun protocol hprotocol ↦
      absurd (hasked.symm.trans hprotocol) (by simp)⟩
  · by_cases hhttp : protocol = "http"
    · subst hhttp
      rw [if_pos (by simp [Gauge.name]), hknows.total_eq_iff]
      simp only [ne_eq, not_true_eq_false, false_and, false_or]
      refine forall₂_congr fun id hid ↦ ?_
      obtain ⟨request, hrequest, hgauge⟩ := hrecord id hid
      rw [hmem id, hrequest]
      simp only [hid, true_and, hasked, Option.some.injEq, forall_eq', exists_eq_left', hgauge]
      rcases TrafficRequest.protocol_of_http hgauge with hprotocol | hprotocol <;>
        simp [hprotocol, Protocol.text]
    · rw [if_neg (by simp [Gauge.name, hhttp]), eq_comm, Finset.card_eq_zero,
        Finset.eq_empty_iff_forall_notMem]
      by_cases hunknown : protocol = "unknown"
      · subst hunknown
        simp only [ne_eq, not_true_eq_false, and_false, false_or]
        refine forall_congr' fun id ↦ ?_
        rw [hmem id]
        by_cases hid : id ∈ inFlight .http known.1
        · obtain ⟨request, hrequest, hgauge⟩ := hrecord id hid
          rw [hrequest]
          simp only [hid, true_and, hasked, Option.some.injEq, forall_eq', exists_eq_left', hgauge,
            forall_const]
          rcases TrafficRequest.protocol_of_http hgauge with hprotocol | hprotocol <;>
            simp [hprotocol, Protocol.text]
        · simp [hid]
      · simp only [ne_eq, Option.some.injEq, hhttp, not_false_eq_true, hunknown, and_self, true_or,
          iff_true]
        intro id hid
        obtain ⟨-, request, -, hgauge, htext⟩ := (hmem id).mp hid
        have hsame := htext protocol hasked
        rcases TrafficRequest.protocol_of_http hgauge with hprotocol | hprotocol
        · exact hhttp (by rw [← hsame, hprotocol]; rfl)
        · exact hunknown (by rw [← hsame, hprotocol]; rfl)

/-- The texts of a record that queries compare are not cut in its summary. -/
def TrafficRequest.Short (request : TrafficRequest) : Prop :=
  request.requestId.length ≤ 256 ∧ (∀ service, request.service = some service →
    service.length ≤ 256) ∧ ∀ code, request.diagnostics.failureCode = some code →
      code.length ≤ 256

theorem map_bounded_eq_self {text : Option String}
    (hshort : ∀ value, text = some value → value.length ≤ 256) : text.map bounded = text := by
  rcases text with _ | value
  · rfl
  · rw [Option.map_some, bounded_eq_self (hshort value rfl)]

/-- The summary of a short record answers every query as the record does. -/
theorem TrafficRequest.Short.matchesActive {request : TrafficRequest} (hshort : request.Short)
    (query : TrafficQuery) :
    query.matchesActive (activeProjection request) = query.matchesActive request := by
  obtain ⟨hrequest, hservice, hcode⟩ := hshort
  have hrequest' : (activeProjection request).requestId = request.requestId :=
    bounded_eq_self hrequest
  have hservice' : (activeProjection request).service = request.service :=
    map_bounded_eq_self hservice
  have hcode' : (activeProjection request).diagnostics.failureCode =
      request.diagnostics.failureCode :=
    map_bounded_eq_self hcode
  unfold TrafficQuery.matchesActive
  rw [hrequest', hservice', hcode', activeProjection_protocol]
  rfl

/-- For every interleaving of publications, samples and drops, every query and both gauges: a
snapshot is exact for the gauge if and only if the query does not confuse HTTP with unknown
protocols. The requests are counted by their summaries; where the queried texts of the open requests
are short, these are the requests whose records match. -/
theorem snapshot_exact_iff (serializedLength : TrafficRequest → Option ℕ) (limits : Limits)
    (instanceId : String) (sampledAt : Timestamp) (actions : List Action) (query : TrafficQuery)
    (gauge : Gauge) :
    let state := run (step serializedLength limits) .initial actions
    let known := run recordAll (∅, ∅) actions
    (SnapshotExact limits instanceId sampledAt state known query gauge ↔
        Discerns known query gauge) ∧
      (activeSnapshot limits instanceId sampledAt state query).rows =
        returned state query .http ++ returned state query .websocket ∧
      ((∀ id ∈ inFlight gauge known.1, ∀ request, known.2.lookup id = some request →
          request.Short) →
        matchingInFlight query gauge known = (inFlight gauge known.1).filter fun id ↦
          (known.2.lookup id).any query.matchesActive) := by
  intro state known
  have hknows : Knows limits state known := knows_run serializedLength limits actions
  refine ⟨?_, rows_eq_returned instanceId sampledAt state query, ?_⟩
  · rw [hknows.snapshotExact_iff, coverage_matching]
    unfold Discerns
    rcases hfilters : query.hasRowFilters with _ | _
    · simp only [Bool.false_eq_true, if_false, Option.some.injEq, forall_eq', false_or]
      rcases gauge with _ | _
      · simp only [reduceCtorEq, false_or]
        exact hknows.http_exact_iff hfilters
      · simp only [true_or, iff_true]
        exact hknows.websocket_exact hfilters
    · simp only [if_true, true_or, iff_true]
      intro matching hmatching
      split_ifs at hmatching with hsaturated
      rw [← Option.some.inj hmatching]
      exact hknows.length_selected_eq gauge query (Nat.le_of_not_lt hsaturated)
  · intro hshort
    unfold matchingInFlight
    refine Finset.filter_congr fun id hid ↦ ?_
    rcases hrequest : known.2.lookup id with _ | request
    · rw [Option.any_none, Option.any_none]
    · rw [Option.any_some, Option.any_some, (hshort id hid request hrequest).matchesActive query]

end Monitor

/-- A record of a new request, whose protocol is not known yet. -/
def TrafficRequest.received (id : Uuid) : TrafficRequest where
  completedAt := none
  summaryOnly := false
  keyPrefix := none
  id := id
  requestId := "r"
  instanceId := "i"
  startedAt := 0
  elapsedMs := 0
  method := "GET"
  endpoint := none
  service := none
  provider := none
  keyId := none
  projectId := none
  stage := "received"
  clientStatus := none
  attempts := 0
  streaming := false
  completed := false
  diagnostics := ⟨none, none, none, none, none, none, none, none, none, none⟩
  timelineTruncated := false
  recordingFailures := []

/-- One request whose protocol is unknown, and the query for unknown protocols: the snapshot returns
its row and reports no match. -/
theorem unknown_protocol_not_counted :
    let actions := [Action.create 1, .publish (.received 1)]
    let state := run (step (fun _ ↦ some 100) .standard) .initial actions
    let query := { TrafficQuery.default with protocol := some "unknown" }
    (activeSnapshot .standard "i" 0 state query).summary.http.matching = some 0 ∧
      (returned state query .http).length = 1 ∧
      (matchingInFlight query .http (run recordAll (∅, ∅) actions)).card = 1 ∧
      ¬ SnapshotExact .standard "i" 0 state (run recordAll (∅, ∅) actions) query .http := by
  intro actions state query
  have hmatching : (activeSnapshot .standard "i" 0 state query).summary.http.matching = some 0 := by
    refine (coverage_matching "i" 0 state query .http).trans ?_
    have hfilters : ¬ query.hasRowFilters = true := by decide
    have hprotocol : ¬ query.protocol.all (· = Gauge.http.name) = true := by decide
    rw [if_neg hfilters, if_neg hprotocol]
  have hcount : (matchingInFlight query .http (run recordAll (∅, ∅) actions)).card = 1 := by
    decide
  refine ⟨hmatching, by decide, hcount, fun hexact ↦ ?_⟩
  have hzero := (hexact 0 hmatching).1
  rw [hcount] at hzero
  exact absurd hzero (by decide)

end Relayna.Traffic

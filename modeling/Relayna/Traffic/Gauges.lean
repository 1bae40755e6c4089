import Relayna.Library.KeyedSum
import Relayna.Library.Table
import Relayna.Library.Transition
import Relayna.Traffic.Monitor

/-!
# The gauges and rows of the live-traffic monitor

What a monitor should show is decided by the actions alone. `record` keeps, for each request,
whether it is unseen, open in one of the two gauges or closed, and when it was last sampled; it does
not look at the monitor. `Consistent` relates the two: the totals are the numbers of open requests,
every retained row belongs to a request that is open in the gauge of the partition, and each
partition is within its limits.

`observe_consistent` is the one fact about the lifecycle path that every action uses,
`consistent_run` is the invariant for every interleaving, and `gauges_exact` states it with the
subtractions and with the finality of a completed request.
-/

set_option autoImplicit false
set_option relaxedAutoImplicit false

namespace Relayna.Traffic

open Library.MachineWord Library.KeyedSum Library.Transition

/-! ### Histories -/

/-- The two gauges. -/
inductive Gauge
  | http
  | websocket
  deriving DecidableEq

/-- How far a request has come. -/
inductive Phase
  | unseen
  | opened (gauge : Gauge)
  | closed
  deriving DecidableEq

/-- The gauge of a record: a record whose protocol is unknown counts as HTTP. -/
def TrafficRequest.gauge (request : TrafficRequest) : Gauge :=
  if request.protocol = .websocket then .websocket else .http

/-- The phase that an observation of a record begins. -/
def TrafficRequest.phase (request : TrafficRequest) : Phase :=
  if request.completed then .closed else .opened request.gauge

structure History where
  phase : Phase
  sampledAt : Option Timestamp
  deriving DecidableEq

/-- A publication moves a request that is not closed. -/
def History.publish (history : History) (request : TrafficRequest) : History :=
  if history.phase = .closed then history else { history with phase := request.phase }

/-- A sample moves a request that is not closed, at most once in each sampling interval. -/
def History.sample (history : History) (request : TrafficRequest) (now : Timestamp) : History :=
  if request.completed ∨ history.phase = .closed then history
  else if history.sampledAt.any (now - · < socketSampleInterval) then history
  else ⟨request.phase, some now⟩

/-- The drop of the lease closes a request. -/
def History.close (history : History) : History :=
  { history with phase := .closed }

/-- The histories of the requests that have been created. -/
abbrev Histories := AList fun _ : Uuid ↦ History

/-- Change the history of a request that has been created. -/
def Histories.modify (histories : Histories) (id : Uuid) (change : History → History) : Histories :=
  match histories.lookup id with
  | some history => histories.insert id (change history)
  | none => histories

/-- The histories after an action. -/
def record (histories : Histories) : Action → Histories
  | .create id => if id ∈ histories then histories else histories.insert id ⟨.unseen, none⟩
  | .publish request => histories.modify request.id fun history ↦ history.publish request
  | .publishSocketProgress request now =>
    histories.modify request.id fun history ↦ history.sample request now
  | .dropLease id => histories.modify id History.close

/-- The number of requests that are open in a gauge. -/
def openLifecycles (gauge : Gauge) (histories : Histories) : ℕ :=
  total (fun _ history ↦ if history.phase = .opened gauge then 1 else 0) histories

/-- The marker of a request that is open in a gauge. -/
def Gauge.marker : Gauge → Marker
  | .http => .http
  | .websocket => .websocket

def Phase.marker : Phase → Marker
  | .unseen => .unseen
  | .opened gauge => gauge.marker
  | .closed => .completed

/-- What the clones of a record with this history share. -/
def History.lifecycle (history : History) : Lifecycle :=
  ⟨history.phase.marker, history.sampledAt⟩

theorem Phase.marker_injective : Function.Injective Phase.marker := by
  intro left right hmarker
  rcases left with _ | (_ | _) | _ <;> rcases right with _ | (_ | _) | _ <;>
    first | rfl | exact Marker.noConfusion hmarker

theorem Phase.marker_eq_gauge (phase : Phase) (gauge : Gauge) :
    phase.marker = gauge.marker ↔ phase = .opened gauge :=
  ⟨fun hmarker ↦ Phase.marker_injective hmarker, congrArg Phase.marker⟩

theorem TrafficRequest.nextMarker_eq (request : TrafficRequest) :
    request.nextMarker = request.phase.marker := by
  unfold TrafficRequest.nextMarker TrafficRequest.phase TrafficRequest.gauge
  split_ifs <;> rfl

theorem History.marker_eq_completed (history : History) :
    history.lifecycle.marker = .completed ↔ history.phase = .closed :=
  ⟨fun hmarker ↦ Phase.marker_injective hmarker, fun hphase ↦ congrArg Phase.marker hphase⟩

/-- Assumes: a request that has been created. Moving it changes the number of open requests by what
its two phases count for. -/
theorem openLifecycles_insert (gauge : Gauge) {histories : Histories} {id : Uuid}
    {history : History} (hhistory : histories.lookup id = some history) (moved : History) :
    (if history.phase = .opened gauge then 1 else 0) +
        openLifecycles gauge (histories.insert id moved) =
      (if moved.phase = .opened gauge then 1 else 0) + openLifecycles gauge histories :=
  measure_add_total_insert (fun _ history ↦ if history.phase = .opened gauge then 1 else 0)
    hhistory moved

/-- Assumes: a request that is open in the gauge. It is counted. -/
theorem one_le_openLifecycles {gauge : Gauge} {histories : Histories} {id : Uuid}
    {history : History} (hhistory : histories.lookup id = some history)
    (hphase : history.phase = .opened gauge) : 1 ≤ openLifecycles gauge histories := by
  have hle := measure_le_total
    (fun _ history ↦ if history.phase = .opened gauge then 1 else 0)
    (fun _ _ _ ↦ Nat.zero_le _) hhistory
  rw [if_pos hphase] at hle
  exact hle

/-! ### Partitions -/

/-- The sum of the recorded sizes of rows. -/
def recordedBytes (rows : AList fun _ : Uuid ↦ TrafficRequest × ℕ) : ℕ :=
  total (fun _ entry ↦ entry.2) rows

/-- A partition whose rows are within its limits and under their own ids, and whose byte counter is
the sum of the recorded sizes. -/
structure ActivePartition.Sound (limits : Limits) (partition : ActivePartition) : Prop where
  id_eq : ∀ id row size, partition.rows.lookup id = some (row, size) → row.id = id
  length_le : partition.rows.entries.length ≤ limits.recordLimit
  bytes_eq : partition.bytes = recordedBytes partition.rows
  bytes_le : partition.bytes ≤ limits.byteLimit

/-- Whether a partition is sound does not depend on its total. -/
theorem ActivePartition.Sound.withTotal {limits : Limits} {partition : ActivePartition}
    (hsound : partition.Sound limits) (counted : ℕ) :
    ActivePartition.Sound limits { partition with total := counted } :=
  ⟨hsound.id_eq, hsound.length_le, hsound.bytes_eq, hsound.bytes_le⟩

/-- Assumes: a row of a sound partition. Its size can be subtracted from the byte counter. -/
theorem ActivePartition.Sound.size_le {limits : Limits} {partition : ActivePartition}
    (hsound : partition.Sound limits) {id : Uuid} {row : TrafficRequest} {size : ℕ}
    (hrow : partition.rows.lookup id = some (row, size)) : size ≤ partition.bytes := by
  rw [hsound.bytes_eq]
  exact measure_le_total (fun _ (entry : TrafficRequest × ℕ) ↦ entry.2)
    (fun _ _ _ ↦ Nat.zero_le _) hrow

theorem ActivePartition.remove_total (partition : ActivePartition) (id : Uuid) :
    (partition.remove id).total = partition.total := by
  unfold ActivePartition.remove
  cases partition.rows.lookup id <;> rfl

theorem ActivePartition.lookup_remove_self (partition : ActivePartition) (id : Uuid) :
    (partition.remove id).rows.lookup id = none := by
  unfold ActivePartition.remove
  cases hrow : partition.rows.lookup id with
  | none => exact hrow
  | some entry => exact AList.lookup_erase _ _

theorem ActivePartition.lookup_remove_ne (partition : ActivePartition) {id other : Uuid}
    (hne : other ≠ id) : (partition.remove id).rows.lookup other = partition.rows.lookup other := by
  unfold ActivePartition.remove
  cases partition.rows.lookup id with
  | none => rfl
  | some entry => exact AList.lookup_erase_ne hne

/-- Removing a row keeps a partition sound. -/
theorem ActivePartition.Sound.remove {limits : Limits} {partition : ActivePartition}
    (hsound : partition.Sound limits) (id : Uuid) : (partition.remove id).Sound limits := by
  cases hrow : partition.rows.lookup id with
  | none =>
    have hsame : partition.remove id = partition := by
      unfold ActivePartition.remove
      rw [hrow]
    rwa [hsame]
  | some entry =>
    have hremove : partition.remove id =
        { partition with
          rows := partition.rows.erase id
          bytes := partition.bytes - entry.2 } := by
      unfold ActivePartition.remove
      rw [hrow]
    have hbytes : entry.2 + recordedBytes (partition.rows.erase id) =
        recordedBytes partition.rows :=
      measure_add_total_erase (fun _ (entry : TrafficRequest × ℕ) ↦ entry.2) hrow
    refine ⟨fun other row size hother ↦ ?_, ?_, ?_, ?_⟩
    · have hne : other ≠ id := by
        rintro rfl
        rw [partition.lookup_remove_self] at hother
        exact absurd hother (by simp)
      rw [partition.lookup_remove_ne hne] at hother
      exact hsound.id_eq other row size hother
    · rw [hremove]
      exact (List.kerase_sublist id _).length_le.trans hsound.length_le
    · rw [hremove]
      show partition.bytes - entry.2 = recordedBytes (partition.rows.erase id)
      rw [hsound.bytes_eq, ← hbytes, Nat.add_sub_cancel_left]
    · rw [hremove]
      exact (Nat.sub_le _ _).trans hsound.bytes_le

section Monitor

variable (serializedLength : TrafficRequest → Option ℕ) (limits : Limits)

theorem ActivePartition.update_total (partition : ActivePartition) (request : TrafficRequest) :
    (partition.update serializedLength limits request).total = partition.total := by
  unfold ActivePartition.update
  dsimp only
  split_ifs
  · rfl
  · exact partition.remove_total request.id

theorem ActivePartition.lookup_update_ne (partition : ActivePartition) (request : TrafficRequest)
    {other : Uuid} (hne : other ≠ request.id) :
    (partition.update serializedLength limits request).rows.lookup other =
      partition.rows.lookup other := by
  unfold ActivePartition.update
  dsimp only
  split_ifs
  · exact AList.lookup_insert_ne hne
  · exact partition.lookup_remove_ne hne

/-- The rows after a row has been put under its id, when the table had room for it or held it. -/
theorem length_insert_le {rows : AList fun _ : Uuid ↦ TrafficRequest × ℕ} {id : Uuid}
    {limit : ℕ} (entry : TrafficRequest × ℕ) (hlength : rows.entries.length ≤ limit)
    (hroom : (rows.lookup id).isSome ∨ rows.entries.length < limit) :
    (rows.insert id entry).entries.length ≤ limit := by
  have hlen : (rows.insert id entry).entries.length = (rows.entries.kerase id).length + 1 := by
    rw [AList.entries_insert]
    rfl
  rw [hlen]
  rcases hroom with hheld | hroom
  · have hmem : id ∈ rows.entries.keys := AList.lookup_isSome.mp hheld
    obtain ⟨found, before, after, -, hentries, herase⟩ := List.exists_of_kerase hmem
    rw [hentries, List.length_append, List.length_cons] at hlength
    rw [herase, List.length_append]
    omega
  · have hle := (List.kerase_sublist id rows.entries).length_le
    omega

/-- The recorded sizes after a row has been put under its id, in place of what was there. -/
theorem recordedBytes_insert (rows : AList fun _ : Uuid ↦ TrafficRequest × ℕ) (id : Uuid)
    (entry : TrafficRequest × ℕ) :
    ((rows.lookup id).map Prod.snd).getD 0 + recordedBytes (rows.insert id entry) =
      entry.2 + recordedBytes rows := by
  cases hrow : rows.lookup id with
  | none =>
    have hnotMem : id ∉ rows := AList.lookup_eq_none.mp hrow
    have hinsert := total_insert_of_notMem (fun _ (entry : TrafficRequest × ℕ) ↦ entry.2)
      hnotMem entry
    exact (Nat.zero_add _).trans hinsert
  | some held =>
    exact measure_add_total_insert (fun _ (entry : TrafficRequest × ℕ) ↦ entry.2) hrow entry

/-- Assumes: a saturating sum below the end of the range. The sum is exact. -/
theorem saturatingAdd_eq_of_le {left right : ℕ}
    (hle : saturatingAdd 64 left right ≤ limits.byteLimit) :
    saturatingAdd 64 left right = left + right := by
  have hlimit := limits.byteLimit_lt
  unfold saturatingAdd at hle ⊢
  omega

/-- Retaining the row of a record, or dropping it for lack of room, keeps a partition sound. -/
theorem ActivePartition.Sound.update {partition : ActivePartition}
    (hsound : partition.Sound limits) (request : TrafficRequest) :
    (partition.update serializedLength limits request).Sound limits := by
  unfold ActivePartition.update
  dsimp only
  split_ifs with hfits
  · obtain ⟨hroom, hbytes⟩ := hfits
    have hexact := saturatingAdd_eq_of_le limits hbytes
    refine ⟨fun other row size hother ↦ ?_, length_insert_le _ hsound.length_le hroom, ?_, hbytes⟩
    · by_cases hother' : other = request.id
      · subst hother'
        rw [activeProjection_id, AList.lookup_insert] at hother
        obtain ⟨rfl, -⟩ := Prod.mk.inj (Option.some.inj hother)
        rfl
      · rw [activeProjection_id, AList.lookup_insert_ne hother'] at hother
        exact hsound.id_eq other row size hother
    · have hinsert := recordedBytes_insert partition.rows (activeProjection request).id
        (activeProjection request, rowSize serializedLength (activeProjection request))
      have hprevious : ((partition.rows.lookup (activeProjection request).id).map Prod.snd).getD 0 ≤
          partition.bytes := by
        cases hrow : partition.rows.lookup (activeProjection request).id with
        | none => exact Nat.zero_le _
        | some held =>
          obtain ⟨row, size⟩ := held
          exact hsound.size_le hrow
      dsimp only at hinsert ⊢
      rw [hexact]
      rw [← hsound.bytes_eq] at hinsert
      omega
  · exact hsound.remove request.id

/-! ### The lifecycle path -/

def MonitorState.partition (state : MonitorState) : Gauge → ActivePartition
  | .http => state.http
  | .websocket => state.websocket

/-- The monitor shows what the histories say. -/
structure Consistent (state : MonitorState) (histories : Histories) : Prop where
  lifecycles : ∀ id, state.lifecycles.lookup id = (histories.lookup id).map History.lifecycle
  sound : ∀ gauge, (state.partition gauge).Sound limits
  total_eq : ∀ gauge, (state.partition gauge).total = openLifecycles gauge histories
  retained : ∀ gauge id row size, (state.partition gauge).rows.lookup id = some (row, size) →
    ∃ history, histories.lookup id = some history ∧ history.phase = .opened gauge

variable {serializedLength limits}

theorem recount_partition_of_ne (state : MonitorState) {previous next : Marker}
    (hne : previous ≠ next) (gauge : Gauge) :
    (state.recount previous next).partition gauge =
      { state.partition gauge with
        total := (if previous = gauge.marker then (state.partition gauge).total - 1
          else (state.partition gauge).total) + if next = gauge.marker then 1 else 0 } := by
  unfold MonitorState.recount
  rw [if_neg hne]
  cases gauge <;> rfl

/-- Only the totals of a partition move when a request is recounted. -/
theorem recount_partition (state : MonitorState) (previous next : Phase) (gauge : Gauge)
    (hcounted : previous = .opened gauge → 1 ≤ (state.partition gauge).total) :
    ∃ counted, (state.recount previous.marker next.marker).partition gauge =
        { state.partition gauge with total := counted } ∧
      (if previous = .opened gauge then 1 else 0) + counted =
        (if next = .opened gauge then 1 else 0) + (state.partition gauge).total := by
  by_cases hsame : previous.marker = next.marker
  · have hrecount : state.recount previous.marker next.marker = state := if_pos hsame
    rw [hrecount, Phase.marker_injective hsame]
    exact ⟨_, rfl, rfl⟩
  · refine ⟨_, recount_partition_of_ne state hsame gauge, ?_⟩
    by_cases hprevious : previous = .opened gauge
    · have hpositive := hcounted hprevious
      have hnext : next ≠ .opened gauge :=
        fun hnext ↦ hsame (congrArg Phase.marker (hprevious.trans hnext.symm))
      simp only [Phase.marker_eq_gauge, if_pos hprevious, if_neg hnext]
      omega
    · simp only [Phase.marker_eq_gauge, if_neg hprevious]
      exact (Nat.zero_add _).trans (Nat.add_comm _ _)

/-- Assumes: a consistent monitor and a request that has been created. A state that gives the
request a new history, moves the totals accordingly, keeps sound partitions, keeps the rows of the
others and has a row of the request only in the gauge in which it is open, is consistent. -/
theorem Consistent.move {state moved : MonitorState} {histories : Histories}
    (hconsistent : Consistent limits state histories) {id : Uuid} {history next : History}
    (hhistory : histories.lookup id = some history)
    (hself : moved.lifecycles.lookup id = some next.lifecycle)
    (hother : ∀ other, other ≠ id →
      moved.lifecycles.lookup other = state.lifecycles.lookup other)
    (hsound : ∀ gauge, (moved.partition gauge).Sound limits)
    (htotal : ∀ gauge, (if history.phase = .opened gauge then 1 else 0) +
        (moved.partition gauge).total =
      (if next.phase = .opened gauge then 1 else 0) + (state.partition gauge).total)
    (hrows : ∀ gauge other, other ≠ id → (moved.partition gauge).rows.lookup other =
      (state.partition gauge).rows.lookup other)
    (hrow : ∀ gauge, next.phase ≠ .opened gauge →
      (moved.partition gauge).rows.lookup id = none) :
    Consistent limits moved (histories.insert id next) := by
  refine ⟨fun other ↦ ?_, hsound, fun gauge ↦ ?_, fun gauge other row size hlookup ↦ ?_⟩
  · by_cases hne : other = id
    · rw [hne, AList.lookup_insert, hself]
      rfl
    · rw [AList.lookup_insert_ne hne, hother other hne, hconsistent.lifecycles]
  · have hopen := openLifecycles_insert gauge hhistory next
    have hmoved := htotal gauge
    rw [hconsistent.total_eq] at hmoved
    omega
  · by_cases hne : other = id
    · subst hne
      refine ⟨next, AList.lookup_insert _, ?_⟩
      by_contra hphase
      rw [hrow gauge hphase] at hlookup
      exact absurd hlookup (by simp)
    · rw [hrows gauge other hne] at hlookup
      rw [AList.lookup_insert_ne hne]
      exact hconsistent.retained gauge other row size hlookup

/-- Assumes: a consistent monitor, a request whose phase is `previous`. The total of its gauge is
positive where it will be reduced. -/
theorem Consistent.one_le_total {state : MonitorState} {histories : Histories}
    (hconsistent : Consistent limits state histories) {id : Uuid} {history : History}
    (hhistory : histories.lookup id = some history) (gauge : Gauge)
    (hphase : history.phase = .opened gauge) : 1 ≤ (state.partition gauge).total := by
  rw [hconsistent.total_eq]
  exact one_le_openLifecycles hhistory hphase

/-- What an accepted observation does to the partition of a gauge: the total moves, and the row of
the record is retained or removed. -/
theorem observe_partition (serializedLength : TrafficRequest → Option ℕ) (limits : Limits)
    (state : MonitorState) (history : History) (request : TrafficRequest)
    (hopen : history.phase ≠ .closed) (gauge : Gauge) :
    (observe serializedLength limits state history.lifecycle request).2.partition gauge =
      let counted :=
        (state.recount history.phase.marker request.phase.marker).partition gauge
      if request.phase = .opened gauge then counted.update serializedLength limits request
      else counted.remove request.id := by
  have hmarker : ¬ history.lifecycle.marker = .completed :=
    fun hmarker ↦ hopen (history.marker_eq_completed.mp hmarker)
  unfold observe
  rw [if_neg hmarker, request.nextMarker_eq]
  simp only [← Phase.marker_eq_gauge]
  cases gauge <;> rfl

/-- An accepted observation keeps a monitor consistent. Assumes: a request that is not closed. -/
theorem observe_consistent (serializedLength : TrafficRequest → Option ℕ) {state : MonitorState}
    {histories : Histories} (hconsistent : Consistent limits state histories) {history : History}
    {request : TrafficRequest} (hhistory : histories.lookup request.id = some history)
    (hopen : history.phase ≠ .closed) :
    Consistent limits (observe serializedLength limits state history.lifecycle request).2
      (histories.insert request.id { history with phase := request.phase }) := by
  have hpartition := observe_partition serializedLength limits state history request hopen
  have hlifecycles :
      (observe serializedLength limits state history.lifecycle request).2.lifecycles =
        state.lifecycles.insert request.id ⟨request.phase.marker, history.sampledAt⟩ := by
    have hmarker : ¬ history.lifecycle.marker = .completed :=
      fun hmarker ↦ hopen (history.marker_eq_completed.mp hmarker)
    unfold observe MonitorState.recount
    rw [if_neg hmarker, request.nextMarker_eq]
    dsimp only
    split_ifs <;> rfl
  refine hconsistent.move hhistory ?_ (fun other hne ↦ ?_) (fun gauge ↦ ?_) (fun gauge ↦ ?_)
    (fun gauge other hne ↦ ?_) (fun gauge hphase ↦ ?_)
  · rw [hlifecycles, AList.lookup_insert]
    rfl
  · rw [hlifecycles, AList.lookup_insert_ne hne]
  all_goals
    obtain ⟨counted, hcounted, htotal⟩ := recount_partition state history.phase request.phase gauge
      (hconsistent.one_le_total hhistory gauge)
    rw [hpartition gauge, hcounted]
  · have hsound := (hconsistent.sound gauge).withTotal counted
    dsimp only
    split_ifs
    · exact hsound.update serializedLength limits request
    · exact hsound.remove request.id
  · dsimp only
    split_ifs at htotal ⊢ <;>
      simp only [ActivePartition.update_total, ActivePartition.remove_total] <;> exact htotal
  · dsimp only
    split_ifs
    · exact ActivePartition.lookup_update_ne serializedLength limits _ request hne
    · exact ActivePartition.lookup_remove_ne _ hne
  · dsimp only
    rw [if_neg hphase]
    exact ActivePartition.lookup_remove_self _ _

/-- A closed request is not observed. -/
theorem observe_closed (serializedLength : TrafficRequest → Option ℕ) (limits : Limits)
    (state : MonitorState) {history : History} (request : TrafficRequest)
    (hclosed : history.phase = .closed) :
    observe serializedLength limits state history.lifecycle request = (false, state) :=
  if_pos (history.marker_eq_completed.mpr hclosed)

/-- An open request is observed. -/
theorem observe_accepted (serializedLength : TrafficRequest → Option ℕ) (limits : Limits)
    (state : MonitorState) (history : History) (request : TrafficRequest)
    (hopen : history.phase ≠ .closed) :
    (observe serializedLength limits state history.lifecycle request).1 = true := by
  unfold observe
  rw [if_neg fun hmarker ↦ hopen (history.marker_eq_completed.mp hmarker)]

/-! ### Actions -/

/-- The journal and the pending socket updates do not matter. -/
theorem Consistent.congr {state other : MonitorState} {histories : Histories}
    (hconsistent : Consistent limits state histories)
    (hlifecycles : other.lifecycles = state.lifecycles)
    (hpartition : ∀ gauge, other.partition gauge = state.partition gauge) :
    Consistent limits other histories := by
  refine ⟨?_, fun gauge ↦ ?_, fun gauge ↦ ?_, fun gauge ↦ ?_⟩
  · rw [hlifecycles]
    exact hconsistent.lifecycles
  all_goals rw [hpartition gauge]
  · exact hconsistent.sound gauge
  · exact hconsistent.total_eq gauge
  · exact hconsistent.retained gauge

/-- Assumes: a request that is not open in a gauge. It has no row there. -/
theorem Consistent.lookup_eq_none {state : MonitorState} {histories : Histories}
    (hconsistent : Consistent limits state histories) {id : Uuid} {history : History}
    (hhistory : histories.lookup id = some history) {gauge : Gauge}
    (hphase : history.phase ≠ .opened gauge) : (state.partition gauge).rows.lookup id = none := by
  by_contra hrow
  obtain ⟨⟨row, size⟩, hrow⟩ := Option.ne_none_iff_exists'.mp hrow
  obtain ⟨held, hheld, hopened⟩ := hconsistent.retained gauge id row size hrow
  rw [hhistory] at hheld
  obtain rfl := Option.some.inj hheld
  exact hphase hopened

/-- Writing the history of a request back changes nothing the monitor shows. -/
theorem Consistent.insert_self {state : MonitorState} {histories : Histories}
    (hconsistent : Consistent limits state histories) {id : Uuid} {history : History}
    (hhistory : histories.lookup id = some history) :
    Consistent limits state (histories.insert id history) := by
  refine hconsistent.move hhistory ?_ (fun _ _ ↦ rfl) hconsistent.sound (fun _ ↦ rfl)
    (fun _ _ _ ↦ rfl) (fun _ hphase ↦ hconsistent.lookup_eq_none hhistory hphase)
  rw [hconsistent.lifecycles, hhistory]
  rfl

/-- A publication keeps a monitor consistent. -/
theorem publish_consistent {state : MonitorState} {histories : Histories}
    (hconsistent : Consistent limits state histories) {history : History}
    {request : TrafficRequest} (hhistory : histories.lookup request.id = some history) :
    Consistent limits (publish serializedLength limits state history.lifecycle request)
      (histories.insert request.id (history.publish request)) := by
  have hpending : Consistent limits
      { state with socketUpdates := state.socketUpdates.erase request.id } histories :=
    hconsistent.congr rfl fun gauge ↦ by cases gauge <;> rfl
  have happend : ∀ {observed : MonitorState} {histories : Histories},
      Consistent limits observed histories →
        Consistent limits (append limits observed request) histories :=
    fun hobserved ↦ hobserved.congr rfl fun gauge ↦ by cases gauge <;> rfl
  unfold publish History.publish
  by_cases hclosed : history.phase = .closed
  · rw [if_pos hclosed]
    simp only [observe_closed serializedLength limits _ request hclosed]
    have hself := hpending.insert_self hhistory
    split_ifs
    · exact hself
    · exact happend hself
  · rw [if_neg hclosed]
    have hobserved := observe_consistent serializedLength hpending hhistory hclosed
    simp only [observe_accepted serializedLength limits _ history request hclosed, Bool.not_true,
      Bool.false_and, Bool.false_eq_true, if_false]
    exact happend hobserved

/-- Coalescing a sample changes neither the ids nor the sizes of the rows. -/
theorem coalesce_consistent {state : MonitorState} {histories : Histories}
    (hconsistent : Consistent limits state histories) (request : TrafficRequest) :
    Consistent limits (state.coalesce request) histories := by
  cases hrow : state.websocket.rows.lookup request.id with
  | none =>
    refine hconsistent.congr rfl fun gauge ↦ ?_
    unfold MonitorState.coalesce
    rw [hrow]
    cases gauge <;> rfl
  | some entry =>
    obtain ⟨row, size⟩ := entry
    have hwebsocket : (state.coalesce request).websocket =
        { state.websocket with
          rows := state.websocket.rows.insert request.id
            (coalesceSocketProgress row request, size) } := by
      unfold MonitorState.coalesce
      rw [hrow]
    have hsound := hconsistent.sound .websocket
    have hlookup : ∀ {id found size'},
        (state.coalesce request).websocket.rows.lookup id = some (found, size') →
          ∃ held, state.websocket.rows.lookup id = some (held, size') ∧ found.id = held.id := by
      intro id found size' hfound
      rw [hwebsocket] at hfound
      rcases Library.Table.lookup_insert_cases hfound with ⟨rfl, hnew⟩ | ⟨-, hold⟩
      · obtain ⟨rfl, rfl⟩ := Prod.mk.inj hnew
        exact ⟨row, hrow, rfl⟩
      · exact ⟨found, hold, rfl⟩
    refine ⟨hconsistent.lifecycles, fun gauge ↦ ?_, fun gauge ↦ ?_, fun gauge ↦ ?_⟩
    · cases gauge with
      | http => exact hconsistent.sound .http
      | websocket =>
        refine ⟨fun id found size' hfound ↦ ?_, ?_, ?_, ?_⟩
        · obtain ⟨held, hheld, hsame⟩ := hlookup hfound
          exact hsame.trans (hsound.id_eq id held size' hheld)
        · show (state.coalesce request).websocket.rows.entries.length ≤ _
          rw [hwebsocket]
          exact length_insert_le _ hsound.length_le (.inl (by rw [hrow]; rfl))
        · show (state.coalesce request).websocket.bytes =
            recordedBytes (state.coalesce request).websocket.rows
          rw [hwebsocket]
          have hinsert := recordedBytes_insert state.websocket.rows request.id
            (coalesceSocketProgress row request, size)
          rw [hrow] at hinsert
          exact hsound.bytes_eq.trans (Nat.add_left_cancel hinsert).symm
        · exact hsound.bytes_le
    · cases gauge with
      | http => exact hconsistent.total_eq .http
      | websocket => exact hconsistent.total_eq .websocket
    · cases gauge with
      | http => exact hconsistent.retained .http
      | websocket =>
        intro id found size' hfound
        obtain ⟨held, hheld, -⟩ := hlookup hfound
        exact hconsistent.retained .websocket id held size' hheld

/-- The coalesced monitor with the time of a sample: it is written before the observation. -/
def MonitorState.sampling (state : MonitorState) (sampled : History) (request : TrafficRequest) :
    MonitorState :=
  { state.coalesce request with
    lifecycles := (state.coalesce request).lifecycles.insert request.id sampled.lifecycle }

/-- What a sample can do: nothing for a request that is closed or completed, coalesce it within the
sampling interval, or observe it and change the pending updates. -/
theorem publishSocketProgress_cases (serializedLength : TrafficRequest → Option ℕ) (limits : Limits)
    (state : MonitorState) (history : History) (request : TrafficRequest) (now : Timestamp) :
    let published :=
      publishSocketProgress serializedLength limits state history.lifecycle request now
    let sampled : History := { history with sampledAt := some now }
    ((request.completed = true ∨ history.phase = .closed) ∧ published = state) ∨
    (¬ (request.completed = true ∨ history.phase = .closed) ∧
      history.sampledAt.any (now - · < socketSampleInterval) = true ∧
      published = state.coalesce request) ∨
    (¬ (request.completed = true ∨ history.phase = .closed) ∧
      ¬ history.sampledAt.any (now - · < socketSampleInterval) = true ∧
      ∃ updates, published = { (observe serializedLength limits (state.sampling sampled request)
        sampled.lifecycle request).2 with socketUpdates := updates }) := by
  intro published sampled
  by_cases hidle : request.completed = true ∨ history.phase = .closed
  · exact .inl ⟨hidle, if_pos (hidle.imp_right history.marker_eq_completed.mpr)⟩
  have hactive : ¬ (request.completed = true ∨ history.lifecycle.marker = .completed) :=
    fun hidle' ↦ hidle (hidle'.imp_right history.marker_eq_completed.mp)
  refine .inr ?_
  by_cases hthrottled : history.sampledAt.any (now - · < socketSampleInterval) = true
  · exact .inl ⟨hidle, hthrottled, (if_neg hactive).trans (if_pos hthrottled)⟩
  · refine .inr ⟨hidle, hthrottled, ?_⟩
    have haccepted := observe_accepted serializedLength limits (state.sampling sampled request)
      sampled request fun hclosed ↦ hidle (.inr hclosed)
    have hlifecycle : sampled.lifecycle = ⟨history.lifecycle.marker, some now⟩ := rfl
    have hpublished : published = _ := (if_neg hactive).trans (if_neg hthrottled)
    rw [MonitorState.sampling, hlifecycle] at haccepted
    simp only [haccepted, Bool.not_true, Bool.false_eq_true, if_false] at hpublished
    rw [MonitorState.sampling, hlifecycle, hpublished]
    split_ifs
    · exact ⟨_, rfl⟩
    · exact ⟨_, rfl⟩

/-- A sample keeps a monitor consistent. -/
theorem publishSocketProgress_consistent {state : MonitorState} {histories : Histories}
    (hconsistent : Consistent limits state histories) {history : History}
    {request : TrafficRequest} (hhistory : histories.lookup request.id = some history)
    (now : Timestamp) :
    Consistent limits
      (publishSocketProgress serializedLength limits state history.lifecycle request now)
      (histories.insert request.id (history.sample request now)) := by
  have hcoalesced := coalesce_consistent hconsistent request
  rcases publishSocketProgress_cases serializedLength limits state history request now with
    ⟨hidle, hsame⟩ | ⟨hidle, hthrottled, hsame⟩ | ⟨hidle, hthrottled, updates, hsame⟩
  · rw [hsame, History.sample, if_pos hidle]
    exact hconsistent.insert_self hhistory
  · rw [hsame, History.sample, if_neg hidle, if_pos hthrottled]
    exact hcoalesced.insert_self hhistory
  · -- The sampling time is written before the observation, so the history moves twice.
    have hsampled : Consistent limits
        (state.sampling { history with sampledAt := some now } request)
        (histories.insert request.id { history with sampledAt := some now }) := by
      refine hcoalesced.move hhistory (AList.lookup_insert _)
        (fun other hne ↦ AList.lookup_insert_ne hne) hcoalesced.sound (fun gauge ↦ ?_)
        (fun gauge other _ ↦ ?_) (fun gauge hphase ↦ ?_)
      · cases gauge <;> rfl
      · cases gauge <;> rfl
      · have hrow := hcoalesced.lookup_eq_none hhistory hphase
        cases gauge <;> exact hrow
    have hobserved := observe_consistent serializedLength hsampled (AList.lookup_insert _)
      fun hclosed ↦ hidle (.inr hclosed)
    rw [AList.insert_insert] at hobserved
    rw [hsame, History.sample, if_neg hidle, if_neg hthrottled]
    exact hobserved.congr rfl fun gauge ↦ by cases gauge <;> rfl

/-- What the drop of an open request does to the partition of a gauge: the total moves, and the row
is removed. -/
theorem dropLease_partition (state : MonitorState) {id : Uuid} {history : History} {opened : Gauge}
    (hopened : history.phase = .opened opened) (gauge : Gauge) :
    (dropLease state id history.lifecycle).partition gauge =
      ((state.recount history.phase.marker Phase.closed.marker).partition gauge).remove id := by
  obtain ⟨phase, sampledAt⟩ := history
  obtain rfl : phase = .opened opened := hopened
  cases opened <;> cases gauge <;> rfl

theorem dropLease_lifecycles (state : MonitorState) (id : Uuid) (history : History) :
    (dropLease state id history.lifecycle).lifecycles =
      state.lifecycles.insert id history.close.lifecycle := by
  obtain ⟨phase, sampledAt⟩ := history
  cases phase with
  | unseen => rfl
  | opened gauge => cases gauge <;> rfl
  | closed => rfl

/-- The drop of a lease keeps a monitor consistent. -/
theorem dropLease_consistent {state : MonitorState} {histories : Histories}
    (hconsistent : Consistent limits state histories) {id : Uuid} {history : History}
    (hhistory : histories.lookup id = some history) :
    Consistent limits (dropLease state id history.lifecycle)
      (histories.insert id history.close) := by
  by_cases hopened : ∃ gauge, history.phase = .opened gauge
  · obtain ⟨opened, hopened⟩ := hopened
    refine hconsistent.move hhistory ?_ (fun other hne ↦ ?_) (fun gauge ↦ ?_) (fun gauge ↦ ?_)
      (fun gauge other hne ↦ ?_) (fun gauge _ ↦ ?_)
    · rw [dropLease_lifecycles, AList.lookup_insert]
    · rw [dropLease_lifecycles, AList.lookup_insert_ne hne]
    all_goals
      obtain ⟨counted, hcounted, htotal⟩ := recount_partition state history.phase .closed gauge
        (hconsistent.one_le_total hhistory gauge)
      rw [dropLease_partition state hopened gauge, hcounted]
    · exact ((hconsistent.sound gauge).withTotal counted).remove id
    · rw [ActivePartition.remove_total]
      exact htotal
    · exact ActivePartition.lookup_remove_ne _ hne
    · exact ActivePartition.lookup_remove_self _ _
  · have hdrop : dropLease state id history.lifecycle =
        { state with lifecycles := state.lifecycles.insert id history.close.lifecycle } := by
      obtain ⟨phase, sampledAt⟩ := history
      cases phase with
      | unseen => rfl
      | opened gauge => exact absurd ⟨gauge, rfl⟩ hopened
      | closed => rfl
    rw [hdrop]
    refine hconsistent.move hhistory (AList.lookup_insert _)
      (fun other hne ↦ AList.lookup_insert_ne hne) hconsistent.sound (fun gauge ↦ ?_)
      (fun gauge other _ ↦ ?_) (fun gauge _ ↦ ?_)
    · rw [if_neg fun hphase ↦ hopened ⟨gauge, hphase⟩, if_neg Phase.noConfusion]
      cases gauge <;> rfl
    · cases gauge <;> rfl
    · have hrow := hconsistent.lookup_eq_none hhistory fun hphase ↦ hopened ⟨gauge, hphase⟩
      cases gauge <;> exact hrow

/-- A new record keeps a monitor consistent. -/
theorem create_consistent {state : MonitorState} {histories : Histories}
    (hconsistent : Consistent limits state histories) {id : Uuid} (hnew : id ∉ histories) :
    Consistent limits { state with lifecycles := state.lifecycles.insert id ⟨.unseen, none⟩ }
      (histories.insert id ⟨.unseen, none⟩) := by
  refine ⟨fun other ↦ ?_, hconsistent.sound, fun gauge ↦ ?_,
    fun gauge other row size hlookup ↦ ?_⟩
  · by_cases hne : other = id
    · rw [hne, AList.lookup_insert, AList.lookup_insert]
      rfl
    · rw [AList.lookup_insert_ne hne, AList.lookup_insert_ne hne, hconsistent.lifecycles]
  · have hopen : openLifecycles gauge (histories.insert id ⟨.unseen, none⟩) =
        0 + openLifecycles gauge histories :=
      total_insert_of_notMem _ hnew _
    rw [hopen, Nat.zero_add, ← hconsistent.total_eq]
    cases gauge <;> rfl
  · have hrow : (state.partition gauge).rows.lookup other = some (row, size) := by
      cases gauge <;> exact hlookup
    obtain ⟨history, hhistory, hphase⟩ := hconsistent.retained gauge other row size hrow
    have hne : other ≠ id := by
      rintro rfl
      rw [AList.lookup_eq_none.mpr hnew] at hhistory
      exact absurd hhistory (by simp)
    exact ⟨history, (AList.lookup_insert_ne hne).trans hhistory, hphase⟩

/-- Every action keeps a monitor consistent with the histories. -/
theorem consistent_step (state : MonitorState) (histories : Histories) (action : Action)
    (hconsistent : Consistent limits state histories) :
    Consistent limits (step serializedLength limits state action) (record histories action) := by
  cases action with
  | create id =>
    have hmem : id ∈ state.lifecycles ↔ id ∈ histories := by
      rw [← AList.lookup_isSome, ← AList.lookup_isSome, hconsistent.lifecycles, Option.isSome_map]
    by_cases hknown : id ∈ histories
    · simp only [step, record, if_pos hknown, if_pos (hmem.mpr hknown)]
      exact hconsistent
    · simp only [step, record, if_neg hknown, if_neg (mt hmem.mp hknown)]
      exact create_consistent hconsistent hknown
  | publish request =>
    simp only [step, record, Histories.modify, hconsistent.lifecycles]
    cases hhistory : histories.lookup request.id with
    | none => exact hconsistent
    | some history => exact publish_consistent hconsistent hhistory
  | publishSocketProgress request now =>
    simp only [step, record, Histories.modify, hconsistent.lifecycles]
    cases hhistory : histories.lookup request.id with
    | none => exact hconsistent
    | some history => exact publishSocketProgress_consistent hconsistent hhistory now
  | dropLease id =>
    simp only [step, record, Histories.modify, hconsistent.lifecycles]
    cases hhistory : histories.lookup id with
    | none => exact hconsistent
    | some history => exact dropLease_consistent hconsistent hhistory

theorem consistent_initial : Consistent limits .initial ∅ := by
  refine ⟨fun _ ↦ rfl, fun gauge ↦ ?_, fun gauge ↦ ?_, fun gauge id row size hlookup ↦ ?_⟩
  · cases gauge <;>
      exact ⟨fun _ _ _ hlookup ↦ absurd hlookup (by simp [MonitorState.partition,
        MonitorState.initial, ActivePartition.empty]), Nat.zero_le _, rfl, Nat.zero_le _⟩
  · cases gauge <;> rfl
  · cases gauge <;> exact absurd hlookup (by simp [MonitorState.partition, MonitorState.initial,
      ActivePartition.empty])

/-- After every interleaving the monitor shows what the histories say. -/
theorem consistent_run (serializedLength : TrafficRequest → Option ℕ) (limits : Limits)
    (actions : List Action) :
    Consistent limits (run (step serializedLength limits) .initial actions)
      (run record ∅ actions) :=
  run_simulation consistent_step actions _ _ consistent_initial

/-! ### Completion is final -/

/-- A closed request stays closed. -/
theorem closed_step {id : Uuid} (histories : Histories) (action : Action)
    (hclosed : (histories.lookup id).map History.phase = some .closed) :
    ((record histories action).lookup id).map History.phase = some .closed := by
  have hmodify : ∀ (other : Uuid) (change : History → History),
      (∀ history, history.phase = .closed → (change history).phase = .closed) →
        ((histories.modify other change).lookup id).map History.phase = some .closed := by
    intro other change hchange
    unfold Histories.modify
    cases hother : histories.lookup other with
    | none => exact hclosed
    | some history =>
      by_cases hid : id = other
      · subst hid
        rw [hother] at hclosed
        show ((histories.insert id (change history)).lookup id).map History.phase = _
        rw [AList.lookup_insert]
        exact congrArg some (hchange history (Option.some.inj hclosed))
      · show ((histories.insert other (change history)).lookup id).map History.phase = _
        rw [AList.lookup_insert_ne hid]
        exact hclosed
  cases action with
  | create other =>
    simp only [record]
    split_ifs with hknown
    · exact hclosed
    · have hne : id ≠ other := by
        rintro rfl
        rw [AList.lookup_eq_none.mpr hknown] at hclosed
        exact absurd hclosed (by simp)
      rw [AList.lookup_insert_ne hne]
      exact hclosed
  | publish request =>
    refine hmodify request.id _ fun history hphase ↦ ?_
    unfold History.publish
    rw [if_pos hphase]
    exact hphase
  | publishSocketProgress request now =>
    refine hmodify request.id _ fun history hphase ↦ ?_
    unfold History.sample
    rw [if_pos (Or.inr hphase)]
    exact hphase
  | dropLease other => exact hmodify other _ fun _ _ ↦ rfl

/-- For every interleaving of publications, samples and drops, over any requests and any row sizes,
and for both gauges: the total is the number of requests that are open in the gauge; a row belongs
to such a request, stands under its own id, and its size is part of the byte counter, which is the
sum of the recorded sizes; rows and bytes are within the limits. The operands of every subtraction
of a step are those of the state before it: the total of a gauge is positive where a request has its
marker, and the byte counter is at least the size of each row. A request that has been closed stays
so after any further actions, and has no row. -/
theorem gauges_exact (serializedLength : TrafficRequest → Option ℕ) (limits : Limits)
    (actions : List Action) :
    let state := run (step serializedLength limits) .initial actions
    let histories := run record ∅ actions
    (∀ gauge, (state.partition gauge).total = openLifecycles gauge histories) ∧
      (∀ gauge id lifecycle, state.lifecycles.lookup id = some lifecycle →
        lifecycle.marker = gauge.marker → 1 ≤ (state.partition gauge).total) ∧
      (∀ gauge id row size, (state.partition gauge).rows.lookup id = some (row, size) →
        row.id = id ∧ size ≤ (state.partition gauge).bytes ∧
          ∃ history, histories.lookup id = some history ∧ history.phase = .opened gauge) ∧
      (∀ gauge, (state.partition gauge).rows.entries.length ≤ limits.recordLimit ∧
        (state.partition gauge).bytes = recordedBytes (state.partition gauge).rows ∧
        (state.partition gauge).bytes ≤ limits.byteLimit) ∧
      ∀ id, (histories.lookup id).map History.phase = some .closed → ∀ later,
        let later' := run (step serializedLength limits) .initial (actions ++ later)
        ((run record ∅ (actions ++ later)).lookup id).map History.phase = some .closed ∧
          (later'.lifecycles.lookup id).map Lifecycle.marker = some .completed ∧
          ∀ gauge, (later'.partition gauge).rows.lookup id = none := by
  intro state histories
  have hconsistent : Consistent limits state histories :=
    consistent_run serializedLength limits actions
  refine ⟨hconsistent.total_eq, fun gauge id lifecycle hlifecycle hmarker ↦ ?_,
    fun gauge id row size hrow ↦ ?_, fun gauge ↦ ?_, fun id hclosed later ↦ ?_⟩
  · rw [hconsistent.lifecycles] at hlifecycle
    obtain ⟨history, hhistory, rfl⟩ := Option.map_eq_some_iff.mp hlifecycle
    exact hconsistent.one_le_total hhistory gauge ((Phase.marker_eq_gauge _ _).mp hmarker)
  · have hsound := hconsistent.sound gauge
    exact ⟨hsound.id_eq id row size hrow, hsound.size_le hrow,
      hconsistent.retained gauge id row size hrow⟩
  · have hsound := hconsistent.sound gauge
    exact ⟨hsound.length_le, hsound.bytes_eq, hsound.bytes_le⟩
  · have hlater : ((run record ∅ (actions ++ later)).lookup id).map History.phase =
        some .closed := by
      rw [run_append]
      exact @run_invariant _ _ record
        (fun histories ↦ (histories.lookup id).map History.phase = some .closed)
        closed_step later _ hclosed
    have hconsistent' := consistent_run serializedLength limits (actions ++ later)
    obtain ⟨history, hhistory, hphase⟩ := Option.map_eq_some_iff.mp hlater
    refine ⟨hlater, ?_, fun gauge ↦ hconsistent'.lookup_eq_none hhistory ?_⟩
    · rw [hconsistent'.lifecycles, hhistory]
      exact congrArg some (history.marker_eq_completed.mpr hphase)
    · rw [hphase]
      exact Phase.noConfusion

end Monitor

end Relayna.Traffic

import Relayna.Traffic.Gauges

/-!
# The rows that a step leaves

What a step does to the retained rows, with the sizes recorded for them. `Recorded` is what a
partition retains of a record. An observation records its record or drops the row
(`observe_rows`), a sample within the sampling interval changes the progress of a row
(`coalesce_rows`), and nothing else touches a row. `publishSocketProgress_partition` says which of
the two a sample does.
-/

set_option autoImplicit false
set_option relaxedAutoImplicit false

namespace Relayna.Traffic

/-- The entry that a partition retains of a record. -/
structure Recorded (serializedLength : TrafficRequest → Option ℕ) (limits : Limits)
    (request row : TrafficRequest) (size : ℕ) : Prop where
  row_eq : row = activeProjection request
  size_eq : size = rowSize serializedLength row
  size_le : size ≤ limits.byteLimit

section Monitor

variable {serializedLength : TrafficRequest → Option ℕ} {limits : Limits}

theorem ActivePartition.lookup_remove (partition : ActivePartition) {id other : Uuid}
    {entry : TrafficRequest × ℕ} (hentry : (partition.remove id).rows.lookup other = some entry) :
    other ≠ id ∧ partition.rows.lookup other = some entry := by
  have hne : other ≠ id := by
    rintro rfl
    rw [partition.lookup_remove_self] at hentry
    exact absurd hentry (by simp)
  rw [partition.lookup_remove_ne hne] at hentry
  exact ⟨hne, hentry⟩

/-- An entry of an updated partition is recorded for the record, or an old entry of another
request. -/
theorem ActivePartition.lookup_update (partition : ActivePartition) {request : TrafficRequest}
    {id : Uuid} {row : TrafficRequest} {size : ℕ}
    (hrow : (partition.update serializedLength limits request).rows.lookup id = some (row, size)) :
    id = request.id ∧ Recorded serializedLength limits request row size ∨
      id ≠ request.id ∧ partition.rows.lookup id = some (row, size) := by
  by_cases hid : id = request.id
  · subst hid
    refine .inl ⟨rfl, ?_⟩
    unfold ActivePartition.update at hrow
    dsimp only at hrow
    split_ifs at hrow with hfits
    · rw [activeProjection_id, AList.lookup_insert] at hrow
      obtain ⟨rfl, rfl⟩ := Prod.mk.inj (Option.some.inj hrow)
      refine ⟨rfl, rfl, le_trans ?_ hfits.2⟩
      rw [saturatingAdd_eq_of_le limits hfits.2]
      exact Nat.le_add_left _ _
    · rw [partition.lookup_remove_self] at hrow
      exact absurd hrow (by simp)
  · rw [partition.lookup_update_ne serializedLength limits request hid] at hrow
    exact .inr ⟨hid, hrow⟩

theorem recount_rows (state : MonitorState) (previous next : Marker) (gauge : Gauge) :
    ((state.recount previous next).partition gauge).rows = (state.partition gauge).rows := by
  by_cases hsame : previous = next
  · have hrecount : state.recount previous next = state := if_pos hsame
    rw [hrecount]
  · rw [recount_partition_of_ne state hsame gauge]

/-- An entry after an observation is recorded for the record, or an old entry of another request. -/
theorem observe_rows {state : MonitorState} {history : History} {request : TrafficRequest}
    (hopen : history.phase ≠ .closed) {gauge : Gauge} {id : Uuid} {row : TrafficRequest} {size : ℕ}
    (hrow : ((observe serializedLength limits state history.lifecycle request).2.partition
      gauge).rows.lookup id = some (row, size)) :
    id = request.id ∧ Recorded serializedLength limits request row size ∨
      id ≠ request.id ∧ (state.partition gauge).rows.lookup id = some (row, size) := by
  rw [observe_partition serializedLength limits state history request hopen gauge] at hrow
  rw [← recount_rows state history.phase.marker request.phase.marker gauge]
  dsimp only at hrow
  split_ifs at hrow
  · exact ActivePartition.lookup_update _ hrow
  · exact .inr (ActivePartition.lookup_remove _ hrow)

/-- A row after coalescing a sample is an old row, or that of the sample's socket with its
progress. -/
theorem coalesce_rows {state : MonitorState} {request : TrafficRequest} {gauge : Gauge} {id : Uuid}
    {row : TrafficRequest} {size : ℕ}
    (hrow : ((state.coalesce request).partition gauge).rows.lookup id = some (row, size)) :
    ∃ held, (state.partition gauge).rows.lookup id = some (held, size) ∧
      (row = held ∨ gauge = .websocket ∧ id = request.id ∧
        row = coalesceSocketProgress held request) := by
  rcases gauge with _ | _
  · exact ⟨row, hrow, .inl rfl⟩
  · dsimp only [MonitorState.coalesce, MonitorState.partition] at hrow
    rcases hheld : state.websocket.rows.lookup request.id with _ | ⟨held, heldSize⟩
    · rw [hheld] at hrow
      exact ⟨row, hrow, .inl rfl⟩
    · rw [hheld] at hrow
      rcases Library.Table.lookup_insert_cases hrow with ⟨rfl, hnew⟩ | ⟨-, hold⟩
      · obtain ⟨rfl, rfl⟩ := Prod.mk.inj hnew
        exact ⟨held, hheld, .inr ⟨rfl, rfl, rfl⟩⟩
      · exact ⟨row, hold, .inl rfl⟩

/-- Assumes: a retained row of a socket. It has the progress of a sample once that is coalesced. -/
theorem lookup_coalesce {state : MonitorState} {request held : TrafficRequest} {size : ℕ}
    (hheld : state.websocket.rows.lookup request.id = some (held, size)) :
    (state.coalesce request).websocket.rows.lookup request.id =
      some (coalesceSocketProgress held request, size) := by
  unfold MonitorState.coalesce
  rw [hheld]
  exact AList.lookup_insert _

/-- The drop of a lease adds no row. -/
theorem dropLease_rows {state : MonitorState} {id other : Uuid} {history : History}
    {gauge : Gauge} {entry : TrafficRequest × ℕ}
    (hrow : ((dropLease state id history.lifecycle).partition gauge).rows.lookup other =
      some entry) :
    (state.partition gauge).rows.lookup other = some entry := by
  by_cases hopened : ∃ opened, history.phase = .opened opened
  · obtain ⟨opened, hopened⟩ := hopened
    rw [dropLease_partition state hopened gauge] at hrow
    rw [← recount_rows state history.phase.marker Phase.closed.marker gauge]
    exact (ActivePartition.lookup_remove _ hrow).2
  · have hsame : (dropLease state id history.lifecycle).partition gauge =
        state.partition gauge := by
      obtain ⟨phase, sampledAt⟩ := history
      rcases phase with _ | opened | _
      · rcases gauge with _ | _ <;> rfl
      · exact absurd ⟨opened, rfl⟩ hopened
      · rcases gauge with _ | _ <;> rfl
    rwa [hsame] at hrow

/-- An entry after a publication is recorded for its record, or an old entry of another request. -/
theorem publish_rows {state : MonitorState} {history : History} {request : TrafficRequest}
    (hopen : history.phase ≠ .closed) {gauge : Gauge} {id : Uuid} {row : TrafficRequest} {size : ℕ}
    (hrow : ((publish serializedLength limits state history.lifecycle request).partition
      gauge).rows.lookup id = some (row, size)) :
    id = request.id ∧ Recorded serializedLength limits request row size ∨
      id ≠ request.id ∧ (state.partition gauge).rows.lookup id = some (row, size) := by
  have hpublish : (publish serializedLength limits state history.lifecycle request).partition
    gauge =
      (observe serializedLength limits
        { state with socketUpdates := state.socketUpdates.erase request.id } history.lifecycle
        request).2.partition gauge := by
    unfold publish
    simp only [observe_accepted serializedLength limits _ history request hopen, Bool.not_true,
      Bool.false_and, Bool.false_eq_true, if_false]
    rcases gauge with _ | _ <;> rfl
  rw [hpublish] at hrow
  rcases observe_rows hopen hrow with hself | ⟨hne, hheld⟩
  · exact .inl hself
  · refine .inr ⟨hne, ?_⟩
    rcases gauge with _ | _ <;> exact hheld

/-- A publication for a closed request leaves the rows alone. -/
theorem publish_closed_rows (state : MonitorState) {history : History} (request : TrafficRequest)
    (hclosed : history.phase = .closed) (gauge : Gauge) :
    (publish serializedLength limits state history.lifecycle request).partition gauge =
      state.partition gauge := by
  unfold publish
  simp only [observe_closed serializedLength limits _ request hclosed]
  split_ifs <;> rcases gauge with _ | _ <;> rfl

/-- What a sample does to a partition: nothing to that of a request that is closed or completed; it
is coalesced, and observed outside the sampling interval. -/
theorem publishSocketProgress_partition (state : MonitorState) (history : History)
    (request : TrafficRequest) (now : Timestamp) (gauge : Gauge) :
    (publishSocketProgress serializedLength limits state history.lifecycle request now).partition
        gauge =
      if request.completed = true ∨ history.phase = .closed then state.partition gauge
      else if history.sampledAt.any (now - · < socketSampleInterval) = true then
        (state.coalesce request).partition gauge
      else (observe serializedLength limits (state.coalesce request) history.lifecycle
        request).2.partition gauge := by
  rcases publishSocketProgress_cases serializedLength limits state history request now with
    ⟨hidle, hsame⟩ | ⟨hidle, hthrottled, hsame⟩ | ⟨hidle, hthrottled, updates, hsame⟩
  · rw [hsame, if_pos hidle]
  · rw [hsame, if_neg hidle, if_pos hthrottled]
  · have hopen : history.phase ≠ .closed := fun hclosed ↦ hidle (.inr hclosed)
    rw [hsame, if_neg hidle, if_neg hthrottled]
    have hkept : ∀ observed : MonitorState,
        { observed with socketUpdates := updates }.partition gauge = observed.partition gauge := by
      intro observed
      rcases gauge with _ | _ <;> rfl
    have hcounted : ((state.sampling { history with sampledAt := some now } request).recount
        history.phase.marker request.phase.marker).partition gauge =
          ((state.coalesce request).recount history.phase.marker
            request.phase.marker).partition gauge := by
      unfold MonitorState.recount
      split_ifs <;> rcases gauge with _ | _ <;> rfl
    rw [hkept, observe_partition serializedLength limits _ { history with sampledAt := some now }
      request hopen gauge, observe_partition serializedLength limits _ history request hopen gauge,
      hcounted]

end Monitor

end Relayna.Traffic

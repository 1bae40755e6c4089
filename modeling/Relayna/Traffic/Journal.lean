import Mathlib.Order.Basic
import Relayna.Library.BoundedLog
import Relayna.Library.Transition
import Relayna.Traffic.Monitor

/-!
# The journal of the live-traffic monitor

`TrafficMonitor::batch` answers a client that polls the monitor. It appends the pending socket
samples to the journal, reads the sequence number out of the cursor the client sends, reports a gap
when the journal no longer reaches back to it, and returns the latest update of each request after
it.

The journal is a bounded log: `Journaled` says that it holds the newest of all updates that were
ever appended. `journaled_run` is the invariant for every interleaving of requests and polls, and
`journal_complete` states what a client that polls with its previous cursor receives.
-/

set_option autoImplicit false
set_option relaxedAutoImplicit false

namespace Relayna.Traffic

open Library.BoundedLog Library.Transition

/-! ### Cursors -/

/-- `rsplit_once`: the text before and after the last occurrence of a character. -/
def rsplitOnce (mark : Char) : List Char → Option (List Char × List Char)
  | [] => none
  | first :: rest =>
    match rsplitOnce mark rest with
    | some (before, after) => some (first :: before, after)
    | none => if first = mark then some ([], rest) else none

/-- `parse::<u64>`: decimal digits after an optional plus sign. A number that does not fit in a
`u64` is larger than every sequence number, and `batch` reports a gap for it as for a text that does
not parse. -/
def parseSequence (text : List Char) : Option ℕ :=
  let digits := match text with
    | '+' :: rest => rest
    | _ => text
  if digits ≠ [] ∧ digits.all Char.isDigit then some (Nat.ofDigitChars 10 digits 0) else none

/-- The cursor of a monitor at a sequence number. -/
def formatCursor (instanceId : String) (sequence : ℕ) : String :=
  instanceId ++ ":" ++ toString sequence

/-- The sequence number in a cursor of this monitor. -/
def cursorSequence (instanceId cursor : String) : Option ℕ :=
  match rsplitOnce ':' cursor.toList with
  | some (owner, sequence) =>
    if owner = instanceId.toList then parseSequence sequence else none
  | none => none

theorem rsplitOnce_of_notMem {mark : Char} {text : List Char} (hmark : mark ∉ text) :
    rsplitOnce mark text = none := by
  induction text with
  | nil => rfl
  | cons first rest ih =>
    rw [List.mem_cons, not_or] at hmark
    rw [rsplitOnce, ih hmark.2]
    exact if_neg (Ne.symm hmark.1)

/-- Assumes: a text without the mark. It is what follows the last mark. -/
theorem rsplitOnce_append {mark : Char} (before : List Char) {after : List Char}
    (hmark : mark ∉ after) : rsplitOnce mark (before ++ mark :: after) = some (before, after) := by
  induction before with
  | nil =>
    rw [List.nil_append, rsplitOnce, rsplitOnce_of_notMem hmark]
    exact if_pos rfl
  | cons first rest ih => rw [List.cons_append, rsplitOnce, ih]

theorem parseSequence_toDigits (sequence : ℕ) :
    parseSequence (Nat.toDigits 10 sequence) = some sequence := by
  have hdigit : ∀ digit ∈ Nat.toDigits 10 sequence, digit.isDigit = true := by
    intro digit hdigit
    exact Nat.isDigit_of_mem_toDigits (by decide) le_rfl hdigit
  have hplus : (match Nat.toDigits 10 sequence with
      | '+' :: rest => rest
      | _ => Nat.toDigits 10 sequence) = Nat.toDigits 10 sequence := by
    split
    · rename_i rest htext
      have hfirst := hdigit '+' (htext ▸ List.mem_cons_self)
      exact absurd hfirst (by decide)
    · rfl
  unfold parseSequence
  simp only [hplus]
  rw [if_pos ⟨Nat.toDigits_ne_nil, List.all_eq_true.mpr hdigit⟩, Nat.ofDigitChars_ten_toDigits]

/-- A monitor reads its own cursors back. -/
theorem cursorSequence_format (instanceId : String) (sequence : ℕ) :
    cursorSequence instanceId (formatCursor instanceId sequence) = some sequence := by
  have htext : (formatCursor instanceId sequence).toList =
      instanceId.toList ++ ':' :: Nat.toDigits 10 sequence := by
    simp [formatCursor, Nat.repr]
  have hmark : ':' ∉ Nat.toDigits 10 sequence := by
    intro hmem
    have hdigit := Nat.isDigit_of_mem_toDigits (by decide) le_rfl hmem
    exact absurd hdigit (by decide)
  unfold cursorSequence
  rw [htext, rsplitOnce_append _ hmark]
  exact (if_pos rfl).trans (parseSequence_toDigits sequence)

/-! ### Polls -/

/-- `TrafficBatch`, whose `active` is `None` here. -/
structure TrafficBatch where
  instanceId : String
  cursor : String
  gap : Bool
  evictedUpdates : ℕ
  rows : List TrafficRequest

/-- The records that wait in the socket updates. -/
def MonitorState.pending (state : MonitorState) : List TrafficRequest :=
  state.socketUpdates.entries.map fun entry ↦ entry.2.2

/-- Take the socket updates and append them. A hash map yields them in any order. -/
def drain (limits : Limits) (state : MonitorState) (order : List TrafficRequest) : MonitorState :=
  (if order.Perm state.pending then order else state.pending).foldl (append limits)
    { state with socketUpdates := ∅ }

/-- The rows after a sequence number whose requests have not been seen, newest first. -/
def collect (position : ℕ) (seen : List Uuid) : List (ℕ × TrafficRequest) → List TrafficRequest
  | [] => []
  | (sequence, request) :: older =>
    if position < sequence ∧ request.id ∉ seen then
      request :: collect position (request.id :: seen) older
    else collect position seen older

/-- The answer to a poll, once the socket updates are in the journal. -/
def answer (instanceId : String) (state : MonitorState) (cursor : Option String) : TrafficBatch :=
  let sequence := cursor.bind (cursorSequence instanceId)
  let oldest := (state.journal.head?.map Prod.fst).getD (state.sequence + 1)
  let gap := cursor.isSome &&
    (sequence.elim true fun sequence ↦ sequence + 1 < oldest || state.sequence < sequence)
  let position := if gap then 0 else sequence.getD 0
  { instanceId := instanceId
    cursor := formatCursor instanceId state.sequence
    gap := gap
    evictedUpdates := oldest - 1
    rows := collect position [] state.journal.reverse }

/-- `batch`. -/
def batch (limits : Limits) (instanceId : String) (state : MonitorState)
    (order : List TrafficRequest) (cursor : Option String) : TrafficBatch × MonitorState :=
  let drained := drain limits state order
  (answer instanceId drained cursor, drained)

section Runs

variable (serializedLength : TrafficRequest → Option ℕ)

/-- A step of the requests, or a poll. -/
inductive Event
  | act (action : Action)
  | poll (order : List TrafficRequest) (cursor : Option String)

/-- A monitor and every update that was appended to its journal. -/
structure World where
  monitor : MonitorState
  updates : List TrafficRequest

/-- A monitor that has seen nothing. -/
def World.initial : World := ⟨.initial, []⟩

/-- The updates that an event appends: a publication, unless it follows the completion of its
request and is not itself complete, and the socket updates that wait for a poll. -/
def MonitorState.appended (state : MonitorState) : Event → List TrafficRequest
  | .act (.publish request) =>
    match state.lifecycles.lookup request.id with
    | some lifecycle =>
      if lifecycle.marker = .completed ∧ request.completed = false then [] else [request]
    | none => []
  | .act _ => []
  | .poll order _ => if order.Perm state.pending then order else state.pending

def advance (limits : Limits) (instanceId : String) (world : World) (event : Event) : World where
  monitor :=
    match event with
    | .act action => step serializedLength limits world.monitor action
    | .poll order cursor => (batch limits instanceId world.monitor order cursor).2
  updates := world.updates ++ world.monitor.appended event

/-! ### The journal is the end of the updates -/

/-- The journal holds the newest updates, under their numbers. -/
structure Journaled (limits : Limits) (monitor : MonitorState) (updates : List TrafficRequest) :
    Prop where
  sequence_eq : monitor.sequence = updates.length
  journal_eq : monitor.journal = recent (max limits.capacity 1) updates

/-- Assumes: two monitors with the same journal. -/
theorem Journaled.congr {limits : Limits} {monitor other : MonitorState}
    {updates : List TrafficRequest} (hjournaled : Journaled limits monitor updates)
    (hsequence : other.sequence = monitor.sequence) (hjournal : other.journal = monitor.journal) :
    Journaled limits other updates :=
  ⟨hsequence.trans hjournaled.sequence_eq, hjournal.trans hjournaled.journal_eq⟩

/-- An append adds one update. -/
theorem Journaled.append {limits : Limits} {monitor : MonitorState}
    {updates : List TrafficRequest} (hjournaled : Journaled limits monitor updates)
    (request : TrafficRequest) :
    Journaled limits (append limits monitor request) (updates ++ [request]) := by
  constructor
  · show monitor.sequence + 1 = _
    rw [hjournaled.sequence_eq, List.length_append, List.length_singleton]
  · rw [← recent_append, ← hjournaled.journal_eq, ← hjournaled.sequence_eq]
    rfl

/-- Appending one record after another adds them all. -/
theorem Journaled.foldl_append {limits : Limits} (requests : List TrafficRequest) :
    ∀ {monitor : MonitorState} {updates : List TrafficRequest}, Journaled limits monitor updates →
      Journaled limits (requests.foldl (Traffic.append limits) monitor) (updates ++ requests) := by
  induction requests with
  | nil =>
    intro monitor updates hjournaled
    rwa [List.append_nil]
  | cons request rest ih =>
    intro monitor updates hjournaled
    rw [List.append_cons]
    exact ih (hjournaled.append request)

theorem recount_journal (state : MonitorState) (previous next : Marker) :
    (state.recount previous next).sequence = state.sequence ∧
      (state.recount previous next).journal = state.journal := by
  unfold MonitorState.recount
  split_ifs <;> exact ⟨rfl, rfl⟩

/-- An observation leaves the journal alone and accepts the records of requests that are not
completed. -/
theorem observe_journal (limits : Limits) (state : MonitorState) (lifecycle : Lifecycle)
    (request : TrafficRequest) :
    (observe serializedLength limits state lifecycle request).2.sequence = state.sequence ∧
      (observe serializedLength limits state lifecycle request).2.journal = state.journal ∧
      (observe serializedLength limits state lifecycle request).1 =
        decide (lifecycle.marker ≠ .completed) := by
  unfold observe
  split_ifs with hmarker
  · simp [hmarker]
  · obtain ⟨hsequence, hjournal⟩ := recount_journal state lifecycle.marker request.nextMarker
    exact ⟨hsequence, hjournal, (decide_eq_true hmarker).symm⟩

/-- A publication appends its record, unless it comes too late. -/
theorem publish_journaled {limits : Limits} {monitor : MonitorState}
    {updates : List TrafficRequest} (hjournaled : Journaled limits monitor updates)
    (lifecycle : Lifecycle) (request : TrafficRequest) :
    Journaled limits (publish serializedLength limits monitor lifecycle request)
      (updates ++ if lifecycle.marker = .completed ∧ request.completed = false then []
        else [request]) := by
  set pending : MonitorState :=
    { monitor with socketUpdates := monitor.socketUpdates.erase request.id } with hpending
  obtain ⟨hsequence, hjournal, haccepted⟩ :=
    observe_journal serializedLength limits pending lifecycle request
  have hobserved : Journaled limits
      (observe serializedLength limits pending lifecycle request).2 updates :=
    hjournaled.congr hsequence hjournal
  unfold publish
  rw [← hpending]
  simp only [haccepted]
  by_cases hlate : lifecycle.marker = .completed ∧ request.completed = false
  · rw [if_pos hlate, if_pos (by simp [hlate.1, hlate.2]), List.append_nil]
    exact hobserved
  · rw [if_neg hlate, if_neg]
    · exact hobserved.append request
    · simpa using hlate

/-- A sample of a socket waits for a poll. -/
theorem publishSocketProgress_journal (limits : Limits) (state : MonitorState)
    (lifecycle : Lifecycle) (request : TrafficRequest) (now : Timestamp) :
    (publishSocketProgress serializedLength limits state lifecycle request now).sequence =
        state.sequence ∧
      (publishSocketProgress serializedLength limits state lifecycle request now).journal =
        state.journal := by
  set sampled : Lifecycle := { lifecycle with sampledAt := some now }
  obtain ⟨hsequence, hjournal, -⟩ := observe_journal serializedLength limits
    { state.coalesce request with
      lifecycles := (state.coalesce request).lifecycles.insert request.id sampled } sampled request
  unfold publishSocketProgress
  simp only
  split_ifs
  · exact ⟨rfl, rfl⟩
  · exact ⟨rfl, rfl⟩
  · exact ⟨hsequence, hjournal⟩
  · exact ⟨hsequence, hjournal⟩
  · exact ⟨hsequence, hjournal⟩

theorem dropLease_journal (state : MonitorState) (id : Uuid) (lifecycle : Lifecycle) :
    (dropLease state id lifecycle).sequence = state.sequence ∧
      (dropLease state id lifecycle).journal = state.journal := by
  unfold dropLease
  split
  · exact ⟨rfl, rfl⟩
  · exact ⟨rfl, rfl⟩
  · exact recount_journal _ _ _

/-- A step of the requests appends what the event says. -/
theorem step_journaled {limits : Limits} {monitor : MonitorState}
    {updates : List TrafficRequest} (hjournaled : Journaled limits monitor updates)
    (action : Action) :
    Journaled limits (step serializedLength limits monitor action)
      (updates ++ monitor.appended (.act action)) := by
  rcases action with id | request | ⟨request, now⟩ | id
  · show Journaled limits _ (updates ++ [])
    rw [List.append_nil]
    simp only [step]
    split_ifs
    · exact hjournaled
    · exact hjournaled.congr rfl rfl
  · simp only [step, MonitorState.appended]
    rcases monitor.lifecycles.lookup request.id with _ | lifecycle
    · rwa [List.append_nil]
    · exact publish_journaled serializedLength hjournaled lifecycle request
  · show Journaled limits _ (updates ++ [])
    rw [List.append_nil]
    simp only [step]
    split
    · obtain ⟨hsequence, hjournal⟩ :=
        publishSocketProgress_journal serializedLength limits monitor _ request now
      exact hjournaled.congr hsequence hjournal
    · exact hjournaled
  · show Journaled limits _ (updates ++ [])
    rw [List.append_nil]
    simp only [step]
    split
    · obtain ⟨hsequence, hjournal⟩ := dropLease_journal monitor id _
      exact hjournaled.congr hsequence hjournal
    · exact hjournaled

/-- A poll appends the socket updates. -/
theorem drain_journaled {limits : Limits} {monitor : MonitorState}
    {updates : List TrafficRequest} (hjournaled : Journaled limits monitor updates)
    (order : List TrafficRequest) (cursor : Option String) :
    Journaled limits (drain limits monitor order)
      (updates ++ monitor.appended (.poll order cursor)) :=
  Journaled.foldl_append _ (hjournaled.congr rfl rfl)

/-- One event keeps the journal the end of the updates. -/
theorem journaled_advance {limits : Limits} (instanceId : String) (world : World) (event : Event)
    (hjournaled : Journaled limits world.monitor world.updates) :
    Journaled limits (advance serializedLength limits instanceId world event).monitor
      (advance serializedLength limits instanceId world event).updates := by
  rcases event with action | ⟨order, cursor⟩
  · exact step_journaled serializedLength hjournaled action
  · exact drain_journaled hjournaled order cursor

/-- In every run the journal is the end of the updates. -/
theorem journaled_run {limits : Limits} (instanceId : String) (world : World)
    (hjournaled : Journaled limits world.monitor world.updates) (events : List Event) :
    Journaled limits (run (advance serializedLength limits instanceId) world events).monitor
      (run (advance serializedLength limits instanceId) world events).updates :=
  @run_invariant _ _ _ (fun world ↦ Journaled limits world.monitor world.updates)
    (journaled_advance serializedLength instanceId) events world hjournaled

theorem journaled_initial (limits : Limits) :
    Journaled limits World.initial.monitor World.initial.updates :=
  ⟨rfl, List.drop_nil.symm⟩

/-- A run only adds updates. -/
theorem updates_run (limits : Limits) (instanceId : String) (events : List Event) (world : World) :
    world.updates.length ≤
      (run (advance serializedLength limits instanceId) world events).updates.length := by
  refine @run_invariant _ _ _ (fun other ↦ world.updates.length ≤ other.updates.length)
    (fun other event hle ↦ hle.trans ?_) events world le_rfl
  show _ ≤ (other.updates ++ _).length
  rw [List.length_append]
  exact Nat.le_add_right _ _

/-! ### What a poll returns -/

theorem collect_eq (position : ℕ) (seen : List Uuid) (entries : List (ℕ × TrafficRequest)) :
    collect position seen entries = latest TrafficRequest.id seen
      ((entries.filter fun entry ↦ position < entry.1).map Prod.snd) := by
  induction entries generalizing seen with
  | nil => rfl
  | cons first older ih =>
    obtain ⟨sequence, request⟩ := first
    unfold collect
    by_cases hposition : position < sequence
    · rw [List.filter_cons_of_pos (by simpa using hposition), List.map_cons, latest]
      by_cases hseen : request.id ∈ seen
      · rw [if_neg (fun hnew ↦ hnew.2 hseen), if_pos hseen, ih]
      · rw [if_pos ⟨hposition, hseen⟩, if_neg hseen, ih]
    · rw [List.filter_cons_of_neg (by simpa using hposition),
        if_neg (fun hnew ↦ hposition hnew.1), ih]

/-- Assumes: a journal that is the end of the updates. Its oldest number, or the next one. -/
theorem Journaled.oldest_eq {limits : Limits} {monitor : MonitorState}
    {updates : List TrafficRequest} (hjournaled : Journaled limits monitor updates) :
    (monitor.journal.head?.map Prod.fst).getD (monitor.sequence + 1) =
      updates.length - max limits.capacity 1 + 1 := by
  rw [hjournaled.journal_eq, hjournaled.sequence_eq]
  exact oldest_recent (by omega) updates

/-- Assumes: a cursor of this monitor at a position within the updates. The answer reports a gap
exactly when the journal begins after the position. -/
theorem Journaled.gap_iff {limits : Limits} {monitor : MonitorState}
    {updates : List TrafficRequest} (hjournaled : Journaled limits monitor updates)
    (instanceId : String) {position : ℕ} (hposition : position ≤ updates.length) :
    (answer instanceId monitor (some (formatCursor instanceId position))).gap = true ↔
      position < updates.length - max limits.capacity 1 := by
  unfold answer
  simp only [Option.bind_some, cursorSequence_format, Option.isSome_some, Option.elim_some,
    Bool.true_and, Bool.or_eq_true, decide_eq_true_eq]
  rw [hjournaled.oldest_eq, hjournaled.sequence_eq]
  omega

/-- Assumes: a cursor whose answer reports no gap. The rows are the latest updates after it. -/
theorem Journaled.rows_eq {limits : Limits} {monitor : MonitorState}
    {updates : List TrafficRequest} (hjournaled : Journaled limits monitor updates)
    (instanceId : String) {position : ℕ} (hposition : position ≤ updates.length)
    (hgap : (answer instanceId monitor (some (formatCursor instanceId position))).gap = false) :
    (answer instanceId monitor (some (formatCursor instanceId position))).rows =
      latest TrafficRequest.id [] (updates.drop position).reverse := by
  have hreaches : updates.length - max limits.capacity 1 ≤ position := by
    rw [← Bool.not_eq_true, hjournaled.gap_iff instanceId hposition] at hgap
    omega
  have hrows : (answer instanceId monitor (some (formatCursor instanceId position))).rows =
      collect (if (answer instanceId monitor (some (formatCursor instanceId position))).gap then 0
        else position) [] monitor.journal.reverse := by
    unfold answer
    simp only [Option.bind_some, cursorSequence_format, Option.getD_some]
  rw [hrows, hgap, collect_eq, List.filter_reverse, List.map_reverse, hjournaled.journal_eq]
  exact congrArg (fun entries ↦ latest TrafficRequest.id [] entries.reverse)
    (filter_recent hreaches)

/-- The update with this number has been appended, and the journal no longer holds it. -/
def World.Evicted (world : World) (number : ℕ) : Prop :=
  1 ≤ number ∧ number ≤ world.updates.length ∧ number ∉ world.monitor.journal.map Prod.fst

/-- Assumes: a journal that is the end of the updates. The evicted updates are the oldest. -/
theorem Journaled.evicted_iff {limits : Limits} {world : World}
    (hjournaled : Journaled limits world.monitor world.updates) (number : ℕ) :
    world.Evicted number ↔
      1 ≤ number ∧ number ≤ world.updates.length - max limits.capacity 1 := by
  unfold World.Evicted
  rw [hjournaled.journal_eq, map_fst_recent, List.mem_range'_1]
  omega

/-- For every run, and for every client that polls with the cursor of its previous poll. When the
poll reports no gap, its rows are, for each request that was updated since, its latest update, once,
and nothing else; it reports a gap exactly when an update since that cursor has been evicted. In
every reachable state the journal is within its capacity, its numbers are consecutive, and it holds
the updates with those numbers. -/
theorem journal_complete (limits : Limits) (instanceId : String) (earlier later : List Event)
    (firstOrder order : List TrafficRequest) (firstCursor : Option String) :
    let advance := advance serializedLength limits instanceId
    let reached := run advance World.initial earlier
    let cursor := (batch limits instanceId reached.monitor firstOrder firstCursor).1.cursor
    let polled := advance reached (.poll firstOrder firstCursor)
    let waiting := run advance polled later
    let reply := (batch limits instanceId waiting.monitor order (some cursor)).1
    let answered := advance waiting (.poll order (some cursor))
    (reply.gap = false →
      (reply.rows.map TrafficRequest.id).Nodup ∧
        ∀ row, row ∈ reply.rows ↔
          IsLatest TrafficRequest.id (answered.updates.drop polled.updates.length) row) ∧
    (reply.gap = true ↔ ∃ number, polled.updates.length < number ∧ answered.Evicted number) ∧
    ∀ events, let world := run advance World.initial events
      world.monitor.journal.length ≤ max limits.capacity 1 ∧
        (world.monitor.journal.IsChain fun older newer ↦ newer.1 = older.1 + 1) ∧
        ∀ entry ∈ world.monitor.journal, world.updates[entry.1 - 1]? = some entry.2 := by
  intro advance reached cursor polled waiting reply answered
  have hreached : Journaled limits reached.monitor reached.updates :=
    journaled_run serializedLength instanceId World.initial (journaled_initial limits) earlier
  have hpolled : Journaled limits polled.monitor polled.updates :=
    journaled_advance serializedLength instanceId reached _ hreached
  have hwaiting : Journaled limits waiting.monitor waiting.updates :=
    journaled_run serializedLength instanceId polled hpolled later
  have hanswered : Journaled limits answered.monitor answered.updates :=
    journaled_advance serializedLength instanceId waiting _ hwaiting
  have hposition : polled.updates.length ≤ answered.updates.length := by
    have hlater : polled.updates.length ≤ waiting.updates.length :=
      updates_run serializedLength limits instanceId later polled
    have hlast : answered.updates = waiting.updates ++ _ := rfl
    rw [hlast, List.length_append]
    omega
  have hcursor : cursor = formatCursor instanceId polled.updates.length := by
    rw [← hpolled.sequence_eq]
    rfl
  have hreply : reply =
      answer instanceId answered.monitor
        (some (formatCursor instanceId polled.updates.length)) := by
    rw [← hcursor]
    rfl
  refine ⟨?_, ?_, ?_⟩
  · intro hgap
    rw [hreply] at hgap ⊢
    rw [hanswered.rows_eq instanceId hposition hgap]
    exact ⟨nodup_latest _ _ _, fun row ↦ mem_latest_reverse _ _ row⟩
  · rw [hreply, hanswered.gap_iff instanceId hposition]
    simp only [hanswered.evicted_iff]
    constructor
    · intro hlost
      exact ⟨polled.updates.length + 1, by omega, by omega, by omega⟩
    · rintro ⟨number, hsince, -, hevicted⟩
      omega
  · intro events world
    have hworld : Journaled limits world.monitor world.updates :=
      journaled_run serializedLength instanceId World.initial (journaled_initial limits) events
    rw [hworld.journal_eq]
    refine ⟨?_, isChain_recent _ _, fun entry hentry ↦ getElem?_of_mem_recent hentry⟩
    rw [length_recent]
    exact min_le_left _ _

end Runs

end Relayna.Traffic

import Relayna.Library.KeyedSum
import Relayna.Library.Transition
import Relayna.Runtime.Metrics

/-!
# The balance of the runtime metrics

What the metrics should show is a count of the events that the callers log. `Tracks` relates the
totals and the rolling window to that log, with the counters stopped at the end of their range;
`Gauged` relates the gauges to the guards that are not finished, as long as the number of arrivals
fits a counter. Every action keeps both, so they hold in every reachable state.

`metrics_balanced` draws the balance of the metrics from them: the gauges, the identities between
the totals, the bounds of the window and the counters of a snapshot.
-/

set_option autoImplicit false
set_option relaxedAutoImplicit false

namespace Relayna.Runtime

open Library.MachineWord Library.RollingWindow Library.KeyedSum Library.Transition

/-! ### What the counters count -/

def Occurrence.counts : Occurrence → Counter → Bool
  | .started, .started => true
  | .started, _ => false
  | .completed _ _, .started => false
  | .completed _ _, .completed => true
  | .completed _ outcome, .succeeded => outcome.success
  | .completed _ outcome, .failed => !outcome.success
  | .completed _ outcome, .rejected => outcome.rejected
  | .completed _ outcome, .unattributed => !outcome.attributed
  | .completed transport _, .httpCompleted => transport = .http
  | .completed transport _, .sseCompleted => transport = .sse
  | .completed transport _, .websocketCompleted => transport = .webSocket

/-- The number of events that a counter counts. -/
def count (events : List Event) (counter : Counter) : ℕ :=
  events.countP fun event ↦ event.occurrence.counts counter

/-- The number of events of a second that a counter counts. -/
def countAt (events : List Event) (second : ℕ) (counter : Counter) : ℕ :=
  events.countP fun event ↦ event.second = second ∧ event.occurrence.counts counter

/-- The number of events of the `window` seconds that end with `elapsed` that a counter counts. -/
def countWithin (events : List Event) (window elapsed : ℕ) (counter : Counter) : ℕ :=
  events.countP fun event ↦
    (elapsed < event.second + window ∧ event.second ≤ elapsed) ∧ event.occurrence.counts counter

/-- Counters that stop at the end of their range. -/
def clamped (counts : Counter → ℕ) : RuntimeCounters :=
  fun counter ↦ min (counts counter) (2 ^ 64 - 1)

/-- Assumes: a number that fits a counter. The counter is the number. -/
theorem clamped_of_lt {counts : Counter → ℕ} {counter : Counter}
    (hlt : counts counter < 2 ^ 64) : clamped counts counter = counts counter :=
  min_eq_left (Nat.le_sub_one_of_lt hlt)

/-- What an occurrence adds to a record of counters. -/
def Occurrence.record : Occurrence → RuntimeCounters → RuntimeCounters
  | .started, counters => incrementField counters .started
  | .completed transport outcome, counters => mergeFields counters (completion transport outcome)

theorem completion_eq (transport : RuntimeTransport) (outcome : RuntimeOutcome)
    (counter : Counter) :
    completion transport outcome counter =
      ((Occurrence.completed transport outcome).counts counter).toNat := by
  cases counter <;> rfl

theorem mergeFields_clamped (counts other : Counter → ℕ) :
    mergeFields (clamped counts) (clamped other) =
      clamped fun counter ↦ counts counter + other counter := by
  ext counter
  show min (min (counts counter) _ + min (other counter) _) _ =
    min (counts counter + other counter) _
  omega

/-- Recording an occurrence in counters that stand for numbers adds one to each number that it
counts for. -/
theorem Occurrence.record_clamped (occurrence : Occurrence) (counts : Counter → ℕ) :
    occurrence.record (clamped counts) =
      clamped fun counter ↦ counts counter + (occurrence.counts counter).toNat := by
  ext counter
  cases occurrence with
  | started =>
    by_cases hcounter : counter = .started
    · subst hcounter
      exact (incrementField_self ..).trans (saturatingAdd_min 64 (counts .started) 1)
    · have hcounts : Occurrence.counts .started counter = false := by
        cases counter <;> first | rfl | exact absurd rfl hcounter
      refine (incrementField_of_ne _ hcounter).trans ?_
      show _ = min (counts counter + (Occurrence.counts .started counter).toNat) _
      rw [hcounts]
      rfl
  | completed transport outcome =>
    refine (saturatingAdd_min 64 (counts counter) _).trans ?_
    rw [completion_eq]
    rfl

theorem count_cons (events : List Event) (event : Event) :
    count (event :: events) =
      fun counter ↦ count events counter + (event.occurrence.counts counter).toNat := by
  ext counter
  unfold count
  rw [List.countP_cons]
  cases event.occurrence.counts counter <;> rfl

theorem countAt_cons_self (events : List Event) (second : ℕ) (occurrence : Occurrence) :
    countAt (⟨second, occurrence⟩ :: events) second =
      fun counter ↦ countAt events second counter + (occurrence.counts counter).toNat := by
  ext counter
  unfold countAt
  rw [List.countP_cons]
  cases hcounts : occurrence.counts counter <;> simp

theorem countAt_cons_of_ne (events : List Event) {second other : ℕ} (hother : other ≠ second)
    (occurrence : Occurrence) :
    countAt (⟨second, occurrence⟩ :: events) other = countAt events other := by
  ext counter
  unfold countAt
  rw [List.countP_cons, if_neg, Nat.add_zero]
  simp [hother.symm]

/-! ### The window and the totals -/

/-- The counters of each second. -/
def series (events : List Event) (second : ℕ) : RuntimeCounters :=
  clamped (countAt events second)

theorem series_cons (events : List Event) (second : ℕ) (occurrence : Occurrence) :
    series (⟨second, occurrence⟩ :: events) =
      Function.update (series events) second (occurrence.record (series events second)) := by
  ext other counter
  by_cases hother : other = second
  · subst hother
    rw [Function.update_self]
    unfold series
    rw [Occurrence.record_clamped, countAt_cons_self]
  · rw [Function.update_of_ne hother]
    unfold series
    rw [countAt_cons_of_ne events hother]

/-- Buckets and totals track a log at a second: the buckets have the counters of the last 900
seconds, and the totals those of the whole log. -/
structure Tracks (buckets : List Bucket) (totals : RuntimeCounters) (second : ℕ)
    (events : List Event) : Prop where
  window : Represents Bucket.second Bucket.counters zeroFields retainSeconds second (series events)
    buckets
  totals_eq : totals = clamped (count events)
  past : ∀ event ∈ events, event.second ≤ second

section Tracks

variable {buckets : List Bucket} {totals : RuntimeCounters} {second : ℕ} {events : List Event}

theorem Tracks.advance (h : Tracks buckets totals second events) {later : ℕ}
    (hlater : second ≤ later) : Tracks buckets totals later events where
  window := h.window.advance hlater
  totals_eq := h.totals_eq
  past := fun event hevent ↦ (h.past event hevent).trans hlater

/-- Assumes: a change of the current bucket that keeps its second and its counters. The log is still
tracked. -/
theorem Tracks.touch (h : Tracks buckets totals second events) {change : Bucket → Bucket}
    (hsecond : ∀ bucket, (change bucket).second = bucket.second)
    (hcounters : ∀ bucket, (change bucket).counters = bucket.counters) :
    Tracks (write Bucket.second retainSeconds second (.fresh second) change buckets) totals second
      events where
  window := by
    have hsame : series events =
        Function.update (series events) second (id (series events second)) :=
      (Function.update_eq_self second (series events)).symm
    rw [hsame]
    exact h.window.written (by decide) rfl rfl id hsecond hcounters
  totals_eq := h.totals_eq
  past := h.past

/-- Assumes: a change of the current bucket that keeps its second and records an occurrence. The log
with that occurrence is tracked. -/
theorem Tracks.record (h : Tracks buckets totals second events) (occurrence : Occurrence)
    {change : Bucket → Bucket} (hsecond : ∀ bucket, (change bucket).second = bucket.second)
    (hcounters : ∀ bucket, (change bucket).counters = occurrence.record bucket.counters) :
    Tracks (write Bucket.second retainSeconds second (.fresh second) change buckets)
      (occurrence.record totals) second (⟨second, occurrence⟩ :: events) where
  window := by
    rw [series_cons]
    exact h.window.written (by decide) rfl rfl occurrence.record hsecond hcounters
  totals_eq := by
    rw [h.totals_eq, Occurrence.record_clamped, count_cons]
  past := by
    intro event hevent
    rcases List.mem_cons.mp hevent with rfl | hevent
    · exact le_rfl
    · exact h.past event hevent

end Tracks

/-- Completing a request records the completion, unless it is finished. -/
theorem tracks_finish {state : State} {callers : Callers}
    (h : Tracks state.buckets state.totals callers.second callers.events) (id : ℕ)
    (request : RuntimeRequest) (outcome : RuntimeOutcome) (instant : ℕ) :
    Tracks (state.finish request outcome callers.second instant).buckets
      (state.finish request outcome callers.second instant).totals callers.second
      (callers.finish id request outcome).events := by
  unfold State.finish Callers.finish
  by_cases hfinished : request.finished
  · rw [if_pos hfinished, if_pos hfinished]
    exact h
  · rw [if_neg hfinished, if_neg hfinished]
    dsimp only [State.bucket]
    exact h.record (.completed request.transport outcome) (fun _ ↦ rfl) fun _ ↦ rfl

/-- Every action keeps the log tracked. -/
theorem tracks_step {world : World}
    (h : Tracks world.state.buckets world.state.totals world.callers.second world.callers.events)
    (action : Action) :
    Tracks (world.step action).state.buckets (world.step action).state.totals
      (world.step action).callers.second (world.step action).callers.events := by
  cases action with
  | advance elapsed =>
    exact h.advance (Nat.div_le_div_right (Nat.le_add_right world.callers.clock elapsed))
  | start transport lag =>
    simp only [World.step, State.step, Callers.step, State.start, State.bucket]
    exact h.record .started (fun _ ↦ rfl) fun _ ↦ rfl
  | setTransport id transport =>
    simp only [World.step, State.step, Callers.step]
    cases world.callers.requests.lookup id with
    | none => exact h
    | some request =>
      dsimp only [State.setTransport]
      split_ifs
      · exact h
      · exact h
  | finish id outcome lag =>
    simp only [World.step, State.step, Callers.step]
    cases world.callers.requests.lookup id with
    | none => exact h
    | some request => exact tracks_finish h id request outcome _
  | drop id lag =>
    simp only [World.step, State.step, Callers.step]
    cases world.callers.requests.lookup id with
    | none => exact h
    | some request => exact tracks_finish h id request _ _
  | recordRecordingFailure destination =>
    simp only [World.step, State.step, Callers.step, State.recordRecordingFailure, State.bucket]
    cases RecordingFailures.forDestination destination with
    | none => exact h
    | some failure =>
      dsimp only
      exact h.touch (fun _ ↦ rfl) fun _ ↦ rfl
  | recordAdmissionDenial reason =>
    simp only [World.step, State.step, Callers.step, State.recordAdmissionDenial, State.bucket]
    exact h.touch (fun _ ↦ rfl) fun _ ↦ rfl
  | recordBodyAdmissionDecision elapsed rejected =>
    simp only [World.step, State.step, Callers.step, State.recordBodyAdmissionDecision,
      State.bucket]
    exact h.touch (fun _ ↦ rfl) fun _ ↦ rfl
  | recordBodyRetention elapsed =>
    simp only [World.step, State.step, Callers.step, State.recordBodyRetention, State.bucket]
    exact h.touch (fun _ ↦ rfl) fun _ ↦ rfl
  | snapshot windowSeconds lag =>
    have hreading : asSecs (world.callers.clock - lag) ≤ world.callers.second :=
      Nat.div_le_div_right (Nat.sub_le world.callers.clock lag)
    exact ⟨h.window.pruned hreading, h.totals_eq, h.past⟩

/-! ### The gauges -/

/-- One for a request that is active under a transport, zero for the others. -/
def activity (transport : RuntimeTransport) (request : RuntimeRequest) : ℕ :=
  if request.finished = false ∧ request.transport = transport then 1 else 0

/-- The number of requests that are not finished and are classified to a transport. -/
def unfinished (requests : AList fun _ : ℕ ↦ RuntimeRequest) (transport : RuntimeTransport) : ℕ :=
  total (fun _ request ↦ activity transport request) requests

/-- The guards have the numbers below `next`. Arrivals are completed or not finished, and the gauges
count those that are not finished as long as the number of arrivals fits a counter. -/
structure Gauged (active : RuntimeActive) (callers : Callers) : Prop where
  fresh : ∀ id ∈ callers.requests, id < callers.next
  balance : count callers.events .started = count callers.events .completed +
    (unfinished callers.requests .http + unfinished callers.requests .sse +
      unfinished callers.requests .webSocket)
  active_eq : count callers.events .started < 2 ^ 64 →
    ∀ transport, active transport = unfinished callers.requests transport

theorem Gauged.unfinished_le {active : RuntimeActive} {callers : Callers}
    (h : Gauged active callers) (transport : RuntimeTransport) :
    unfinished callers.requests transport ≤ count callers.events .started := by
  have hbalance := h.balance
  cases transport <;> omega

/-- What an action does to the gauges does not depend on the buckets that it writes. -/
theorem State.finish_active (state : State) (request : RuntimeRequest) (outcome : RuntimeOutcome)
    (second instant : ℕ) :
    (state.finish request outcome second instant).active =
      if request.finished then state.active
      else decrementField state.active request.transport := by
  unfold State.finish
  split_ifs <;> rfl

section Guards

variable {requests : AList fun _ : ℕ ↦ RuntimeRequest} {id : ℕ} {request : RuntimeRequest}

/-- Overwriting a guard moves its activity. Assumes: a guard of the table. -/
theorem activity_add_unfinished_insert (hlookup : requests.lookup id = some request)
    (replacement : RuntimeRequest) (transport : RuntimeTransport) :
    activity transport request + unfinished (requests.insert id replacement) transport =
      activity transport replacement + unfinished requests transport :=
  measure_add_total_insert (fun _ request ↦ activity transport request) hlookup replacement

/-- Dropping a finished guard leaves the activity as it is. Assumes: a guard of the table. -/
theorem unfinished_erase (hlookup : requests.lookup id = some request)
    (hfinished : request.finished) (transport : RuntimeTransport) :
    unfinished (requests.erase id) transport = unfinished requests transport := by
  have herase := measure_add_total_erase (fun _ request ↦ activity transport request) hlookup
  have hzero : activity transport request = 0 := if_neg (by simp [hfinished])
  rw [hzero, Nat.zero_add] at herase
  exact herase

theorem activity_self (request : RuntimeRequest) (hfinished : request.finished = false) :
    activity request.transport request = 1 :=
  if_pos ⟨hfinished, rfl⟩

theorem activity_of_ne {request : RuntimeRequest} {transport : RuntimeTransport}
    (hne : request.transport ≠ transport) : activity transport request = 0 :=
  if_neg fun h ↦ hne h.2

theorem activity_finish (request : RuntimeRequest) (transport : RuntimeTransport) :
    activity transport request.finish = 0 :=
  if_neg fun h ↦ Bool.noConfusion h.1

/-- A request is active under one transport until it is finished. -/
theorem activity_sum (request : RuntimeRequest) :
    activity .http request + activity .sse request + activity .webSocket request =
      if request.finished then 0 else 1 := by
  unfold activity
  rcases request with ⟨_, _ | _ | _, _ | _⟩ <;> rfl

end Guards

section Gauged

variable {active : RuntimeActive} {callers : Callers} {id : ℕ} {request : RuntimeRequest}

/-- An arrival is active under its transport. -/
theorem Gauged.start (h : Gauged active callers) (transport : RuntimeTransport) (lag : ℕ) :
    Gauged (incrementField active transport) (callers.step (.start transport lag)) := by
  have hnew : callers.next ∉ callers.requests := fun hmem ↦ (h.fresh _ hmem).false
  have hmove : ∀ other, unfinished (callers.step (.start transport lag)).requests other =
      activity other ⟨callers.clock + lag, transport, false⟩ +
        unfinished callers.requests other := fun other ↦
    total_insert_of_notMem (fun _ request ↦ activity other request) hnew _
  have hstarted : count (callers.step (.start transport lag)).events .started =
      count callers.events .started + 1 := congrFun (count_cons _ _) _
  have hcompleted : count (callers.step (.start transport lag)).events .completed =
      count callers.events .completed := congrFun (count_cons _ _) _
  have hbalance := h.balance
  constructor
  · intro other hother
    show other < callers.next + 1
    rcases (AList.mem_insert _).mp hother with rfl | hother
    · exact Nat.lt_succ_self _
    · exact (h.fresh other hother).trans (Nat.lt_succ_self _)
  · have hsum := activity_sum ⟨callers.clock + lag, transport, false⟩
    rw [if_neg Bool.false_ne_true] at hsum
    rw [hstarted, hcompleted, hmove, hmove, hmove]
    omega
  · intro hbelow other
    rw [hstarted] at hbelow
    have hactive := h.active_eq (by omega) other
    rw [hmove]
    by_cases hother : other = transport
    · subst hother
      have hbound := h.unfinished_le other
      have hself := activity_self ⟨callers.clock + lag, other, false⟩ rfl
      dsimp only at hself
      rw [incrementField_self, hactive, saturatingAdd_of_lt (by omega), hself, Nat.add_comm]
    · rw [incrementField_of_ne _ hother, hactive, activity_of_ne (Ne.symm hother), Nat.zero_add]

/-- Overwriting a guard of the table adds no number. -/
theorem Gauged.fresh_insert (h : Gauged active callers)
    (hlookup : callers.requests.lookup id = some request) (replacement : RuntimeRequest) :
    ∀ other ∈ callers.requests.insert id replacement, other < callers.next := by
  intro other hother
  rcases (AList.mem_insert _).mp hother with rfl | hother
  · refine h.fresh other (AList.lookup_isSome.mp ?_)
    rw [hlookup]
    rfl
  · exact h.fresh other hother

/-- A guard that is not finished moves to another transport. Assumes: a guard of the table. -/
theorem Gauged.setTransport (h : Gauged active callers)
    (hlookup : callers.requests.lookup id = some request) (hfinished : request.finished = false)
    {transport : RuntimeTransport} (htransport : request.transport ≠ transport) :
    Gauged (incrementField (decrementField active request.transport) transport)
      { callers with
        requests := callers.requests.insert id { request with transport := transport } } := by
  have hmove := activity_add_unfinished_insert hlookup { request with transport := transport }
  have hbalance := h.balance
  have hbalance' : count callers.events .started = count callers.events .completed +
      (unfinished (callers.requests.insert id { request with transport := transport }) .http +
        unfinished (callers.requests.insert id { request with transport := transport }) .sse +
        unfinished (callers.requests.insert id { request with transport := transport })
          .webSocket) := by
    have hsum := activity_sum request
    have hsum' := activity_sum { request with transport := transport }
    have hhttp := hmove .http
    have hsse := hmove .sse
    have hsocket := hmove .webSocket
    dsimp only at hsum'
    omega
  refine ⟨h.fresh_insert hlookup _, hbalance', fun hbelow other ↦ ?_⟩
  dsimp only at hbelow ⊢
  have hactive := h.active_eq hbelow
  have hother := hmove other
  by_cases hnew : other = transport
  · subst hnew
    have hself := activity_self { request with transport := other } hfinished
    dsimp only at hself
    rw [activity_of_ne htransport, hself] at hother
    have hbound : unfinished callers.requests other + 1 < 2 ^ 64 := by
      cases other <;> omega
    rw [incrementField_self, decrementField_of_ne _ htransport.symm, hactive,
      saturatingAdd_of_lt hbound]
    omega
  · have hmoved : activity other { request with transport := transport } = 0 :=
      activity_of_ne (Ne.symm hnew)
    rw [hmoved] at hother
    rw [incrementField_of_ne _ hnew]
    by_cases hold : other = request.transport
    · subst hold
      rw [activity_self request hfinished] at hother
      rw [decrementField_self, hactive]
      omega
    · rw [activity_of_ne (Ne.symm hold)] at hother
      rw [decrementField_of_ne _ hold, hactive]
      omega

/-- A guard completes, unless it is finished. Assumes: a guard of the table. -/
theorem Gauged.finish (h : Gauged active callers)
    (hlookup : callers.requests.lookup id = some request) (outcome : RuntimeOutcome) :
    Gauged (if request.finished then active else decrementField active request.transport)
      (callers.finish id request outcome) := by
  have hmove := activity_add_unfinished_insert hlookup request.finish
  simp only [activity_finish, Nat.zero_add] at hmove
  have hsum := activity_sum request
  have hhttp := hmove .http
  have hsse := hmove .sse
  have hsocket := hmove .webSocket
  have hbalance := h.balance
  unfold Callers.finish
  by_cases hfinished : request.finished
  · rw [if_pos hfinished, if_pos hfinished]
    rw [if_pos hfinished] at hsum
    refine ⟨h.fresh_insert hlookup _, ?_, fun hbelow other ↦ ?_⟩
    · dsimp only
      omega
    · have hzero : activity other request = 0 := if_neg (by simp [hfinished])
      have hother := hmove other
      rw [hzero, Nat.zero_add] at hother
      exact (h.active_eq hbelow other).trans hother.symm
  · rw [if_neg hfinished] at hsum ⊢
    rw [if_neg hfinished]
    rw [Bool.not_eq_true] at hfinished
    refine ⟨h.fresh_insert hlookup _, ?_, fun hbelow other ↦ ?_⟩
    · rw [count_cons]
      dsimp only [Occurrence.counts, Bool.toNat_true, Bool.toNat_false]
      omega
    · have hother := hmove other
      have hactive := h.active_eq ?_ other
      · by_cases hold : other = request.transport
        · subst hold
          rw [activity_self request hfinished] at hother
          rw [decrementField_self, hactive]
          dsimp only
          omega
        · rw [activity_of_ne (Ne.symm hold), Nat.zero_add] at hother
          rw [decrementField_of_ne _ hold, hactive]
          exact hother.symm
      · rw [count_cons] at hbelow
        exact hbelow

/-- Writing a guard back as it is changes nothing. Assumes: a guard of the table. -/
theorem Gauged.insert_self (h : Gauged active callers)
    (hlookup : callers.requests.lookup id = some request) :
    Gauged active { callers with requests := callers.requests.insert id request } := by
  have hsame : unfinished (callers.requests.insert id request) = unfinished callers.requests := by
    ext transport
    exact Nat.add_left_cancel (activity_add_unfinished_insert hlookup request transport)
  refine ⟨h.fresh_insert hlookup _, ?_, ?_⟩
  · rw [hsame]
    exact h.balance
  · rw [hsame]
    exact h.active_eq

/-- A finished guard is dropped. Assumes: a guard of the table. -/
theorem Gauged.erase (h : Gauged active callers)
    (hlookup : callers.requests.lookup id = some request) (hfinished : request.finished) :
    Gauged active { callers with requests := callers.requests.erase id } := by
  have hsame : unfinished (callers.requests.erase id) = unfinished callers.requests := by
    ext transport
    exact unfinished_erase hlookup hfinished transport
  refine ⟨?_, ?_, ?_⟩
  · intro other hother
    exact h.fresh other (AList.mem_erase.mp hother).2
  · rw [hsame]
    exact h.balance
  · rw [hsame]
    exact h.active_eq

end Gauged

/-- Every action keeps the gauges. -/
theorem gauged_step {world : World} (h : Gauged world.state.active world.callers)
    (action : Action) : Gauged (world.step action).state.active (world.step action).callers := by
  cases action with
  | advance elapsed => exact ⟨h.fresh, h.balance, h.active_eq⟩
  | start transport lag => exact h.start transport lag
  | setTransport id transport =>
    simp only [World.step, State.step, Callers.step]
    cases hlookup : world.callers.requests.lookup id with
    | none => exact h
    | some request =>
      dsimp only [State.setTransport, RuntimeRequest.setTransport]
      by_cases hskip : request.finished ∨ request.transport = transport
      · rw [if_pos hskip, if_pos hskip]
        exact h.insert_self hlookup
      · rw [if_neg hskip, if_neg hskip]
        rw [not_or, Bool.not_eq_true] at hskip
        exact h.setTransport hlookup hskip.1 hskip.2
  | finish id outcome lag =>
    simp only [World.step, State.step, Callers.step]
    cases hlookup : world.callers.requests.lookup id with
    | none => exact h
    | some request =>
      dsimp only
      rw [State.finish_active]
      exact h.finish hlookup outcome
  | drop id lag =>
    simp only [World.step, State.step, Callers.step]
    cases hlookup : world.callers.requests.lookup id with
    | none => exact h
    | some request =>
      dsimp only
      rw [State.finish_active]
      exact (h.finish hlookup {}).erase (AList.lookup_insert _) rfl
  | recordRecordingFailure destination =>
    simp only [World.step, State.step, Callers.step, State.recordRecordingFailure]
    cases RecordingFailures.forDestination destination with
    | none => exact h
    | some failure => exact h
  | recordAdmissionDenial reason => exact h
  | recordBodyAdmissionDecision elapsed rejected => exact h
  | recordBodyRetention elapsed => exact h
  | snapshot windowSeconds lag => exact h

/-! ### Snapshots -/

/-- Adding the buckets of a window adds their counters. Assumes: counters that stand for numbers. -/
theorem foldl_addBucket_counters (events : List Event) (window elapsed : ℕ)
    (buckets : List Bucket) :
    ∀ (snapshot : RuntimeSnapshot) (counts : Counter → ℕ), snapshot.windowSeconds = window →
      snapshot.counters = clamped counts →
      (∀ bucket ∈ buckets, bucket.counters = series events bucket.second) →
      (buckets.foldl
        (fun snapshot bucket ↦
          if elapsed - bucket.second < snapshot.windowSeconds then snapshot.addBucket bucket
          else snapshot)
        snapshot).counters =
      clamped fun counter ↦ counts counter +
        ((buckets.filter fun bucket ↦ elapsed - bucket.second < window).map fun bucket ↦
          countAt events bucket.second counter).sum := by
  induction buckets with
  | nil =>
    intro snapshot counts _ hcounters _
    exact hcounters
  | cons bucket rest ih =>
    intro snapshot counts hwindow hcounters hseries
    have hbucket := hseries bucket List.mem_cons_self
    have hrest := fun other hother ↦ hseries other (List.mem_cons_of_mem bucket hother)
    rw [List.foldl_cons, hwindow, List.filter_cons]
    by_cases hage : elapsed - bucket.second < window
    · have hadded : (snapshot.addBucket bucket).counters =
          clamped fun counter ↦ counts counter + countAt events bucket.second counter := by
        show mergeFields snapshot.counters bucket.counters = _
        rw [hcounters, hbucket]
        exact mergeFields_clamped _ _
      rw [if_pos hage, if_pos (decide_eq_true hage),
        ih (snapshot.addBucket bucket) _ hwindow hadded hrest]
      simp only [List.map_cons, List.sum_cons, Nat.add_assoc]
    · rw [if_neg hage, if_neg (by simpa using hage), ih _ _ hwindow hcounters hrest]

theorem normalizeWindow_bounds (window : ℕ) :
    0 < normalizeWindow window ∧ normalizeWindow window ≤ 900 := by
  unfold normalizeWindow
  split_ifs with hsupported
  · omega
  · decide

/-- A second in which a counter counted something has counters. -/
theorem series_ne_zero {events : List Event} {event : Event} (hevent : event ∈ events)
    {counter : Counter} (hcounts : event.occurrence.counts counter) :
    series events event.second ≠ zeroFields := by
  intro hzero
  have hcount : 0 < countAt events event.second counter := by
    refine List.countP_pos_iff.mpr ⟨event, hevent, ?_⟩
    simp [hcounts]
  have hmin : min (countAt events event.second counter) (2 ^ 64 - 1) = 0 := congrFun hzero counter
  omega

/-- Assumes: a supported window, and a reading of the clock that is not behind the metrics by more
than the window leaves of the retained seconds. The counters of a snapshot are the numbers of the
events that are younger than the window at the reading. -/
theorem Tracks.snapshot_counters {state : State} {second : ℕ} {events : List Event}
    (h : Tracks state.buckets state.totals second events) {window elapsed : ℕ}
    (hwindow : normalizeWindow window = window) (helapsed : second + window ≤ elapsed + 900) :
    (state.snapshot window elapsed).counters = clamped fun counter ↦
      events.countP fun event ↦
        elapsed < event.second + window ∧ event.occurrence.counts counter := by
  obtain ⟨hpositive, hretained⟩ := normalizeWindow_bounds window
  rw [hwindow] at hpositive hretained
  set kept := Library.RollingWindow.prune Bucket.second retainSeconds elapsed state.buckets
    with hkept
  have hsublist : kept.Sublist state.buckets := prune_sublist _ _ _
  have hfold := foldl_addBucket_counters events window elapsed kept
    (state.snapshotState window elapsed).1 zeroFields hwindow rfl
    fun bucket hmem ↦ h.window.content_eq bucket (hsublist.subset hmem)
  refine hfold.trans (congrArg clamped (funext fun counter ↦ ?_))
  show 0 + _ = _
  rw [Nat.zero_add]
  refine sum_countP_within (h.window.increasing.sublist hsublist) hpositive Event.second
    (fun event ↦ event.occurrence.counts counter) fun event hevent hyoung hcounts ↦ ?_
  have hlive : second < event.second + retainSeconds := by
    unfold retainSeconds
    omega
  rcases h.window.held event.second hlive with ⟨bucket, hmem, heq⟩ | hempty
  · refine ⟨bucket, (mem_prune h.window.increasing bucket).mpr ⟨hmem, ?_⟩, heq⟩
    unfold retainSeconds
    omega
  · exact absurd hempty (series_ne_zero hevent hcounts)

/-- Assumes: a supported window and a reading that is not behind the metrics. The counters of a
snapshot are the numbers of the events of the window. -/
theorem Tracks.snapshot_current {state : State} {second : ℕ} {events : List Event}
    (h : Tracks state.buckets state.totals second events) {window elapsed : ℕ}
    (hwindow : normalizeWindow window = window) (helapsed : second ≤ elapsed) :
    (state.snapshot window elapsed).counters = clamped (countWithin events window elapsed) := by
  have hretained := (normalizeWindow_bounds window).2
  rw [hwindow] at hretained
  rw [h.snapshot_counters hwindow (by omega)]
  refine congrArg clamped (funext fun counter ↦ List.countP_congr fun event hevent ↦ ?_)
  have hpast := (h.past event hevent).trans helapsed
  simp [hpast]

/-! ### Identities between the counts -/

section Counts

variable (events : List Event)

theorem count_succeeded_add_failed :
    count events .succeeded + count events .failed = count events .completed := by
  unfold count
  rw [countP_add_countP_disjoint]
  · refine List.countP_congr fun event _ ↦ ?_
    rcases event with ⟨_, _ | ⟨transport, outcome⟩⟩ <;> simp [Occurrence.counts]
  · rintro ⟨_, _ | ⟨transport, outcome⟩⟩ <;> simp [Occurrence.counts]

theorem count_transports :
    count events .httpCompleted + count events .sseCompleted + count events .websocketCompleted =
      count events .completed := by
  unfold count
  rw [countP_add_countP_disjoint, countP_add_countP_disjoint]
  · refine List.countP_congr fun event _ ↦ ?_
    rcases event with ⟨_, _ | ⟨_ | _ | _, outcome⟩⟩ <;> simp [Occurrence.counts]
  · rintro ⟨_, _ | ⟨_ | _ | _, outcome⟩⟩ <;> simp [Occurrence.counts]
  · rintro ⟨_, _ | ⟨_ | _ | _, outcome⟩⟩ <;> simp [Occurrence.counts]

theorem countWithin_le (window elapsed : ℕ) (counter : Counter) :
    countWithin events window elapsed counter ≤ count events counter := by
  refine List.countP_mono_left fun event _ hcounted ↦ ?_
  exact (of_decide_eq_true hcounted).2

/-- Every other counter counts completions. -/
theorem count_le_completed {counter : Counter} (hcounter : counter ≠ .started) :
    count events counter ≤ count events .completed := by
  refine List.countP_mono_left fun event _ hcounts ↦ ?_
  rcases event with ⟨_, _ | ⟨transport, outcome⟩⟩
  · cases counter <;> first | exact hcounts | exact absurd rfl hcounter
  · rfl

end Counts

/-- No counter is ahead of the arrivals. -/
theorem Gauged.count_le {active : RuntimeActive} {callers : Callers} (h : Gauged active callers)
    (counter : Counter) : count callers.events counter ≤ count callers.events .started := by
  by_cases hcounter : counter = .started
  · rw [hcounter]
  · have hcompleted := count_le_completed callers.events hcounter
    have hbalance := h.balance
    omega

/-! ### Every reachable state -/

/-- The metrics track the log of their callers, and the gauges their guards. -/
structure World.Sound (world : World) : Prop where
  tracks : Tracks world.state.buckets world.state.totals world.callers.second world.callers.events
  gauged : Gauged world.state.active world.callers

theorem sound_init : World.init.Sound where
  tracks :=
    { window := represents_nil _ fun _ ↦ rfl
      totals_eq := rfl
      past := fun _ hevent ↦ absurd hevent List.not_mem_nil }
  gauged :=
    { fresh := fun _ hmem ↦ absurd hmem (AList.notMem_empty _)
      balance := rfl
      active_eq := fun _ _ ↦ rfl }

/-- Every interleaving keeps the metrics sound. -/
theorem sound_run (actions : List Action) : (run World.step World.init actions).Sound :=
  run_invariant
    (fun _ action hsound ↦
      ⟨tracks_step hsound.tracks action, gauged_step hsound.gauged action⟩)
    actions World.init sound_init

/-- The metrics are in balance: the gauges count the requests that are not finished, the totals
count the events and add up, no subtraction stops at zero, the buckets are bounded, and the snapshot
of each supported window, at the second of the metrics or later, counts the events of the window. A
snapshot whose clock was read before the metrics moved on counts the events since the start of its
window, as long as the seconds of the window are still retained. -/
structure World.Balanced (world : World) : Prop where
  gauges : ∀ transport,
    world.state.active transport = unfinished world.callers.requests transport
  totals : ∀ counter, world.state.totals counter = count world.callers.events counter
  arrivals : world.state.totals .started = world.state.totals .completed +
    (world.state.active .http + world.state.active .sse + world.state.active .webSocket)
  outcomes : world.state.totals .succeeded + world.state.totals .failed =
    world.state.totals .completed
  transports : world.state.totals .httpCompleted + world.state.totals .sseCompleted +
    world.state.totals .websocketCompleted = world.state.totals .completed
  gauge_pos : ∀ id request, world.callers.requests.lookup id = some request →
    request.finished = false → 0 < world.state.active request.transport
  bucket_past : ∀ bucket ∈ world.state.buckets, bucket.second ≤ world.callers.second
  length_le : world.state.buckets.length ≤ 900
  increasing : world.state.buckets.Pairwise fun earlier later ↦ earlier.second < later.second
  snapshots : ∀ window ∈ [60, 300, 900], ∀ elapsed, world.callers.second ≤ elapsed →
    ∀ counter, (world.state.snapshot window elapsed).counters counter =
      countWithin world.callers.events window elapsed counter
  overtaken : ∀ window ∈ [60, 300, 900], ∀ elapsed, world.callers.second + window ≤ elapsed + 900 →
    ∀ counter, (world.state.snapshot window elapsed).counters counter =
      world.callers.events.countP fun event ↦
        elapsed < event.second + window ∧ event.occurrence.counts counter

/-- In every reachable state with fewer than 2^64 arrivals the metrics are in balance. -/
theorem metrics_balanced (actions : List Action)
    (hbelow : count (run World.step World.init actions).callers.events .started < 2 ^ 64) :
    (run World.step World.init actions).Balanced := by
  obtain ⟨htracks, hgauged⟩ := sound_run actions
  set world := run World.step World.init actions with hworld
  have hle := hgauged.count_le
  have htotals : ∀ counter, world.state.totals counter = count world.callers.events counter := by
    intro counter
    rw [htracks.totals_eq]
    exact clamped_of_lt ((hle counter).trans_lt hbelow)
  have hgauges := hgauged.active_eq hbelow
  have hsupported : ∀ window ∈ [60, 300, 900], normalizeWindow window = window := by
    intro window hwindow
    simp only [List.mem_cons, List.not_mem_nil, or_false] at hwindow
    rcases hwindow with rfl | rfl | rfl <;> rfl
  refine
    { gauges := hgauges
      totals := htotals
      arrivals := ?_
      outcomes := ?_
      transports := ?_
      gauge_pos := ?_
      bucket_past := htracks.window.past
      length_le := htracks.window.length_le
      increasing := htracks.window.increasing
      snapshots := ?_
      overtaken := ?_ }
  · rw [htotals, htotals, hgauges, hgauges, hgauges]
    exact hgauged.balance
  · rw [htotals, htotals, htotals]
    exact count_succeeded_add_failed _
  · rw [htotals, htotals, htotals, htotals]
    exact count_transports _
  · intro id request hlookup hfinished
    rw [hgauges]
    have hone := measure_le_total (fun _ request' ↦ activity request.transport request')
      (fun _ _ _ ↦ Nat.zero_le _) hlookup
    rw [activity_self request hfinished] at hone
    exact hone
  · intro window hwindow elapsed helapsed counter
    rw [htracks.snapshot_current (hsupported window hwindow) helapsed]
    exact clamped_of_lt (((countWithin_le ..).trans (hle counter)).trans_lt hbelow)
  · intro window hwindow elapsed helapsed counter
    rw [htracks.snapshot_counters (hsupported window hwindow) helapsed]
    refine clamped_of_lt (LE.le.trans_lt ?_ hbelow)
    refine (List.countP_mono_left fun event _ hcounted ↦ ?_).trans (hle counter)
    exact (of_decide_eq_true hcounted).2

/-- A request becomes a stream and succeeds after a minute, while a second one is dropped. -/
def overlappingRequests : List Action :=
  [.start .http 0, .setTransport 0 .sse, .advance 61000000000, .start .webSocket 5,
    .finish 0 { success := true, attributed := true, ttftMs := some 75 } 9, .snapshot 60 2,
    .drop 1 0, .drop 0 0]

theorem metrics_balanced_overlapping :
    count (run World.step World.init overlappingRequests).callers.events .started < 2 ^ 64 ∧
      (run World.step World.init overlappingRequests).Balanced :=
  ⟨by decide, metrics_balanced overlappingRequests (by decide)⟩

end Relayna.Runtime

import Mathlib.Algebra.BigOperators.Group.Multiset.Basic
import Mathlib.Data.Multiset.Filter
import Relayna.Library.Histogram
import Relayna.Library.Transition
import Relayna.Runtime.Balance

/-!
# The latency samples of an instance

What the histograms of an instance should show is decided by the samples that its operations record.
`Callers.samples` lists those of an action, and `Recording` keeps the log of a run. `histogramOf` is
the histogram of a multiset of samples, with counts that stop at the end of their range.

`Sampled` says that the buckets of the metrics hold the histograms of the log, second by second;
every action keeps it. `Sampled.snapshot_latency` draws from it that a snapshot shows the histograms
of the samples of its window.
-/

set_option autoImplicit false
set_option relaxedAutoImplicit false

namespace Relayna.Runtime

open Library.MachineWord Library.RollingWindow Library.Transition

/-! ### Histograms of samples -/

/-- The histogram of a multiset of samples, without quantiles. -/
def histogramOf (samples : Multiset ℕ) : HistogramSnapshot where
  upperBoundsUs := histogramBoundsUs
  bucketCounts := fun bucket ↦
    min (samples.countP fun value ↦ bucketIndex value = bucket) (2 ^ 64 - 1)
  sampleCount := min samples.card (2 ^ 64 - 1)
  sumUs := min samples.sum (2 ^ 64 - 1)
  p50 := none
  p95 := none
  p99 := none

theorem histogramOf_zero : histogramOf 0 = .empty := by
  unfold histogramOf HistogramSnapshot.empty
  simp

theorem histogramOf_observeUs (samples : Multiset ℕ) (value : ℕ) :
    (histogramOf samples).observeUs value = histogramOf (value ::ₘ samples) := by
  have hcounts : Function.update (histogramOf samples).bucketCounts (bucketIndex value)
      (saturatingAdd 64 ((histogramOf samples).bucketCounts (bucketIndex value)) 1) =
        (histogramOf (value ::ₘ samples)).bucketCounts := by
    ext bucket
    dsimp only [histogramOf]
    rw [Multiset.countP_cons]
    by_cases hbucket : bucket = bucketIndex value
    · subst hbucket
      rw [Function.update_self, saturatingAdd_min, if_pos rfl]
    · rw [Function.update_of_ne hbucket, if_neg (Ne.symm hbucket), Nat.add_zero]
  unfold HistogramSnapshot.observeUs
  rw [hcounts]
  dsimp only [histogramOf]
  rw [saturatingAdd_min, saturatingAdd_min, Multiset.card_cons, Multiset.sum_cons,
    Nat.add_comm value]

theorem saturatingAdd_clamped (left right : ℕ) :
    saturatingAdd 64 (min left (2 ^ 64 - 1)) (min right (2 ^ 64 - 1)) =
      min (left + right) (2 ^ 64 - 1) := by
  unfold saturatingAdd
  omega

theorem histogramOf_merge (samples other : Multiset ℕ) :
    (histogramOf samples).merge (histogramOf other) = histogramOf (samples + other) := by
  unfold HistogramSnapshot.merge
  dsimp only [histogramOf]
  simp only [saturatingAdd_clamped, Multiset.countP_add, Multiset.card_add, Multiset.sum_add]

/-! ### The log of samples -/

/-- A sample of a series, recorded in a second. -/
structure Sample where
  second : ℕ
  series : LatencySeries
  value : ℕ
  deriving DecidableEq

/-- The values of the samples of a series. -/
def valuesOf (log : Multiset Sample) (series : LatencySeries) : Multiset ℕ :=
  (log.filter fun sample ↦ sample.series = series).map Sample.value

/-- The histograms of a log. -/
def latencyOf (log : Multiset Sample) : RuntimeLatency :=
  fun series ↦ histogramOf (valuesOf log series)

/-- The histograms of the samples of each second. -/
def latencyAt (log : Multiset Sample) (second : ℕ) : RuntimeLatency :=
  latencyOf (log.filter fun sample ↦ sample.second = second)

theorem latencyOf_cons (log : Multiset Sample) (sample : Sample) :
    latencyOf (sample ::ₘ log) = (latencyOf log).observeUs sample.series sample.value := by
  ext series
  unfold RuntimeLatency.observeUs latencyOf valuesOf
  by_cases hseries : series = sample.series
  · subst hseries
    rw [Function.update_self, histogramOf_observeUs, Multiset.filter_cons_of_pos,
      Multiset.map_cons]
    rfl
  · rw [Function.update_of_ne hseries, Multiset.filter_cons_of_neg]
    exact Ne.symm hseries

theorem latencyAt_cons (log : Multiset Sample) (sample : Sample) :
    latencyAt (sample ::ₘ log) = Function.update (latencyAt log) sample.second
      ((latencyAt log sample.second).observeUs sample.series sample.value) := by
  ext second series
  unfold latencyAt
  by_cases hsecond : second = sample.second
  · subst hsecond
    rw [Function.update_self, Multiset.filter_cons_of_pos, latencyOf_cons]
    rfl
  · rw [Function.update_of_ne hsecond, Multiset.filter_cons_of_neg]
    exact Ne.symm hsecond

/-- Observe several samples, each in its series. -/
def RuntimeLatency.observeAll (latency : RuntimeLatency) (samples : List (LatencySeries × ℕ)) :
    RuntimeLatency :=
  samples.foldl (fun latency sample ↦ latency.observeUs sample.1 sample.2) latency

/-- Log several samples in a second. -/
def logAll (log : Multiset Sample) (second : ℕ) (samples : List (LatencySeries × ℕ)) :
    Multiset Sample :=
  samples.foldl (fun log sample ↦ ⟨second, sample.1, sample.2⟩ ::ₘ log) log

theorem latencyAt_logAll (log : Multiset Sample) (second : ℕ)
    (samples : List (LatencySeries × ℕ)) :
    latencyAt (logAll log second samples) = Function.update (latencyAt log) second
      ((latencyAt log second).observeAll samples) := by
  induction samples generalizing log with
  | nil => exact (Function.update_eq_self second (latencyAt log)).symm
  | cons sample rest ih =>
    refine (ih (⟨second, sample.1, sample.2⟩ ::ₘ log)).trans ?_
    rw [latencyAt_cons, Function.update_idem, Function.update_self]
    rfl

theorem mem_logAll {log : Multiset Sample} {second : ℕ} {samples : List (LatencySeries × ℕ)}
    {sample : Sample} (hsample : sample ∈ logAll log second samples) :
    sample ∈ log ∨ sample.second = second := by
  induction samples generalizing log with
  | nil => exact Or.inl hsample
  | cons first rest ih =>
    rcases ih hsample with hlog | hsecond
    · rcases Multiset.mem_cons.mp hlog with rfl | hlog
      · exact Or.inr rfl
      · exact Or.inl hlog
    · exact Or.inr hsecond

/-! ### The samples of an action -/

/-- The sample of a measurement in milliseconds, if there is one. -/
def sampleMs (series : LatencySeries) : Option ℕ → List (LatencySeries × ℕ)
  | some value => [(series, saturatingMul 64 value 1000)]
  | none => []

def completionSamples (transport : RuntimeTransport) (outcome : RuntimeOutcome)
    (durationUs : ℕ) : List (LatencySeries × ℕ) :=
  if transport ≠ .webSocket then
    (.httpDuration, durationUs) ::
      ((if outcome.success then [(.httpSuccessDuration, durationUs)] else []) ++
        sampleMs .upstreamDuration outcome.upstreamDurationMs ++ sampleMs .ttfb outcome.ttfbMs ++
        if transport = .sse then sampleMs .ttft outcome.ttftMs else [])
  else
    sampleMs .websocketHandshake outcome.websocketHandshakeMs ++
      sampleMs .websocketSession outcome.websocketSessionMs

/-- The samples of a body-admission decision. -/
def decisionSamples (rejected : Bool) (elapsedUs : ℕ) : List (LatencySeries × ℕ) :=
  (.admissionDecision, elapsedUs) ::
    if rejected then [(.admissionRejection, elapsedUs)] else []

/-- The samples of a request that completes, unless it is finished. -/
def RuntimeRequest.samples (request : RuntimeRequest) (outcome : RuntimeOutcome) (instant : ℕ) :
    List (LatencySeries × ℕ) :=
  if request.finished then []
  else completionSamples request.transport outcome (durationUs (instant - request.started))

/-- The samples that an action records. -/
def Callers.samples (callers : Callers) : Action → List (LatencySeries × ℕ)
  | .finish id outcome lag =>
    match callers.requests.lookup id with
    | none => []
    | some request => request.samples outcome (callers.clock + lag)
  | .drop id lag =>
    match callers.requests.lookup id with
    | none => []
    | some request => request.samples {} (callers.clock + lag)
  | .recordBodyAdmissionDecision elapsed rejected => decisionSamples rejected (durationUs elapsed)
  | .recordBodyRetention elapsed => [(.bodyRetention, durationUs elapsed)]
  | _ => []

theorem observeMs_eq (latency : RuntimeLatency) (series : LatencySeries) (value : Option ℕ) :
    latency.observeMs series value = latency.observeAll (sampleMs series value) := by
  cases value with
  | some value => rfl
  | none => exact Function.update_eq_self series latency

theorem observeAll_append (latency : RuntimeLatency) (first second : List (LatencySeries × ℕ)) :
    latency.observeAll (first ++ second) = (latency.observeAll first).observeAll second :=
  List.foldl_append

theorem observeAll_cons (latency : RuntimeLatency) (sample : LatencySeries × ℕ)
    (samples : List (LatencySeries × ℕ)) :
    latency.observeAll (sample :: samples) =
      (latency.observeUs sample.1 sample.2).observeAll samples :=
  rfl

theorem complete_eq (latency : RuntimeLatency) (transport : RuntimeTransport)
    (outcome : RuntimeOutcome) (durationUs : ℕ) :
    latency.complete transport outcome durationUs =
      latency.observeAll (completionSamples transport outcome durationUs) := by
  unfold RuntimeLatency.complete completionSamples
  by_cases hsocket : transport ≠ .webSocket
  · rw [if_pos hsocket, if_pos hsocket, observeAll_cons, observeAll_append, observeAll_append,
      observeAll_append, ← observeMs_eq, ← observeMs_eq]
    dsimp only
    by_cases hsse : transport = .sse
    · rw [if_pos hsse, if_pos hsse, ← observeMs_eq]
      cases outcome.success <;> rfl
    · rw [if_neg hsse, if_neg hsse]
      cases outcome.success <;> rfl
  · rw [if_neg hsocket, if_neg hsocket, observeAll_append, ← observeMs_eq, ← observeMs_eq]

theorem recordDecision_eq (latency : RuntimeLatency) (rejected : Bool) (elapsedUs : ℕ) :
    latency.recordDecision rejected elapsedUs =
      latency.observeAll (decisionSamples rejected elapsedUs) := by
  cases rejected <;> rfl

/-! ### Runs with their log -/

/-- The metrics with their callers, and the samples that were recorded. -/
structure Recording where
  world : World
  samples : Multiset Sample

/-- New metrics. -/
def Recording.init : Recording :=
  ⟨.init, 0⟩

/-- An action, and the samples that it records in its second. -/
def Recording.step (recording : Recording) (action : Action) : Recording :=
  ⟨recording.world.step action, logAll recording.samples recording.world.callers.second
    (recording.world.callers.samples action)⟩

/-- The buckets have the histograms of the log, at a second. -/
structure Sampled (buckets : List Bucket) (second : ℕ) (log : Multiset Sample) : Prop where
  window : Represents Bucket.second Bucket.latency .empty retainSeconds second (latencyAt log)
    buckets
  past : ∀ sample ∈ log, sample.second ≤ second

section Sampled

variable {buckets : List Bucket} {second : ℕ} {log : Multiset Sample}

theorem Sampled.advance (h : Sampled buckets second log) {later : ℕ} (hlater : second ≤ later) :
    Sampled buckets later log where
  window := h.window.advance hlater
  past := fun sample hsample ↦ (h.past sample hsample).trans hlater

theorem Sampled.prune (h : Sampled buckets second log) {reading : ℕ} (hreading : reading ≤ second) :
    Sampled (Library.RollingWindow.prune Bucket.second retainSeconds reading buckets)
      second log where
  window := h.window.pruned hreading
  past := h.past

/-- Assumes: a change of the current bucket that keeps its second and observes samples. The log with
these samples is held. -/
theorem Sampled.record (h : Sampled buckets second log) {samples : List (LatencySeries × ℕ)}
    {change : Bucket → Bucket} (hsecond : ∀ bucket, (change bucket).second = bucket.second)
    (hlatency : ∀ bucket, (change bucket).latency = bucket.latency.observeAll samples) :
    Sampled (write Bucket.second retainSeconds second (.fresh second) change buckets) second
      (logAll log second samples) where
  window := by
    rw [latencyAt_logAll]
    exact h.window.written (by decide) rfl rfl
      (fun latency ↦ RuntimeLatency.observeAll latency samples) hsecond hlatency
  past := by
    intro sample hsample
    rcases mem_logAll hsample with hlog | hnow
    · exact h.past sample hlog
    · exact hnow.le

end Sampled

/-- Completing a request records its samples, unless it is finished. -/
theorem sampled_finish {state : State} {second : ℕ} {log : Multiset Sample}
    (h : Sampled state.buckets second log) (request : RuntimeRequest) (outcome : RuntimeOutcome)
    (instant : ℕ) :
    Sampled (state.finish request outcome second instant).buckets second
      (logAll log second (request.samples outcome instant)) := by
  unfold State.finish RuntimeRequest.samples
  by_cases hfinished : request.finished
  · rw [if_pos hfinished, if_pos hfinished]
    exact h
  · rw [if_neg hfinished, if_neg hfinished]
    dsimp only [State.bucket]
    exact h.record (fun _ ↦ rfl) fun bucket ↦ complete_eq bucket.latency _ _ _

/-- Every action keeps the histograms of the log. -/
theorem sampled_step {recording : Recording}
    (h : Sampled recording.world.state.buckets recording.world.callers.second recording.samples)
    (action : Action) :
    Sampled (recording.step action).world.state.buckets
      (recording.step action).world.callers.second (recording.step action).samples := by
  obtain ⟨⟨state, callers⟩, log⟩ := recording
  cases action with
  | advance elapsed =>
    exact h.advance (Nat.div_le_div_right (Nat.le_add_right callers.clock elapsed))
  | start transport lag =>
    simp only [Recording.step, World.step, State.step, Callers.step, Callers.samples, State.start,
      State.bucket]
    exact h.record (fun _ ↦ rfl) fun _ ↦ rfl
  | setTransport id transport =>
    simp only [Recording.step, World.step, State.step, Callers.step, Callers.samples]
    cases callers.requests.lookup id with
    | none => exact h
    | some request =>
      dsimp only [State.setTransport]
      split_ifs
      · exact h
      · exact h
  | finish id outcome lag =>
    simp only [Recording.step, World.step, State.step, Callers.step, Callers.samples]
    cases callers.requests.lookup id with
    | none => exact h
    | some request => exact sampled_finish h request outcome _
  | drop id lag =>
    simp only [Recording.step, World.step, State.step, Callers.step, Callers.samples]
    cases callers.requests.lookup id with
    | none => exact h
    | some request => exact sampled_finish h request _ _
  | recordRecordingFailure destination =>
    simp only [Recording.step, World.step, State.step, Callers.step, Callers.samples,
      State.recordRecordingFailure, State.bucket]
    cases RecordingFailures.forDestination destination with
    | none => exact h
    | some failure =>
      dsimp only
      exact h.record (fun _ ↦ rfl) fun _ ↦ rfl
  | recordAdmissionDenial reason =>
    simp only [Recording.step, World.step, State.step, Callers.step, Callers.samples,
      State.recordAdmissionDenial, State.bucket]
    exact h.record (fun _ ↦ rfl) fun _ ↦ rfl
  | recordBodyAdmissionDecision elapsed rejected =>
    simp only [Recording.step, World.step, State.step, Callers.step, Callers.samples,
      State.recordBodyAdmissionDecision, State.bucket]
    exact h.record (fun _ ↦ rfl) fun bucket ↦ recordDecision_eq bucket.latency _ _
  | recordBodyRetention elapsed =>
    simp only [Recording.step, World.step, State.step, Callers.step, Callers.samples,
      State.recordBodyRetention, State.bucket]
    exact h.record (fun _ ↦ rfl) fun _ ↦ rfl
  | snapshot windowSeconds lag =>
    have hreading : asSecs (callers.clock - lag) ≤ callers.second :=
      Nat.div_le_div_right (Nat.sub_le callers.clock lag)
    exact h.prune hreading

/-- The buckets of a recording have the histograms of its log. -/
def Recording.Faithful (recording : Recording) : Prop :=
  Sampled recording.world.state.buckets recording.world.callers.second recording.samples

/-- Every run keeps the histograms of its log. -/
theorem faithful_run (actions : List Action) : (run Recording.step .init actions).Faithful := by
  have hstep : ∀ recording action, Recording.Faithful recording →
      (recording.step action).Faithful := fun _ action hfaithful ↦ sampled_step hfaithful action
  refine run_invariant hstep actions Recording.init ?_
  refine ⟨represents_nil _ fun second ↦ ?_, fun sample hsample ↦ ?_⟩
  · ext series
    exact histogramOf_zero
  · exact absurd hsample (Multiset.notMem_zero sample)

/-! ### Snapshots -/

/-- The samples that are younger than a window at a reading of the clock. -/
def samplesWithin (log : Multiset Sample) (window elapsed : ℕ) : Multiset Sample :=
  log.filter fun sample ↦ elapsed < sample.second + window

theorem latencyOf_add (log other : Multiset Sample) :
    (latencyOf log).merge (latencyOf other) = latencyOf (log + other) := by
  ext series
  unfold RuntimeLatency.merge latencyOf valuesOf
  rw [histogramOf_merge, Multiset.filter_add, Multiset.map_add]

/-- Adding the buckets of a window merges their histograms. Assumes: histograms of logs. -/
theorem foldl_addBucket_latency (log : Multiset Sample) (window elapsed : ℕ)
    (buckets : List Bucket) :
    ∀ (snapshot : RuntimeSnapshot) (held : Multiset Sample), snapshot.windowSeconds = window →
      snapshot.latency = latencyOf held →
      (∀ bucket ∈ buckets, bucket.latency = latencyAt log bucket.second) →
      (buckets.foldl
        (fun snapshot bucket ↦
          if elapsed - bucket.second < snapshot.windowSeconds then snapshot.addBucket bucket
          else snapshot)
        snapshot).latency =
      latencyOf (held +
        ((buckets.filter fun bucket ↦ elapsed - bucket.second < window).map fun bucket ↦
          log.filter fun sample ↦ sample.second = bucket.second).sum) := by
  induction buckets with
  | nil =>
    intro snapshot held _ hlatency _
    rw [List.filter_nil, List.map_nil, List.sum_nil, add_zero]
    exact hlatency
  | cons bucket rest ih =>
    intro snapshot held hwindow hlatency hheld
    have hbucket := hheld bucket List.mem_cons_self
    have hrest := fun other hother ↦ hheld other (List.mem_cons_of_mem bucket hother)
    rw [List.foldl_cons, hwindow, List.filter_cons]
    by_cases hage : elapsed - bucket.second < window
    · have hadded : (snapshot.addBucket bucket).latency =
          latencyOf (held + log.filter fun sample ↦ sample.second = bucket.second) := by
        show snapshot.latency.merge bucket.latency = _
        rw [hlatency, hbucket]
        exact latencyOf_add _ _
      rw [if_pos hage, if_pos (decide_eq_true hage),
        ih (snapshot.addBucket bucket) _ hwindow hadded hrest, List.map_cons, List.sum_cons,
        add_assoc]
    · rw [if_neg hage, if_neg (by simpa using hage), ih _ _ hwindow hlatency hrest]

/-- A second in which a sample was recorded has a histogram. -/
theorem latencyAt_ne_empty {log : Multiset Sample} {sample : Sample} (hsample : sample ∈ log) :
    latencyAt log sample.second ≠ .empty := by
  intro hempty
  have hcard : min (valuesOf (log.filter fun other ↦ other.second = sample.second)
      sample.series).card (2 ^ 64 - 1) = 0 :=
    congrArg HistogramSnapshot.sampleCount (congrFun hempty sample.series)
  have hmem : sample.value ∈ valuesOf (log.filter fun other ↦ other.second = sample.second)
      sample.series := by
    refine Multiset.mem_map_of_mem _ ?_
    simp [hsample]
  have hpos := Multiset.card_pos_iff_exists_mem.mpr ⟨_, hmem⟩
  omega

/-- Assumes: a reading that is not behind the metrics. A snapshot shows the histograms of the
samples of its window, with their quantiles. -/
theorem Sampled.snapshot_latency {state : State} {second : ℕ} {log : Multiset Sample}
    (h : Sampled state.buckets second log) (window : ℕ) {elapsed : ℕ}
    (helapsed : second ≤ elapsed) :
    (state.snapshot window elapsed).latency =
      (latencyOf (samplesWithin log (normalizeWindow window) elapsed)).refreshQuantiles := by
  obtain ⟨hpositive, hretained⟩ := normalizeWindow_bounds window
  set kept := Library.RollingWindow.prune Bucket.second retainSeconds elapsed state.buckets
    with hkept
  have hsublist : kept.Sublist state.buckets := prune_sublist _ _ _
  have hempty : RuntimeLatency.empty = latencyOf 0 := by
    ext series
    exact histogramOf_zero.symm
  have hfold := foldl_addBucket_latency log (normalizeWindow window) elapsed kept
    (state.snapshotState window elapsed).1 0 rfl hempty
    fun bucket hmem ↦ h.window.content_eq bucket (hsublist.subset hmem)
  refine congrArg RuntimeLatency.refreshQuantiles (hfold.trans (congrArg latencyOf ?_))
  rw [zero_add]
  refine sum_filter_within (h.window.increasing.sublist hsublist) hpositive Sample.second
    fun sample hsample hyoung ↦ ?_
  have hlive : second < sample.second + retainSeconds := by
    unfold retainSeconds
    omega
  rcases h.window.held sample.second hlive with ⟨bucket, hmem, heq⟩ | hnone
  · refine ⟨bucket, (mem_prune h.window.increasing bucket).mpr ⟨hmem, ?_⟩, heq⟩
    unfold retainSeconds
    omega
  · exact absurd hnone (latencyAt_ne_empty hsample)

end Relayna.Runtime

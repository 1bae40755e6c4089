import Mathlib.Algebra.Order.Floor.Div
import Relayna.Runtime.Samples

/-!
# Percentiles of a cluster

`merge_runtime_snapshots` of `crates/gateway-telemetry/src/runtime.rs` merges the snapshots of
several instances: it skips those of another schema, window or histogram layout, adds up the rest
and recomputes the quantiles from the merged counts.

`IsPercentile` says what a quantile should be, by the samples alone. `quantile_histogramOf` shows
that the rank search finds it, and `cluster_percentiles` that the merged quantiles are those of all
samples together, whatever instances recorded them in whatever seconds.
-/

set_option autoImplicit false
set_option relaxedAutoImplicit false

namespace Relayna.Runtime

open Library.MachineWord Library.Histogram Library.Transition

/-! ### Merging snapshots -/

def HistogramSnapshot.valid (histogram : HistogramSnapshot) : Bool :=
  histogram.upperBoundsUs = histogramBoundsUs ∧
    (List.ofFn histogram.bucketCounts).foldlM (checkedAdd 64) 0 = some histogram.sampleCount

def RuntimeLatency.histograms (latency : RuntimeLatency) : List HistogramSnapshot :=
  [latency .httpDuration, latency .httpSuccessDuration, latency .upstreamDuration, latency .ttfb,
    latency .ttft, latency .websocketHandshake, latency .websocketSession,
    latency .admissionDecision, latency .admissionRejection, latency .bodyRetention]

/-- Merge the snapshot of an instance, or count it as incompatible. -/
def RuntimeSnapshot.addInstance (merged snapshot : RuntimeSnapshot) : RuntimeSnapshot :=
  if snapshot.schemaVersion ≠ 1 ∨ snapshot.windowSeconds ≠ merged.windowSeconds ∨
      ¬snapshot.latency.histograms.all HistogramSnapshot.valid then
    { merged with
      incompatibleInstances :=
        saturatingAdd 64 merged.incompatibleInstances (max snapshot.instanceCount 1) }
  else
    { merged with
      observedSeconds :=
        if merged.instanceCount = 0 then snapshot.observedSeconds
        else min merged.observedSeconds snapshot.observedSeconds
      instanceCount := saturatingAdd 64 merged.instanceCount snapshot.instanceCount
      incompatibleInstances :=
        saturatingAdd 64 merged.incompatibleInstances snapshot.incompatibleInstances
      counters := mergeFields merged.counters snapshot.counters
      totals := mergeFields merged.totals snapshot.totals
      active := mergeFields merged.active snapshot.active
      admissionDenials := mergeFields merged.admissionDenials snapshot.admissionDenials
      recordingFailures := mergeFields merged.recordingFailures snapshot.recordingFailures
      recordingFailuresTotal :=
        mergeFields merged.recordingFailuresTotal snapshot.recordingFailuresTotal
      latency := merged.latency.merge snapshot.latency }

def mergeRuntimeSnapshots (snapshots : List RuntimeSnapshot) : RuntimeSnapshot :=
  let merged := snapshots.foldl RuntimeSnapshot.addInstance
    (emptySnapshot ((snapshots.head?.map RuntimeSnapshot.windowSeconds).getD 60))
  { merged with latency := merged.latency.refreshQuantiles }

/-! ### Percentiles -/

/-- The quantiles of a histogram. -/
inductive Percentile
  | p50
  | p95
  | p99

/-- The part of the samples below a percentile, in percent. -/
def Percentile.percent : Percentile → ℕ
  | .p50 => 50
  | .p95 => 95
  | .p99 => 99

def HistogramSnapshot.report (histogram : HistogramSnapshot) : Percentile → Option ℕ
  | .p50 => histogram.p50
  | .p95 => histogram.p95
  | .p99 => histogram.p99

/-- The rank of a percentile: the least number of samples that are the given part of all. -/
def rankOf (percentile : Percentile) (samples : Multiset ℕ) : ℕ :=
  percentile.percent * samples.card ⌈/⌉ 100

/-- What a percentile of samples is: the smallest bound with as many samples at or below it as the
rank says; nothing without samples, and nothing when the rank lies above the last bound. -/
structure IsPercentile (percentile : Percentile) (samples : Multiset ℕ) (result : Option ℕ) :
    Prop where
  some_iff : ∀ bound, result = some bound ↔ samples ≠ 0 ∧ bound ∈ histogramBoundsUs ∧
    rankOf percentile samples ≤ samples.countP (· ≤ bound) ∧
    ∀ other ∈ histogramBoundsUs, rankOf percentile samples ≤ samples.countP (· ≤ other) →
      bound ≤ other
  none_iff : result = none ↔
    samples = 0 ∨ samples.countP (· ≤ 3600000000) < rankOf percentile samples

theorem IsPercentile.unique {percentile : Percentile} {samples : Multiset ℕ}
    {result other : Option ℕ} (hresult : IsPercentile percentile samples result)
    (hother : IsPercentile percentile samples other) : result = other := by
  ext bound
  exact (hresult.some_iff bound).trans (hother.some_iff bound).symm

/-- Assumes: increasing bounds. Adding up the counts of the buckets from the left reaches a rank at
the smallest bound with that many samples at or below it. -/
theorem searchRank_eq_some {bounds : List ℕ} (hbounds : bounds.Pairwise (· < ·)) (rank : ℕ) :
    ∀ (count : ℕ) (samples : Multiset ℕ) (bound : ℕ),
      searchRank rank count (bounds.zip (tallies bounds samples)) = some bound ↔
        bound ∈ bounds ∧ rank ≤ count + samples.countP (· ≤ bound) ∧
          ∀ other ∈ bounds, rank ≤ count + samples.countP (· ≤ other) → bound ≤ other := by
  induction bounds with
  | nil =>
    intro count samples bound
    simp [searchRank]
  | cons first rest ih =>
    intro count samples bound
    obtain ⟨hfirst, hrest⟩ := List.pairwise_cons.mp hbounds
    rw [tallies, List.zip_cons_cons, searchRank]
    split_ifs with hreached
    · constructor
      · rintro hsome
        obtain rfl := Option.some.inj hsome
        refine ⟨List.mem_cons_self, hreached, fun other hother _ ↦ ?_⟩
        rcases List.mem_cons.mp hother with rfl | hother
        · exact le_rfl
        · exact (hfirst other hother).le
      · rintro ⟨hmem, -, hleast⟩
        rcases List.mem_cons.mp hmem with rfl | hmem
        · rfl
        · have hle := hleast first List.mem_cons_self hreached
          have hlt := hfirst bound hmem
          omega
    · rw [ih hrest]
      have hsplit : ∀ other ∈ rest, count + samples.countP (· ≤ other) =
          count + samples.countP (· ≤ first) +
            (samples.filter (first < ·)).countP (· ≤ other) := by
        intro other hother
        rw [countP_le_split (hfirst other hother), Nat.add_assoc]
      constructor
      · rintro ⟨hmem, hrank, hleast⟩
        refine ⟨List.mem_cons_of_mem _ hmem, (hsplit bound hmem).symm ▸ hrank, ?_⟩
        intro other hother hother_rank
        rcases List.mem_cons.mp hother with rfl | hother
        · exact absurd hother_rank hreached
        · exact hleast other hother (hsplit other hother ▸ hother_rank)
      · rintro ⟨hmem, hrank, hleast⟩
        rcases List.mem_cons.mp hmem with rfl | hmem
        · exact absurd hrank hreached
        · refine ⟨hmem, hsplit bound hmem ▸ hrank, fun other hother hother_rank ↦ ?_⟩
          exact hleast other (List.mem_cons_of_mem _ hother)
            ((hsplit other hother).symm ▸ hother_rank)

/-- Assumes: increasing bounds. The counts of the buckets below the last bound do not reach a rank
that no bound has as many samples for. -/
theorem searchRank_eq_none {bounds : List ℕ} (hbounds : bounds.Pairwise (· < ·)) (rank : ℕ) :
    ∀ (count : ℕ) (samples : Multiset ℕ),
      searchRank rank count (bounds.zip (tallies bounds samples)) = none ↔
        ∀ bound ∈ bounds, count + samples.countP (· ≤ bound) < rank := by
  induction bounds with
  | nil =>
    intro count samples
    simp [searchRank]
  | cons first rest ih =>
    intro count samples
    obtain ⟨hfirst, hrest⟩ := List.pairwise_cons.mp hbounds
    rw [tallies, List.zip_cons_cons, searchRank, List.forall_mem_cons]
    split_ifs with hreached
    · simp [hreached]
    · rw [ih hrest, and_iff_right (not_le.mp hreached)]
      refine forall₂_congr fun other hother ↦ ?_
      rw [countP_le_split (hfirst other hother) samples, Nat.add_assoc]

theorem pairwise_histogramBoundsUs : histogramBoundsUs.Pairwise (· < ·) := by
  decide

theorem le_of_mem_histogramBoundsUs : ∀ bound ∈ histogramBoundsUs, bound ≤ 3600000000 := by
  decide

/-- Assumes: samples whose number fits a counter. The counts of their histogram are exact. -/
theorem histogramOf_counts {samples : Multiset ℕ} (hbelow : samples.card < 2 ^ 64) :
    List.ofFn (histogramOf samples).bucketCounts = tallies histogramBoundsUs samples := by
  rw [← ofFn_countP_index]
  refine congrArg List.ofFn (funext fun bucket ↦ ?_)
  have hle := Multiset.countP_le_card (fun value ↦ bucketIndex value = bucket) samples
  refine (min_eq_left (Nat.le_sub_one_of_lt (hle.trans_lt hbelow))).trans ?_
  refine Multiset.countP_congr rfl fun value _ ↦ ?_
  exact propext Fin.ext_iff

/-- Assumes: samples whose number fits a counter. The rank search of their histogram finds the
percentile. -/
theorem quantile_histogramOf (percentile : Percentile) {samples : Multiset ℕ}
    (hbelow : samples.card < 2 ^ 64) :
    IsPercentile percentile samples ((histogramOf samples).quantile percentile.percent) := by
  have hcount : (histogramOf samples).sampleCount = samples.card :=
    min_eq_left (Nat.le_sub_one_of_lt hbelow)
  have hrank : (samples.card * percentile.percent + 99) / 100 = rankOf percentile samples := by
    unfold rankOf
    rw [Nat.ceilDiv_eq_add_pred_div, Nat.mul_comm]
    rfl
  have hquantile : (histogramOf samples).quantile percentile.percent =
      if samples = 0 then none
      else searchRank (rankOf percentile samples) 0
        (histogramBoundsUs.zip (tallies histogramBoundsUs samples)) := by
    unfold HistogramSnapshot.quantile
    rw [hcount, hrank, histogramOf_counts hbelow]
    simp only [Multiset.card_eq_zero]
  rw [hquantile]
  by_cases hsamples : samples = 0
  · rw [if_pos hsamples]
    constructor
    · intro bound
      simp [hsamples]
    · simp [hsamples]
  · rw [if_neg hsamples]
    constructor
    · intro bound
      rw [searchRank_eq_some pairwise_histogramBoundsUs]
      simp only [Nat.zero_add, ne_eq, hsamples, not_false_eq_true, true_and]
    · rw [searchRank_eq_none pairwise_histogramBoundsUs]
      simp only [Nat.zero_add, hsamples, false_or]
      refine ⟨fun hall ↦ hall _ (by decide), fun hlast bound hbound ↦ ?_⟩
      refine lt_of_le_of_lt ?_ hlast
      rw [Multiset.countP_eq_card_filter, Multiset.countP_eq_card_filter]
      refine Multiset.card_le_card (Multiset.monotone_filter_right samples fun value hvalue ↦ ?_)
      exact hvalue.trans (le_of_mem_histogramBoundsUs bound hbound)

/-! ### Instances -/

/-- Assumes: a sum in range. Adding up with an overflow check gives it. -/
theorem foldlM_checkedAdd (values : List ℕ) (count : ℕ) (hlt : count + values.sum < 2 ^ 64) :
    values.foldlM (checkedAdd 64) count = some (count + values.sum) := by
  induction values generalizing count with
  | nil => rfl
  | cons value values ih =>
    rw [List.sum_cons, ← Nat.add_assoc] at hlt ⊢
    have hfirst : checkedAdd 64 count value = some (count + value) :=
      checkedAdd_eq_some.mpr ⟨rfl, by omega⟩
    rw [List.foldlM_cons, hfirst]
    exact ih (count + value) hlt

/-- Assumes: samples whose number fits a counter. Their histogram is valid. -/
theorem valid_histogramOf {samples : Multiset ℕ} (hbelow : samples.card < 2 ^ 64) :
    (histogramOf samples).valid = true := by
  have hsum : (List.ofFn (histogramOf samples).bucketCounts).sum = samples.card := by
    rw [histogramOf_counts hbelow, sum_tallies]
  have hfold := foldlM_checkedAdd (List.ofFn (histogramOf samples).bucketCounts) 0
    (by rw [hsum, Nat.zero_add]; exact hbelow)
  rw [hsum, Nat.zero_add] at hfold
  refine decide_eq_true ⟨rfl, hfold.trans ?_⟩
  exact congrArg some (min_eq_left (Nat.le_sub_one_of_lt hbelow)).symm

/-- The latency of a snapshot of a log is valid. Assumes: samples whose number fits a counter. -/
theorem valid_latencyOf {log : Multiset Sample}
    (hbelow : ∀ series, (valuesOf log series).card < 2 ^ 64) :
    (latencyOf log).refreshQuantiles.histograms.all HistogramSnapshot.valid = true := by
  refine List.all_eq_true.mpr fun histogram hmem ↦ ?_
  have hseries : ∃ series, histogram = (latencyOf log).refreshQuantiles series := by
    simp only [RuntimeLatency.histograms, List.mem_cons, List.not_mem_nil, or_false] at hmem
    rcases hmem with h | h | h | h | h | h | h | h | h | h <;> exact ⟨_, h⟩
  obtain ⟨series, rfl⟩ := hseries
  exact valid_histogramOf (hbelow series)

/-- An instance: a run of the metrics, and a reading of the clock that is not behind it. -/
structure Instance where
  actions : List Action
  elapsed : ℕ
  current : (run Recording.step .init actions).world.callers.second ≤ elapsed

def Instance.snapshot (inst : Instance) (window : ℕ) : RuntimeSnapshot :=
  (run Recording.step .init inst.actions).world.state.snapshot window inst.elapsed

/-- The samples that an instance recorded in a window. -/
def Instance.samples (inst : Instance) (window : ℕ) : Multiset Sample :=
  samplesWithin (run Recording.step .init inst.actions).samples (normalizeWindow window)
    inst.elapsed

/-- The samples that several instances recorded in a window. -/
def clusterSamples (window : ℕ) (instances : List Instance) : Multiset Sample :=
  (instances.map fun inst ↦ inst.samples window).sum

theorem Instance.snapshot_latency (inst : Instance) (window : ℕ) :
    (inst.snapshot window).latency = (latencyOf (inst.samples window)).refreshQuantiles :=
  (faithful_run inst.actions).snapshot_latency window inst.current

/-- The fields of a snapshot that aggregation keeps. -/
theorem aggregateBuckets_frame (snapshot : RuntimeSnapshot) (buckets : List Bucket) :
    (aggregateBuckets snapshot buckets).schemaVersion = snapshot.schemaVersion ∧
      (aggregateBuckets snapshot buckets).windowSeconds = snapshot.windowSeconds := by
  unfold aggregateBuckets
  dsimp only
  generalize snapshot.uptimeSeconds.getD 0 = elapsed
  induction buckets generalizing snapshot with
  | nil => exact ⟨rfl, rfl⟩
  | cons bucket rest ih =>
    rw [List.foldl_cons]
    split_ifs with hage
    · exact ih (snapshot.addBucket bucket)
    · exact ih snapshot

theorem Instance.snapshot_frame (inst : Instance) (window : ℕ) :
    (inst.snapshot window).schemaVersion = 1 ∧
      (inst.snapshot window).windowSeconds = normalizeWindow window :=
  aggregateBuckets_frame _ _

theorem latencyOf_merge_refresh (log other : Multiset Sample) :
    (latencyOf log).merge (latencyOf other).refreshQuantiles = latencyOf (log + other) :=
  latencyOf_add log other

theorem valuesOf_add (log other : Multiset Sample) (series : LatencySeries) :
    valuesOf (log + other) series = valuesOf log series + valuesOf other series := by
  unfold valuesOf
  rw [Multiset.filter_add, Multiset.map_add]

/-- Assumes: samples whose number fits a counter. Merging the snapshots of instances merges their
histograms. -/
theorem foldl_addInstance_latency (window : ℕ) (instances : List Instance) :
    ∀ (merged : RuntimeSnapshot) (log : Multiset Sample),
      merged.windowSeconds = normalizeWindow window → merged.latency = latencyOf log →
      (∀ series, (valuesOf (log + clusterSamples window instances) series).card < 2 ^ 64) →
      ((instances.map fun inst ↦ inst.snapshot window).foldl RuntimeSnapshot.addInstance
        merged).latency = latencyOf (log + clusterSamples window instances) := by
  induction instances with
  | nil =>
    intro merged log _ hlatency _
    have hnone : clusterSamples window [] = 0 := rfl
    rw [hnone, add_zero]
    exact hlatency
  | cons inst rest ih =>
    intro merged log hwindow hlatency hbelow
    have hsplit : log + clusterSamples window (inst :: rest) =
        log + inst.samples window + clusterSamples window rest := by
      rw [clusterSamples, List.map_cons, List.sum_cons, add_assoc]
      rfl
    rw [hsplit] at hbelow ⊢
    have hown : ∀ series, (valuesOf (inst.samples window) series).card < 2 ^ 64 := by
      intro series
      have htotal := hbelow series
      rw [valuesOf_add, valuesOf_add, Multiset.card_add, Multiset.card_add] at htotal
      omega
    have hvalid := valid_latencyOf hown
    rw [← inst.snapshot_latency window] at hvalid
    obtain ⟨hschema, hsnapshot⟩ := inst.snapshot_frame window
    have hcompatible : ¬((inst.snapshot window).schemaVersion ≠ 1 ∨
        (inst.snapshot window).windowSeconds ≠ merged.windowSeconds ∨
        ¬(inst.snapshot window).latency.histograms.all HistogramSnapshot.valid) := by
      simp [hschema, hsnapshot, hwindow, hvalid]
    rw [List.map_cons, List.foldl_cons]
    refine ih _ _ ?_ ?_ hbelow
    · unfold RuntimeSnapshot.addInstance
      rw [if_neg hcompatible]
      exact hwindow
    · unfold RuntimeSnapshot.addInstance
      rw [if_neg hcompatible]
      dsimp only
      rw [hlatency, inst.snapshot_latency, latencyOf_merge_refresh]

theorem normalizeWindow_idem (window : ℕ) :
    normalizeWindow (normalizeWindow window) = normalizeWindow window := by
  unfold normalizeWindow
  split_ifs with hsupported hagain
  · rfl
  · rfl
  · rfl

/-- Assumes: samples whose number fits a counter. The merged snapshot shows the histograms of all
samples of the cluster, with their quantiles. -/
theorem merged_latency (window : ℕ) (instances : List Instance)
    (hbelow : ∀ series, (valuesOf (clusterSamples window instances) series).card < 2 ^ 64) :
    (mergeRuntimeSnapshots (instances.map fun inst ↦ inst.snapshot window)).latency =
      (latencyOf (clusterSamples window instances)).refreshQuantiles := by
  have hempty : RuntimeLatency.empty = latencyOf 0 := by
    ext series
    exact histogramOf_zero.symm
  unfold mergeRuntimeSnapshots
  dsimp only
  refine congrArg RuntimeLatency.refreshQuantiles ?_
  rcases instances with _ | ⟨inst, rest⟩
  · exact hempty
  · rw [← zero_add (clusterSamples window (inst :: rest))] at hbelow ⊢
    refine foldl_addInstance_latency window (inst :: rest) _ 0 ?_ hempty hbelow
    show normalizeWindow (inst.snapshot window).windowSeconds = _
    rw [(inst.snapshot_frame window).2, normalizeWindow_idem]

/-- Assumes: samples whose number fits a counter. The quantiles that are recomputed from their
histogram are the percentiles. -/
theorem report_histogramOf (percentile : Percentile) {samples : Multiset ℕ}
    (hbelow : samples.card < 2 ^ 64) :
    IsPercentile percentile samples
      ((histogramOf samples).refreshQuantiles.report percentile) := by
  cases percentile with
  | p50 => exact quantile_histogramOf .p50 hbelow
  | p95 => exact quantile_histogramOf .p95 hbelow
  | p99 => exact quantile_histogramOf .p99 hbelow

/-- Observing samples one after the other gives their histogram. -/
theorem foldl_observeUs (values : List ℕ) (samples : Multiset ℕ) :
    values.foldl HistogramSnapshot.observeUs (histogramOf samples) =
      histogramOf (samples + values) := by
  induction values generalizing samples with
  | nil => rw [List.foldl_nil, Multiset.coe_nil, add_zero]
  | cons value rest ih =>
    rw [List.foldl_cons, histogramOf_observeUs, ih, ← Multiset.cons_coe, Multiset.cons_add,
      Multiset.add_cons]

/-- For every cluster of instances with one window, whatever they recorded and whenever: the merged
percentiles are those of all samples of the window together. They do not depend on the order in
which the instances are merged, a histogram that observes all samples reports them, and so does
every single instance that recorded these samples. Assumes: samples of each series whose number fits
a counter. -/
theorem cluster_percentiles (window : ℕ) (instances : List Instance)
    (hbelow : ∀ series, (valuesOf (clusterSamples window instances) series).card < 2 ^ 64)
    (series : LatencySeries) (percentile : Percentile) :
    let samples := valuesOf (clusterSamples window instances) series
    let merged := mergeRuntimeSnapshots (instances.map fun inst ↦ inst.snapshot window)
    IsPercentile percentile samples ((merged.latency series).report percentile) ∧
      (∀ reordered : List Instance, reordered.Perm instances →
        (mergeRuntimeSnapshots (reordered.map fun inst ↦ inst.snapshot window)).latency series =
          merged.latency series) ∧
      (∀ values : List ℕ, values = samples →
        (values.foldl HistogramSnapshot.observeUs .empty).refreshQuantiles.report percentile =
          (merged.latency series).report percentile) ∧
      ∀ single : Instance, valuesOf (single.samples window) series = samples →
        ((single.snapshot window).latency series).report percentile =
          (merged.latency series).report percentile := by
  intro samples merged
  have hmerged : merged.latency series = (histogramOf samples).refreshQuantiles :=
    congrFun (merged_latency window instances hbelow) series
  refine ⟨?_, fun reordered hperm ↦ ?_, fun values hvalues ↦ ?_, fun single hsingle ↦ ?_⟩
  · rw [hmerged]
    exact report_histogramOf percentile (hbelow series)
  · have hsame : clusterSamples window reordered = clusterSamples window instances := by
      unfold clusterSamples
      exact (hperm.map _).sum_eq
    have hreordered := merged_latency window reordered (by rw [hsame]; exact hbelow)
    rw [hsame] at hreordered
    exact (congrFun hreordered series).trans hmerged.symm
  · have hvalues' : values.foldl HistogramSnapshot.observeUs .empty = histogramOf samples := by
      rw [← histogramOf_zero, foldl_observeUs, zero_add, hvalues]
    rw [hvalues', hmerged]
  · have hown : (single.snapshot window).latency series =
      (histogramOf samples).refreshQuantiles := by
      rw [single.snapshot_latency, ← hsingle]
      rfl
    rw [hown, hmerged]

/-- An instance that released two bodies, half a minute apart. -/
def releasingInstance : Instance :=
  ⟨[.recordBodyRetention 5000000, .advance 30000000000, .recordBodyRetention 90000000], 30,
    by decide⟩

/-- An instance that answered a request in two seconds and released its body. -/
def answeringInstance : Instance :=
  ⟨[.start .http 0, .advance 2000000000, .finish 0 { success := true } 0,
    .recordBodyRetention 1900000000], 2, by decide⟩

theorem cluster_percentiles_two :
    (∀ series, (valuesOf (clusterSamples 60 [releasingInstance, answeringInstance])
      series).card < 2 ^ 64) ∧
      IsPercentile .p50 (valuesOf (clusterSamples 60 [releasingInstance, answeringInstance])
        .bodyRetention)
        (((mergeRuntimeSnapshots [releasingInstance.snapshot 60,
          answeringInstance.snapshot 60]).latency .bodyRetention).report .p50) := by
  have hbelow : ∀ series, (valuesOf (clusterSamples 60 [releasingInstance, answeringInstance])
      series).card < 2 ^ 64 := by
    intro series
    cases series <;> decide
  exact ⟨hbelow, (cluster_percentiles 60 [releasingInstance, answeringInstance] hbelow
    .bodyRetention .p50).1⟩

end Relayna.Runtime

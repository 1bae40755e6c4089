import Mathlib.Data.List.OfFn
import Mathlib.Logic.Function.Basic
import Relayna.Library.MachineWord

/-!
# Latency histograms

The histograms of `crates/gateway-telemetry/src/runtime.rs`: fixed bounds in microseconds, one count
for each bound and one for what is above the last, all of them 64-bit words that stop at the end of
their range. A histogram is merged count by count; its quantiles are upper bounds of buckets, and
are recomputed from the counts.

The source keeps a quantile as a bound divided by 1000, in milliseconds and as a float. Here it is
the bound.
-/

set_option autoImplicit false
set_option relaxedAutoImplicit false

namespace Relayna.Runtime

open Library.MachineWord

/-! ### One histogram -/

def histogramBoundsUs : List ℕ :=
  [10, 25, 50, 100, 250, 500, 1000, 2500, 5000, 10000, 25000, 50000, 100000, 250000, 500000,
    1000000, 2500000, 5000000, 10000000, 30000000, 60000000, 120000000, 300000000, 900000000,
    3600000000]

/-- `HistogramSnapshot`. The last count is the overflow bucket. -/
structure HistogramSnapshot where
  upperBoundsUs : List ℕ
  bucketCounts : Fin 26 → ℕ
  sampleCount : ℕ
  sumUs : ℕ
  p50 : Option ℕ
  p95 : Option ℕ
  p99 : Option ℕ

/-- `HistogramSnapshot::default`. -/
def HistogramSnapshot.empty : HistogramSnapshot :=
  ⟨histogramBoundsUs, fun _ ↦ 0, 0, 0, none, none, none⟩

/-- The first bound that is not below a value, found by `partition_point`. -/
def bucketIndex (value : ℕ) : Fin 26 :=
  ⟨(histogramBoundsUs.takeWhile fun bound ↦ bound < value).length,
    Nat.lt_succ_of_le (List.takeWhile_prefix _).length_le⟩

def HistogramSnapshot.observeUs (histogram : HistogramSnapshot) (value : ℕ) : HistogramSnapshot :=
  { histogram with
    bucketCounts := Function.update histogram.bucketCounts (bucketIndex value)
      (saturatingAdd 64 (histogram.bucketCounts (bucketIndex value)) 1)
    sampleCount := saturatingAdd 64 histogram.sampleCount 1
    sumUs := saturatingAdd 64 histogram.sumUs value }

def HistogramSnapshot.observeMs (histogram : HistogramSnapshot) :
    Option ℕ → HistogramSnapshot
  | some value => histogram.observeUs (saturatingMul 64 value 1000)
  | none => histogram

def HistogramSnapshot.merge (histogram other : HistogramSnapshot) : HistogramSnapshot :=
  { histogram with
    bucketCounts := fun index ↦
      saturatingAdd 64 (histogram.bucketCounts index) (other.bucketCounts index)
    sampleCount := saturatingAdd 64 histogram.sampleCount other.sampleCount
    sumUs := saturatingAdd 64 histogram.sumUs other.sumUs }

/-- The first bound at which the cumulative count reaches a rank. -/
def searchRank (rank : ℕ) : ℕ → List (ℕ × ℕ) → Option ℕ
  | _, [] => none
  | count, (bound, n) :: rest =>
    if rank ≤ count + n then some bound else searchRank rank (count + n) rest

def HistogramSnapshot.quantile (histogram : HistogramSnapshot) (percentile : ℕ) : Option ℕ :=
  if histogram.sampleCount = 0 then none
  else searchRank ((histogram.sampleCount * percentile + 99) / 100) 0
    (histogramBoundsUs.zip (List.ofFn histogram.bucketCounts))

def HistogramSnapshot.refreshQuantiles (histogram : HistogramSnapshot) : HistogramSnapshot :=
  { histogram with
    p50 := histogram.quantile 50
    p95 := histogram.quantile 95
    p99 := histogram.quantile 99 }

/-! ### The histograms of a bucket -/

/-- The fields of `RuntimeLatency`. -/
inductive LatencySeries
  | httpDuration
  | httpSuccessDuration
  | upstreamDuration
  | ttfb
  | ttft
  | websocketHandshake
  | websocketSession
  | admissionDecision
  | admissionRejection
  | bodyRetention
  deriving DecidableEq

/-- `RuntimeLatency`: a histogram for each series. -/
abbrev RuntimeLatency := LatencySeries → HistogramSnapshot

/-- `RuntimeLatency::default`. -/
def RuntimeLatency.empty : RuntimeLatency :=
  fun _ ↦ .empty

def RuntimeLatency.merge (latency other : RuntimeLatency) : RuntimeLatency :=
  fun series ↦ (latency series).merge (other series)

def RuntimeLatency.refreshQuantiles (latency : RuntimeLatency) : RuntimeLatency :=
  fun series ↦ (latency series).refreshQuantiles

/-- Observe a value in microseconds in one of the series. -/
def RuntimeLatency.observeUs (latency : RuntimeLatency) (series : LatencySeries) (value : ℕ) :
    RuntimeLatency :=
  Function.update latency series ((latency series).observeUs value)

/-- Observe a value in milliseconds in one of the series, if there is one. -/
def RuntimeLatency.observeMs (latency : RuntimeLatency) (series : LatencySeries)
    (value : Option ℕ) : RuntimeLatency :=
  Function.update latency series ((latency series).observeMs value)

end Relayna.Runtime

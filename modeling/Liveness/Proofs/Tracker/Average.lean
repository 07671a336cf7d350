import Liveness.Proofs.Tracker.Resets
import Mathlib.Algebra.Order.BigOperators.Group.List
import Mathlib.Algebra.Order.Ring.Nat
import Mathlib.Data.Finset.Max
/-!
# The average latency

The sum and the number of the latencies are kept apart and brought together by a division. They are the
sum and the number of the same latencies, those of the successes since the totals were last reset, so the
quotient lies between the shortest and the longest of these. Of the quotient 64 bits are kept.
-/
namespace Liveness

def latencies (history : List CheckResult) : List Duration :=
  history.filterMap fun
    | .ok latency => some latency
    | .error _ => none

theorem sum_latencies (history : List CheckResult) :
    ((latencies history).map Duration.nanos).sum =
      (history.map Tracker.latencyNanos).sum := by
  induction history with
  | nil => rfl
  | cons result history ih =>
    cases result with
    | ok latency =>
      change latency.nanos + ((latencies history).map Duration.nanos).sum = _
      rw [ih]
      rfl
    | error failure =>
      rw [List.map_cons, List.sum_cons, ← ih]
      exact (Nat.zero_add _).symm

theorem length_latencies (history : List CheckResult) :
    (latencies history).length = history.countP succeeded := by
  induction history with
  | nil => rfl
  | cons result history ih =>
    cases result with
    | ok latency =>
      rw [List.countP_cons_of_pos rfl, ← ih]
      rfl
    | error failure =>
      rw [List.countP_cons_of_neg Bool.false_ne_true, ← ih]
      rfl

def meanNanos (ds : List Duration) : Nat := (ds.map Duration.nanos).sum / ds.length

structure Extremes (ds : List Duration) (shortest longest : Duration) : Prop where
  shortest_mem : shortest ∈ ds
  longest_mem : longest ∈ ds
  between : ∀ d ∈ ds, shortest ≤ d ∧ d ≤ longest

theorem exists_extremes {ds : List Duration} (h : ds ≠ []) :
    ∃ shortest longest, Extremes ds shortest longest := by
  have hne : ds.toFinset.Nonempty := (List.toFinset_nonempty_iff ds).mpr h
  obtain ⟨shortest, hs, hshortest⟩ := Finset.exists_min_image ds.toFinset Duration.nanos hne
  obtain ⟨longest, hl, hlongest⟩ := Finset.exists_max_image ds.toFinset Duration.nanos hne
  rw [List.mem_toFinset] at hs hl
  refine ⟨shortest, longest, hs, hl, fun d hd => ?_⟩
  rw [← List.mem_toFinset] at hd
  exact ⟨hshortest d hd, hlongest d hd⟩

theorem Extremes.mean_between {ds : List Duration} {shortest longest : Duration}
    (h : Extremes ds shortest longest) :
    shortest.nanos ≤ meanNanos ds ∧ meanNanos ds ≤ longest.nanos := by
  have hpos : 0 < ds.length := List.length_pos_of_mem h.shortest_mem
  have hlow : ds.length * shortest.nanos ≤ (ds.map Duration.nanos).sum := by
    have hsum := List.card_nsmul_le_sum (ds.map Duration.nanos) shortest.nanos (by
      rintro n hn
      obtain ⟨d, hd, rfl⟩ := List.mem_map.mp hn
      exact (h.between d hd).1)
    simpa using hsum
  have hhigh : (ds.map Duration.nanos).sum ≤ ds.length * longest.nanos := by
    have hsum := List.sum_le_card_nsmul (ds.map Duration.nanos) longest.nanos (by
      rintro n hn
      obtain ⟨d, hd, rfl⟩ := List.mem_map.mp hn
      exact (h.between d hd).2)
    simpa using hsum
  constructor
  · rw [meanNanos, Nat.le_div_iff_mul_le hpos, Nat.mul_comm]
    exact hlow
  · exact Nat.div_le_of_le_mul hhigh

namespace Tally

theorem averageLatency_eq_none_iff {t : Tally} : t.averageLatency = none ↔ t.successes = 0 := by
  unfold averageLatency
  split
  case isTrue h => exact iff_of_true rfl h
  case isFalse h => exact iff_of_false nofun h

theorem nanos_averageLatency {t : Tally} {average : Duration} (h : t.averageLatency = some average) :
    average.nanos = t.latencyTotal.nanos / t.successes % 2 ^ 64 := by
  unfold averageLatency at h
  split at h
  · cases h
  · obtain rfl := Option.some.inj h
    have hfits : t.latencyTotal.nanos / t.successes % Nat.pow 2 64 < Duration.limit := by
      rw [Duration.limit_eq, Nat.pow_eq]
      omega
    unfold Duration.clampNanos
    rw [dif_pos hfits]
    rfl

end Tally

namespace Tracker

/-- An average of latencies. It lies between them as long as their mean has 64 bits. -/
structure Averages (ds : List Duration) (average : Duration) : Prop where
  low_bits : average.nanos = meanNanos ds % 2 ^ 64
  between : ∃ shortest longest, Extremes ds shortest longest ∧
    shortest.nanos ≤ meanNanos ds ∧ meanNanos ds ≤ longest.nanos ∧
    (meanNanos ds < 2 ^ 64 → shortest ≤ average ∧ average ≤ longest)

theorem averages_of_nanos {ds : List Duration} {average : Duration} (hne : ds ≠ [])
    (h : average.nanos = meanNanos ds % 2 ^ 64) : Averages ds average := by
  obtain ⟨shortest, longest, hextremes⟩ := exists_extremes hne
  obtain ⟨hlow, hhigh⟩ := hextremes.mean_between
  refine ⟨h, shortest, longest, hextremes, hlow, hhigh, fun hfits => ?_⟩
  rw [Nat.mod_eq_of_lt hfits] at h
  constructor
  · show shortest.nanos ≤ average.nanos
    omega
  · show average.nanos ≤ longest.nanos
    omega

variable {t : Tracker} {ops : List Operation} {permits : Tracker → Operation → Prop}
  {failures successes : UInt32}

/-- The sum is that of the latencies since the last reset, and the count is their number. -/
theorem run_meanNanos (h : Run permits (new failures successes) ops t) :
    t.tally.latencyTotal.nanos / t.tally.successes =
      meanNanos (latencies (results (sinceReset ops))) := by
  rw [run_latencies h, (run_counts h).successes, meanNanos, sum_latencies, length_latencies]

/-- There is an average latency as soon as a success has been recorded since the last reset. It is the
mean of their latencies, of which 64 bits of nanoseconds are kept. -/
theorem average_of_latencies (h : Run permits (new failures successes) ops t) :
    (t.tally.averageLatency = none ↔ latencies (results (sinceReset ops)) = []) ∧
    ∀ average, t.tally.averageLatency = some average →
      Averages (latencies (results (sinceReset ops))) average := by
  have hnone : t.tally.averageLatency = none ↔ latencies (results (sinceReset ops)) = [] := by
    rw [Tally.averageLatency_eq_none_iff, (run_counts h).successes, ← length_latencies,
      List.length_eq_zero_iff]
  refine ⟨hnone, fun average haverage => ?_⟩
  have hne : latencies (results (sinceReset ops)) ≠ [] := by
    intro hempty
    rw [hnone.mpr hempty] at haverage
    cases haverage
  apply averages_of_nanos hne
  rw [Tally.nanos_averageLatency haverage, run_meanNanos h]

/-- A success that took some 584 years. -/
def longSuccess : List Operation :=
  [.recordCheck (.ok (.clampNanos 18446744074000000000)) .zero]

/-- The mean of longer latencies loses its highest bits, and is none of them. -/
theorem average_below_all_latencies : ¬ ∀ (failures successes : UInt32) (ops : List Operation)
    (t : Tracker), Run Orderly (new failures successes) ops t →
      ∀ average, t.tally.averageLatency = some average →
        ∃ latency ∈ latencies (results (sinceReset ops)), latency ≤ average := by
  intro hall
  have hs : ((follow Orderly (new 1 1) longSuccess).map fun t => t.tally.averageLatency) =
      some (some (.clampNanos 290448384)) := by decide +kernel
  have hl : latencies (results (sinceReset longSuccess)) = [.clampNanos 18446744074000000000] := by
    decide +kernel
  obtain ⟨t, ht, haverage⟩ := Option.map_eq_some_iff.mp hs
  obtain ⟨latency, hmem, hle⟩ := hall 1 1 longSuccess t (run_of_follow .nil ht) _ haverage
  rw [hl, List.mem_singleton] at hmem
  subst hmem
  exact absurd hle (by decide)

/-- A check and the attempt that recovers the target, after a reset; the average is rounded down. -/
def successesAfterReset : List Operation :=
  [.recordCheck (.ok (.clampMillis 90)) .zero, .resetTally .zero,
    .recordCheck (.error .connectionClosed) .zero, .beginEpisode .zero,
    .recordAttempt (.ok (.clampNanos 18446744073709551615)) .zero,
    .recordCheck (.ok (.clampNanos 18446744073709551600)) .zero]

theorem average_of_latencies_after_reset : ∃ t,
    Run Orderly (new 1 1) successesAfterReset t ∧
    t.tally.averageLatency = some (.clampNanos 18446744073709551607) ∧
    Averages [.clampNanos 18446744073709551615, .clampNanos 18446744073709551600]
      (.clampNanos 18446744073709551607) := by
  have hs : ((follow Orderly (new 1 1) successesAfterReset).map fun t => t.tally.averageLatency) =
      some (some (.clampNanos 18446744073709551607)) := by decide +kernel
  have hl : latencies (results (sinceReset successesAfterReset)) =
      [.clampNanos 18446744073709551615, .clampNanos 18446744073709551600] := by decide +kernel
  obtain ⟨t, ht, haverage⟩ := Option.map_eq_some_iff.mp hs
  have run : Run Orderly (new 1 1) successesAfterReset t := run_of_follow .nil ht
  obtain ⟨-, haverages⟩ := average_of_latencies run
  rw [hl] at haverages
  exact ⟨t, run, haverage, haverages _ haverage⟩

end Tracker

end Liveness

import Liveness.Proofs.Tracker.Operations
/-!
# The consistent status

What holds of every tracker that operations in order can lead to. The fields depend on one another:
only all of them together are kept by each operation.
-/
namespace Liveness.Tracker

structure Consistent (failures successes : UInt32) (history : List CheckResult) (t : Tracker) :
    Prop where
  failure_threshold : t.failureThreshold = failures
  success_threshold : t.successThreshold = successes
  one_streak : t.status.consecutiveFailures = 0 ∨ t.status.consecutiveSuccesses = 0
  reconnecting_unhealthy : t.status.reconnecting = true → t.status.health = .unhealthy
  episode_start : t.episodeStart.isSome = true ↔ t.status.reconnecting = true
  attempt_unhealthy : t.status.attempt ≠ 0 → t.status.health = .unhealthy
  healthy_failures : t.status.health = .healthy →
    t.status.consecutiveFailures < failures.toNat
  unhealthy_successes : t.status.health = .unhealthy →
    t.status.consecutiveSuccesses < successes.toNat
  unknown_unrecorded : t.status.health = .unknown ↔ history = []
  unknown_unchecked : t.status.health = .unknown ↔ t.status.lastCheckedAt = none
  unknown_unchanged : t.status.health = .unknown ↔ t.status.lastChangedAt = none
  unknown_unaccounted : t.status.health = .unknown ↔ t.accountedAt = none

theorem consistent_new (failures successes : UInt32) :
    Consistent (max failures 1) (max successes 1) [] (new failures successes) := by
  constructor <;> simp [new, Status.initial]

section Preservation

variable {failures successes : UInt32} {history : List CheckResult} {t u : Tracker}

/-- Committing is what restores the fields on the thresholds and on the unknown health. -/
theorem Consistent.checked {result : CheckResult} {now : Instant} {tally : Tally}
    {c : Transition} (h : Consistent failures successes history t)
    (hf : 0 < failures.toNat) (hs : 0 < successes.toNat)
    (hc : Checked (t.observed result now tally) result u c) :
    Consistent failures successes (history ++ [result]) u := by
  have hk : t.status.health ≠ .unknown → t.status.lastChangedAt ≠ none :=
    fun hn he => hn (h.unknown_unchanged.mpr he)
  cases hc with
  | rises hc =>
    constructor <;> simp [becomeHealthy, h.failure_threshold, h.success_threshold, hf]
  | falls hc =>
    constructor <;>
      simp [becomeUnhealthy, h.failure_threshold, h.success_threshold, hs, h.episode_start]
  | succeeds hc =>
    have hc := commitsHealthy_eq_false_iff.mp hc
    simp only [observed_health, observed_ok_successes, observed_successThreshold] at hc
    have hn : t.status.health ≠ .unknown := by
      rcases hc with hc | ⟨hc, -⟩ <;> simp [hc]
    constructor
    · exact h.failure_threshold
    · exact h.success_threshold
    · exact Or.inl rfl
    · exact h.reconnecting_unhealthy
    · exact h.episode_start
    · exact h.attempt_unhealthy
    · intro _; exact hf
    · intro hu
      rcases hc with hc | ⟨-, hc⟩
      · simp_all
      · exact h.success_threshold ▸ hc
    all_goals simp [hn, hk hn]
  | fails hc =>
    have hc := commitsUnhealthy_eq_false_iff.mp hc
    simp only [observed_health, observed_error_failures, observed_failureThreshold] at hc
    have hn : t.status.health ≠ .unknown := by
      rcases hc with hc | ⟨hc, -⟩ <;> simp [hc]
    constructor
    · exact h.failure_threshold
    · exact h.success_threshold
    · exact Or.inr rfl
    · exact h.reconnecting_unhealthy
    · exact h.episode_start
    · exact h.attempt_unhealthy
    · intro hu
      rcases hc with hc | ⟨-, hc⟩
      · simp_all
      · exact h.failure_threshold ▸ hc
    · intro _; exact hs
    all_goals simp [hn, hk hn]

theorem Consistent.began {now : Instant} (h : Consistent failures successes history t)
    (hu : t.status.health = .unhealthy) :
    Consistent failures successes history (t.beginEpisode now) := by
  refine ⟨h.failure_threshold, h.success_threshold, h.one_streak, fun _ => hu, ?_, fun _ => hu,
    h.healthy_failures, h.unhealthy_successes, h.unknown_unrecorded, h.unknown_unchecked,
    h.unknown_unchanged, h.unknown_unaccounted⟩
  simp [beginEpisode]

theorem Consistent.attempted {result : CheckResult} {now : Instant} {c : Transition}
    (h : Consistent failures successes history t) (hr : t.status.reconnecting = true)
    (hf : 0 < failures.toNat) (hs : 0 < successes.toNat)
    (hc : Attempted t now result u c) :
    Consistent failures successes (history ++ [result]) u := by
  have hu := h.reconnecting_unhealthy hr
  have hk : t.status.lastChangedAt ≠ none := fun he => by
    simp [h.unknown_unchanged.mpr he] at hu
  cases hc with
  | reconnects =>
    constructor <;> simp [becomeHealthy, h.failure_threshold, h.success_threshold, hf]
  | fails =>
    constructor <;>
      simp [h.failure_threshold, h.success_threshold, h.episode_start, hr, hu, hk, hs]

theorem Consistent.interrupted (h : Consistent failures successes history t) :
    Consistent failures successes history t.interruptEpisode.1 := by
  refine ⟨h.failure_threshold, h.success_threshold, h.one_streak, ?_, ?_, h.attempt_unhealthy,
    h.healthy_failures, h.unhealthy_successes, h.unknown_unrecorded, h.unknown_unchecked,
    h.unknown_unchanged, h.unknown_unaccounted⟩
  all_goals simp [interruptEpisode]

/-- The totals play no part in it, and of the accounting point only whether there is one. -/
theorem Consistent.of_totals {tally : Tally} {accountedAt : Option Instant}
    (h : Consistent failures successes history t)
    (ha : accountedAt = none ↔ t.accountedAt = none) :
    Consistent failures successes history { t with tally, accountedAt } :=
  ⟨h.failure_threshold, h.success_threshold, h.one_streak, h.reconnecting_unhealthy,
    h.episode_start, h.attempt_unhealthy, h.healthy_failures, h.unhealthy_successes,
    h.unknown_unrecorded, h.unknown_unchecked, h.unknown_unchanged,
    h.unknown_unaccounted.trans ha.symm⟩

theorem Consistent.applied {op : Operation} {answer : Answer}
    (h : Consistent failures successes history t)
    (hf : 0 < failures.toNat) (hs : 0 < successes.toNat) (ho : t.Orderly op)
    (ha : Applied t op u answer) :
    Consistent failures successes (history ++ op.result?.toList) u := by
  cases ha with
  | checked hc => exact h.checked hf hs hc
  | attempted hc => exact h.attempted ho hf hs hc
  | began =>
    simp only [Operation.result?, Option.toList_none, List.append_nil]
    exact h.began ho
  | abandoned =>
    simp only [Operation.result?, Option.toList_none, List.append_nil]
    exact h.interrupted.of_totals Iff.rfl
  | interrupted =>
    simp only [Operation.result?, Option.toList_none, List.append_nil]
    exact h.interrupted
  | reset =>
    simp only [Operation.result?, Option.toList_none, List.append_nil]
    exact h.of_totals (by simp)

end Preservation

theorem threshold_pos (threshold : UInt32) : 0 < (max threshold 1).toNat := by
  change 0 < (if threshold ≤ 1 then (1 : UInt32) else threshold).toNat
  split
  · decide
  · rename_i h
    have := UInt32.lt_iff_toNat_lt.mp (UInt32.not_le.mp h)
    omega

theorem run_consistent {failures successes : UInt32} {ops : List Operation} {t : Tracker}
    (h : Run Orderly (new failures successes) ops t) :
    Consistent (max failures 1) (max successes 1) (results ops) t := by
  induction h with
  | nil => exact consistent_new failures successes
  | step _ ho ha ih =>
    rw [results_append_singleton]
    exact ih.applied (threshold_pos _) (threshold_pos _) ho (apply_eq_ok ha)

theorem Consistent.elapsed_outside {failures successes : UInt32} {history : List CheckResult}
    {t : Tracker} (h : Consistent failures successes history t)
    (hr : t.status.reconnecting = false) (now : Instant) : t.episodeElapsed now = .zero := by
  have hn : t.episodeStart = none := by
    have := h.episode_start
    simp_all
  simp [episodeElapsed, hn]

/-- The invariants of the status, and no time since an episode began where there is none. -/
theorem orderly_run_consistent (failures successes : UInt32) {ops : List Operation}
    {t : Tracker} (h : Run Orderly (new failures successes) ops t) :
    Consistent (max failures 1) (max successes 1) (results ops) t ∧
      (t.status.reconnecting = false → ∀ now, t.episodeElapsed now = .zero) :=
  ⟨run_consistent h, (run_consistent h).elapsed_outside⟩

/-- An outage with a failed attempt, cut short, and a first success after it. -/
def outage : List Operation :=
  [.recordCheck (.error .connectionClosed) (.clampMillis 5), .beginEpisode (.clampMillis 5),
    .recordAttempt (.error .cancelled) (.clampMillis 9), .interruptEpisode,
    .recordCheck (.ok .zero) (.clampMillis 3)]

theorem orderly_run_consistent_outage : ∃ t, Run Orderly (new 0 2) outage t ∧
    t.status.attempt = 1 ∧ Consistent 1 2 (results outage) t ∧
    ∀ now, t.episodeElapsed now = .zero := by
  have hs : ((follow Orderly (new 0 2) outage).map fun t =>
      (t.status.attempt, t.status.reconnecting)) = some (1, false) := by decide
  obtain ⟨t, ht, he⟩ := Option.map_eq_some_iff.mp hs
  obtain ⟨ha, hr⟩ := Prod.mk.inj he
  have run : Run Orderly (new 0 2) outage t := run_of_follow .nil ht
  have h := orderly_run_consistent 0 2 run
  exact ⟨t, run, ha, h.1, h.2 hr⟩

end Liveness.Tracker

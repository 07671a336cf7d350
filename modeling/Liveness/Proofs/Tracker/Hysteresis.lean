import Liveness.Proofs.Tracker.Consistency
import Mathlib.Data.List.DropRight
/-!
# Hysteresis and the history

The transitions of a tracker, told from the list of all results that it has recorded instead of
from its counters. The counters are the lengths of the last streaks of the history, up to a limit
that no threshold exceeds.
-/
namespace Liveness

def succeeded : CheckResult → Bool
  | .ok _ => true
  | .error _ => false

def failed (result : CheckResult) : Bool := !succeeded result

/-- The history has at least `n` results, and the last `n` are all of a kind. -/
def LastAre (kind : CheckResult → Bool) (n : Nat) (history : List CheckResult) : Prop :=
  ∃ recent, recent <:+ history ∧ recent.length = n ∧ ∀ r ∈ recent, kind r = true

def streak (kind : CheckResult → Bool) (history : List CheckResult) : Nat :=
  (history.rtakeWhile kind).length

@[simp] theorem streak_nil (kind : CheckResult → Bool) : streak kind [] = 0 := by
  simp [streak]

theorem streak_append (kind : CheckResult → Bool) (history : List CheckResult)
    (r : CheckResult) :
    streak kind (history ++ [r]) = if kind r then streak kind history + 1 else 0 := by
  unfold streak
  rw [List.rtakeWhile_concat]
  split <;> simp

theorem lastAre_iff {kind : CheckResult → Bool} {n : Nat} {history : List CheckResult} :
    LastAre kind n history ↔ n ≤ streak kind history := by
  constructor
  · rintro ⟨recent, ⟨old, rfl⟩, rfl, hk⟩
    have hr : ∀ r ∈ recent.reverse, kind r = true := fun r hr => hk r (List.mem_reverse.mp hr)
    simp [streak, List.rtakeWhile, List.takeWhile_append_of_pos hr]
  · intro h
    let last := history.rtakeWhile kind
    have hl : n ≤ last.length := h
    refine ⟨last.drop (last.length - n), ?_, ?_, ?_⟩
    · exact (List.drop_suffix _ _).trans (List.rtakeWhile_suffix ..)
    · simp only [List.length_drop]
      omega
    · intro r hr
      exact List.mem_rtakeWhile_imp (List.mem_of_mem_drop hr)

namespace Tracker

variable {t u : Tracker} {op : Operation} {answer : Answer} {history : List CheckResult}

structure Streaks (history : List CheckResult) (t : Tracker) : Prop where
  failures : t.status.consecutiveFailures = min (streak failed history) streakLimit
  successes : t.status.consecutiveSuccesses = min (streak succeeded history) streakLimit

theorem applied_streaks (h : Applied t op u answer) :
    match op.result? with
    | none => u.status.consecutiveFailures = t.status.consecutiveFailures ∧
        u.status.consecutiveSuccesses = t.status.consecutiveSuccesses
    | some (.ok _) => u.status.consecutiveFailures = 0 ∧
        u.status.consecutiveSuccesses = min (t.status.consecutiveSuccesses + 1) streakLimit
    | some (.error _) =>
        u.status.consecutiveFailures = min (t.status.consecutiveFailures + 1) streakLimit ∧
        u.status.consecutiveSuccesses = 0 := by
  cases h with
  | checked hc => cases hc <;> exact ⟨rfl, rfl⟩
  | attempted hc => cases hc <;> exact ⟨rfl, rfl⟩
  | began => exact ⟨rfl, rfl⟩
  | abandoned => exact ⟨rfl, rfl⟩
  | interrupted => exact ⟨rfl, rfl⟩
  | reset => exact ⟨rfl, rfl⟩

theorem Streaks.applied (hs : Streaks history t) (h : Applied t op u answer) :
    Streaks (history ++ op.result?.toList) u := by
  have ha := applied_streaks h
  obtain ⟨hf, hg⟩ := hs
  cases hr : op.result? with
  | none =>
    rw [hr] at ha
    simp only [Option.toList_none, List.append_nil]
    exact ⟨ha.1.trans hf, ha.2.trans hg⟩
  | some r =>
    rw [hr] at ha
    cases r with
    | ok latency =>
      constructor
      · simp [ha.1, streak_append, failed, succeeded]
      · simp only [ha.2, hg, Option.toList_some, streak_append, succeeded, if_true]
        omega
    | error failure =>
      constructor
      · simp only [ha.1, hf, Option.toList_some, streak_append, failed, succeeded,
          Bool.not_false, if_true]
        omega
      · simp [ha.2, streak_append, succeeded]

theorem run_streaks {permits : Tracker → Operation → Prop} {failures successes : UInt32}
    {ops : List Operation} (h : Run permits (new failures successes) ops t) :
    Streaks (results ops) t := by
  induction h with
  | nil => constructor <;> simp [new, Status.initial]
  | step _ _ ha ih =>
    rw [results_append_singleton]
    exact ih.applied (apply_eq_ok ha)

/-- No threshold is beyond the limit of the counters, so they tell long enough streaks. -/
theorem threshold_le_streakLimit (threshold : UInt32) : threshold.toNat ≤ streakLimit := by
  have := threshold.toNat_lt
  change threshold.toNat ≤ 4294967295
  omega

section Commits

variable {failures successes : UInt32}

theorem commitsUnhealthy_observed_iff (h : Consistent failures successes history t)
    (hs : Streaks history t) (failure : Failure) (now : Instant) (tally : Tally) :
    (t.observed (.error failure) now tally).commitsUnhealthy = true ↔
      history = [] ∨ t.status.health = .healthy ∧
        LastAre failed failures.toNat (history ++ [.error failure]) := by
  have hl := threshold_le_streakLimit failures
  have hc : failures.toNat ≤ min (t.status.consecutiveFailures + 1) streakLimit ↔
      failures.toNat ≤ streak failed history + 1 := by
    rw [hs.failures]
    omega
  rw [commitsUnhealthy_iff, observed_health, h.unknown_unrecorded, lastAre_iff, streak_append,
    if_pos (by rfl), observed_error_failures, observed_failureThreshold, h.failure_threshold, hc]

theorem commitsHealthy_observed_iff (h : Consistent failures successes history t)
    (hs : Streaks history t) (latency : Duration) (now : Instant) (tally : Tally) :
    (t.observed (.ok latency) now tally).commitsHealthy = true ↔
      history = [] ∨ t.status.health = .unhealthy ∧
        LastAre succeeded successes.toNat (history ++ [.ok latency]) := by
  have hl := threshold_le_streakLimit successes
  have hc : successes.toNat ≤ min (t.status.consecutiveSuccesses + 1) streakLimit ↔
      successes.toNat ≤ streak succeeded history + 1 := by
    rw [hs.successes]
    omega
  rw [commitsHealthy_iff, observed_health, h.unknown_unrecorded, lastAre_iff, streak_append,
    if_pos (by rfl), observed_ok_successes, observed_successThreshold, h.success_threshold, hc]

theorem failed_check_transition {failure : Failure} {now : Instant} {tally : Tally}
    {c : Transition} (h : Consistent failures successes history t) (hs : Streaks history t)
    (hc : Checked (t.observed (.error failure) now tally) (.error failure) u c) :
    (c = .becameUnhealthy ↔ history = [] ∨ t.status.health = .healthy ∧
      LastAre failed failures.toNat (history ++ [.error failure])) ∧
    (c ≠ .becameUnhealthy → c = .unchanged) := by
  have hi := commitsUnhealthy_observed_iff h hs failure now tally
  cases hc with
  | falls hc => exact ⟨iff_of_true rfl (hi.mp hc), fun hn => absurd rfl hn⟩
  | fails hc =>
    refine ⟨iff_of_false (by simp) fun hh => ?_, fun _ => rfl⟩
    simp [hi.mpr hh] at hc

theorem passed_check_transition {latency : Duration} {now : Instant} {tally : Tally}
    {c : Transition} (h : Consistent failures successes history t) (hs : Streaks history t)
    (hc : Checked (t.observed (.ok latency) now tally) (.ok latency) u c) :
    (c = .becameHealthy ↔ history = [] ∨ t.status.health = .unhealthy ∧
      LastAre succeeded successes.toNat (history ++ [.ok latency])) ∧
    (c ≠ .becameHealthy → c = .unchanged) := by
  have hi := commitsHealthy_observed_iff h hs latency now tally
  cases hc with
  | rises hc => exact ⟨iff_of_true rfl (hi.mp hc), fun hn => absurd rfl hn⟩
  | succeeds hc =>
    refine ⟨iff_of_false (by simp) fun hh => ?_, fun _ => rfl⟩
    simp [hi.mpr hh] at hc

end Commits

/-- The time of the last change is taken from the wall clock exactly by the steps that commit. -/
theorem applied_stamp (h : Applied t op u answer) :
    (answer.commits.isSome = true ∧ ∃ stamp, t.readings ≤ stamp ∧ stamp < u.readings ∧
      u.status.lastChangedAt = some stamp) ∨
    (answer.commits = none ∧ t.readings ≤ u.readings ∧
      u.status.lastChangedAt = t.status.lastChangedAt) := by
  cases h with
  | checked hc => cases hc <;> simp [Answer.commits, becomeHealthy, becomeUnhealthy]
  | attempted hc => cases hc <;> simp [Answer.commits, becomeHealthy]
  | began => simp [Answer.commits, beginEpisode]
  | abandoned => simp [Answer.commits, abandonEpisode]
  | interrupted => simp [Answer.commits, interruptEpisode]
  | reset => simp [Answer.commits, resetTally]

theorem run_stamps {permits : Tracker → Operation → Prop} {failures successes : UInt32}
    {ops : List Operation} (h : Run permits (new failures successes) ops t) :
    ∀ stamp, t.status.lastChangedAt = some stamp → stamp < t.readings := by
  induction h with
  | nil => simp [new, Status.initial]
  | step _ _ ha ih =>
    intro stamp hs
    rcases applied_stamp (apply_eq_ok ha) with ⟨-, new, -, hlt, he⟩ | ⟨-, hle, he⟩
    · rw [he] at hs
      cases hs
      exact hlt
    · rw [he] at hs
      exact Nat.lt_of_lt_of_le (ih stamp hs) hle

theorem applied_stamped_iff (h : Applied t op u answer)
    (hold : ∀ stamp, t.status.lastChangedAt = some stamp → stamp < t.readings) :
    StampField.lastChangedAt ∈ u.stampedSince t ↔ answer.commits.isSome = true := by
  rcases applied_stamp h with ⟨hn, stamp, hle, -, he⟩ | ⟨hn, -, he⟩
  · simp [stampedSince, StampField.all, StampField.get, hn, he, hle]
  · cases hl : t.status.lastChangedAt with
    | none => simp [stampedSince, StampField.all, StampField.get, hn, he, hl]
    | some stamp =>
      have hlt := hold stamp hl
      simpa [stampedSince, StampField.all, StampField.get, hn, he, hl] using hlt

/-- What a step answers and changes, told from the history before it. -/
structure Explained (failures successes : Nat) (history : List CheckResult) (t : Tracker)
    (op : Operation) (u : Tracker) (answer : Answer) : Prop where
  failed_check : ∀ failure now, op = .recordCheck (.error failure) now → ∃ c,
    answer = .transition c ∧
    (c = .becameUnhealthy ↔ history = [] ∨ t.status.health = .healthy ∧
      LastAre failed failures (history ++ [.error failure])) ∧
    (c ≠ .becameUnhealthy → c = .unchanged)
  passed_check : ∀ latency now, op = .recordCheck (.ok latency) now → ∃ c,
    answer = .transition c ∧
    (c = .becameHealthy ↔ history = [] ∨ t.status.health = .unhealthy ∧
      LastAre succeeded successes (history ++ [.ok latency])) ∧
    (c ≠ .becameHealthy → c = .unchanged)
  failed_attempt : ∀ failure now, op = .recordAttempt (.error failure) now →
    answer = .transition .unchanged
  passed_attempt : ∀ latency now, op = .recordAttempt (.ok latency) now →
    answer = .transition .becameHealthy
  health_changes : u.status.health ≠ t.status.health ↔ answer.commits.isSome = true
  health_named : ∀ health, answer.commits = some health → u.status.health = health
  change_stamped : StampField.lastChangedAt ∈ u.stampedSince t ↔ answer.commits.isSome = true

/-- Thresholds of zero count as one. Steps that crash have no answer to explain. -/
theorem transitions_from_history (failures successes : UInt32) {ops : List Operation}
    (h : Run Orderly (new failures successes) ops t) (ho : t.Orderly op)
    (ha : t.apply op = .ok (u, answer)) :
    Explained (max failures 1).toNat (max successes 1).toNat (results ops) t op u answer := by
  have hc := run_consistent h
  have hs := run_streaks h
  have happ := apply_eq_ok ha
  obtain ⟨committed, kept⟩ := applied_health happ ho hc.reconnecting_unhealthy
  refine ⟨?_, ?_, ?_, ?_, ?_, fun health hh => (committed health hh).1, ?_⟩
  · rintro failure now rfl
    cases happ with
    | checked hk => exact ⟨_, rfl, failed_check_transition hc hs hk⟩
  · rintro latency now rfl
    cases happ with
    | checked hk => exact ⟨_, rfl, passed_check_transition hc hs hk⟩
  · rintro failure now rfl
    cases happ with
    | attempted hk => cases hk; rfl
  · rintro latency now rfl
    cases happ with
    | attempted hk => cases hk; rfl
  · cases hn : answer.commits with
    | none => simp [kept hn]
    | some health =>
      obtain ⟨he, hne⟩ := committed health hn
      simp [he, Ne.symm hne]
  · exact applied_stamped_iff happ (run_stamps h)

/-- The second success after the outage reaches the threshold, an episode or not in between. -/
theorem transitions_from_history_recovery :
    let op : Operation := .recordCheck (.ok .zero) (.clampMillis 12)
    ∃ t u, Run Orderly (new 0 2) outage t ∧ t.Orderly op ∧
      t.apply op = .ok (u, .transition .becameHealthy) ∧
      Explained 1 2 (results outage) t op u (.transition .becameHealthy) := by
  intro op
  have hs : ((follow Orderly (new 0 2) outage).map fun t =>
      (t.apply op).toOption.map Prod.snd) = some (some (.transition .becameHealthy)) := by decide
  obtain ⟨t, ht, hu⟩ := Option.map_eq_some_iff.mp hs
  obtain ⟨⟨u, answer⟩, hu, rfl⟩ := Option.map_eq_some_iff.mp hu
  have ha : t.apply op = .ok (u, .transition .becameHealthy) := by
    cases hc : t.apply op with
    | error c => simp [hc, Except.toOption] at hu
    | ok p => simpa [hc, Except.toOption] using hu
  have run : Run Orderly (new 0 2) outage t := run_of_follow .nil ht
  exact ⟨t, u, run, trivial, ha, transitions_from_history 0 2 run trivial ha⟩

end Tracker

end Liveness

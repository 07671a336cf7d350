import Liveness.Health.Tracker
/-!
# Operations and runs of a tracker

An operation that does not crash leaves one of a few trackers, which the theorems
`observe_eq_ok`, `recordCheck_eq_ok` and `recordAttempt_eq_ok` list. What is proved of all runs
goes through these. `Run` leaves open which operations are permitted when.
-/
namespace Liveness

def Status.observed (s : Status) (result : CheckResult) (stamp : Stamp) : Status :=
  match result with
  | .ok latency =>
    { s with
      lastCheckedAt := some stamp
      consecutiveSuccesses := min (s.consecutiveSuccesses + 1) streakLimit
      consecutiveFailures := 0
      lastLatency := some latency }
  | .error failure =>
    { s with
      lastCheckedAt := some stamp
      consecutiveFailures := min (s.consecutiveFailures + 1) streakLimit
      consecutiveSuccesses := 0
      lastError := some failure.message }

namespace Tracker

inductive Operation where
  | recordCheck (result : CheckResult) (now : Instant)
  | beginEpisode (now : Instant)
  | recordAttempt (result : CheckResult) (now : Instant)
  | abandonEpisode
  | interruptEpisode
  | resetTally (now : Instant)

def Operation.result? : Operation → Option CheckResult
  | .recordCheck result _ | .recordAttempt result _ => some result
  | _ => none

inductive Answer where
  | nothing
  | transition (c : Transition)
  | interrupted (wasReconnecting : Bool)
deriving DecidableEq

def Answer.commits : Answer → Option Health
  | .transition .becameHealthy => some .healthy
  | .transition .becameUnhealthy => some .unhealthy
  | _ => none

def apply (t : Tracker) : Operation → Except Crash (Tracker × Answer)
  | .recordCheck result now => (t.recordCheck result now).map fun (u, c) => (u, .transition c)
  | .beginEpisode now => .ok (t.beginEpisode now, .nothing)
  | .recordAttempt result now => (t.recordAttempt result now).map fun (u, c) => (u, .transition c)
  | .abandonEpisode => .ok (t.abandonEpisode, .nothing)
  | .interruptEpisode => .ok (t.interruptEpisode.1, .interrupted t.interruptEpisode.2)
  | .resetTally now => .ok (t.resetTally now, .nothing)

/-- Operations one after the other, each of them permitted where it is applied and none of them
crashing. -/
inductive Run (permits : Tracker → Operation → Prop) (start : Tracker) :
    List Operation → Tracker → Prop where
  | nil : Run permits start [] start
  | step {ops t op u answer} : Run permits start ops t → permits t op →
      t.apply op = .ok (u, answer) → Run permits start (ops ++ [op]) u

def follow (permits : Tracker → Operation → Prop) [∀ t op, Decidable (permits t op)] :
    Tracker → List Operation → Option Tracker
  | t, [] => some t
  | t, op :: ops =>
    if permits t op then
      match t.apply op with
      | .ok (u, _) => follow permits u ops
      | .error _ => none
    else none

theorem run_of_follow {permits : Tracker → Operation → Prop}
    [∀ t op, Decidable (permits t op)] {start t u : Tracker} {before ops : List Operation}
    (h : Run permits start before t) (hf : follow permits t ops = some u) :
    Run permits start (before ++ ops) u := by
  induction ops generalizing before t with
  | nil =>
    cases hf
    simpa using h
  | cons op ops ih =>
    unfold follow at hf
    split at hf
    · rename_i hp
      split at hf
      · rename_i v answer ha
        simpa using ih (h.step hp ha) hf
      · cases hf
    · cases hf

/-- All results recorded by the operations, of checks and attempts together. -/
def results (ops : List Operation) : List CheckResult := ops.filterMap Operation.result?

@[simp] theorem results_nil : results [] = [] := rfl

theorem results_append_singleton (ops : List Operation) (op : Operation) :
    results (ops ++ [op]) = results ops ++ op.result?.toList := by
  cases h : op.result? <;> simp [results, h]

/-- Episodes begin for an unhealthy target only, and attempts belong to an episode. -/
def Orderly (t : Tracker) : Operation → Prop
  | .beginEpisode _ => t.status.health = .unhealthy
  | .recordAttempt .. => t.status.reconnecting = true
  | _ => True

instance (t : Tracker) (op : Operation) : Decidable (t.Orderly op) := by
  cases op <;> unfold Orderly <;> infer_instance

theorem commitsHealthy_iff {t : Tracker} : t.commitsHealthy = true ↔
    t.status.health = .unknown ∨ t.status.health = .unhealthy ∧
      t.successThreshold.toNat ≤ t.status.consecutiveSuccesses := by
  unfold commitsHealthy
  cases t.status.health <;> simp

theorem commitsHealthy_eq_false_iff {t : Tracker} : t.commitsHealthy = false ↔
    t.status.health = .healthy ∨ t.status.health = .unhealthy ∧
      t.status.consecutiveSuccesses < t.successThreshold.toNat := by
  unfold commitsHealthy
  cases t.status.health <;> simp

theorem commitsUnhealthy_iff {t : Tracker} : t.commitsUnhealthy = true ↔
    t.status.health = .unknown ∨ t.status.health = .healthy ∧
      t.failureThreshold.toNat ≤ t.status.consecutiveFailures := by
  unfold commitsUnhealthy
  cases t.status.health <;> simp

theorem commitsUnhealthy_eq_false_iff {t : Tracker} : t.commitsUnhealthy = false ↔
    t.status.health = .unhealthy ∨ t.status.health = .healthy ∧
      t.status.consecutiveFailures < t.failureThreshold.toNat := by
  unfold commitsUnhealthy
  cases t.status.health <;> simp

theorem credit_eq_ok {t u : Tracker} {now : Instant} (h : t.credit now = .ok u) :
    ∃ tally, u = { t with tally, accountedAt := some now } := by
  unfold credit at h
  split at h
  · cases h
    exact ⟨t.tally, rfl⟩
  · rename_i since hs
    cases hc : creditTo t.status.health (now.since since) t.tally with
    | error c => simp [hc, Except.map] at h
    | ok tally =>
      simp only [hc, Except.map, Except.ok.injEq] at h
      exact ⟨tally, h.symm⟩

def observed (t : Tracker) (result : CheckResult) (now : Instant) (tally : Tally) : Tracker :=
  { t with
    status := t.status.observed result t.readings
    tally, accountedAt := some now, readings := t.readings + 1 }

section Observed

variable (t : Tracker) (result : CheckResult) (now : Instant) (tally : Tally)

@[simp] theorem observed_failureThreshold :
    (t.observed result now tally).failureThreshold = t.failureThreshold := rfl
@[simp] theorem observed_successThreshold :
    (t.observed result now tally).successThreshold = t.successThreshold := rfl
@[simp] theorem observed_accountedAt :
    (t.observed result now tally).accountedAt = some now := rfl
@[simp] theorem observed_episodeStart :
    (t.observed result now tally).episodeStart = t.episodeStart := rfl
@[simp] theorem observed_readings :
    (t.observed result now tally).readings = t.readings + 1 := rfl
@[simp] theorem observed_health :
    (t.observed result now tally).status.health = t.status.health := by cases result <;> rfl
@[simp] theorem observed_reconnecting :
    (t.observed result now tally).status.reconnecting = t.status.reconnecting := by
  cases result <;> rfl
@[simp] theorem observed_attempt :
    (t.observed result now tally).status.attempt = t.status.attempt := by cases result <;> rfl
@[simp] theorem observed_lastCheckedAt :
    (t.observed result now tally).status.lastCheckedAt = some t.readings := by
  cases result <;> rfl
@[simp] theorem observed_lastChangedAt :
    (t.observed result now tally).status.lastChangedAt = t.status.lastChangedAt := by
  cases result <;> rfl

variable (latency : Duration) (failure : Failure)

@[simp] theorem observed_ok_failures :
    (t.observed (.ok latency) now tally).status.consecutiveFailures = 0 := rfl
@[simp] theorem observed_ok_successes :
    (t.observed (.ok latency) now tally).status.consecutiveSuccesses =
      min (t.status.consecutiveSuccesses + 1) streakLimit := rfl
@[simp] theorem observed_error_failures :
    (t.observed (.error failure) now tally).status.consecutiveFailures =
      min (t.status.consecutiveFailures + 1) streakLimit := rfl
@[simp] theorem observed_error_successes :
    (t.observed (.error failure) now tally).status.consecutiveSuccesses = 0 := rfl
@[simp] theorem observed_error_lastError :
    (t.observed (.error failure) now tally).status.lastError = some failure.message := rfl

end Observed

theorem observe_eq_ok {t u : Tracker} {result : CheckResult} {now : Instant}
    (h : t.observe result now = .ok u) : ∃ tally, u = t.observed result now tally := by
  unfold observe at h
  cases hc : t.credit now with
  | error c => simp [hc, bind, Except.bind] at h
  | ok v =>
    obtain ⟨tally, rfl⟩ := credit_eq_ok hc
    simp only [hc, bind, Except.bind] at h
    cases result with
    | error failure =>
      cases h
      exact ⟨_, rfl⟩
    | ok latency =>
      simp only at h
      split at h
      · cases h
      · cases h
        exact ⟨_, rfl⟩

inductive Checked (o : Tracker) : CheckResult → Tracker → Transition → Prop where
  | rises {latency} : o.commitsHealthy = true →
      Checked o (.ok latency) o.becomeHealthy .becameHealthy
  | succeeds {latency} : o.commitsHealthy = false → Checked o (.ok latency) o .unchanged
  | falls {failure} : o.commitsUnhealthy = true →
      Checked o (.error failure) o.becomeUnhealthy .becameUnhealthy
  | fails {failure} : o.commitsUnhealthy = false → Checked o (.error failure) o .unchanged

theorem recordCheck_eq_ok {t u : Tracker} {result : CheckResult} {now : Instant}
    {c : Transition} (h : t.recordCheck result now = .ok (u, c)) :
    ∃ tally, Checked (t.observed result now tally) result u c := by
  unfold recordCheck at h
  cases ho : t.observe result now with
  | error e => simp [ho, bind, Except.bind] at h
  | ok o =>
    obtain ⟨tally, rfl⟩ := observe_eq_ok ho
    refine ⟨tally, ?_⟩
    simp only [ho, bind, Except.bind] at h
    cases result with
    | ok latency =>
      simp only at h
      split at h
      · rename_i hc
        cases h
        exact .rises hc
      · rename_i hc
        cases h
        exact .succeeds (by simpa using hc)
    | error failure =>
      simp only at h
      split at h
      · rename_i hc
        cases h
        exact .falls hc
      · rename_i hc
        cases h
        exact .fails (by simpa using hc)

inductive Attempted (t : Tracker) (now : Instant) : CheckResult → Tracker → Transition → Prop where
  | reconnects {latency tally} :
      Attempted t now (.ok latency) (t.observed (.ok latency) now tally).becomeHealthy
        .becameHealthy
  | fails {failure tally} :
      Attempted t now (.error failure)
        { t.observed (.error failure) now tally with
          status.attempt := t.status.attempt + 1 } .unchanged

theorem recordAttempt_eq_ok {t u : Tracker} {result : CheckResult} {now : Instant}
    {c : Transition} (h : t.recordAttempt result now = .ok (u, c)) :
    Attempted t now result u c := by
  unfold recordAttempt at h
  cases ho : t.observe result now with
  | error e => simp [ho, bind, Except.bind] at h
  | ok o =>
    obtain ⟨tally, rfl⟩ := observe_eq_ok ho
    simp only [ho, bind, Except.bind] at h
    cases result with
    | ok latency =>
      cases h
      exact .reconnects
    | error failure =>
      cases h
      exact .fails

/-- What an operation that does not crash leaves and answers. -/
inductive Applied (t : Tracker) : Operation → Tracker → Answer → Prop where
  | checked {result now tally u c} : Checked (t.observed result now tally) result u c →
      Applied t (.recordCheck result now) u (.transition c)
  | began {now} : Applied t (.beginEpisode now) (t.beginEpisode now) .nothing
  | attempted {result now u c} : Attempted t now result u c →
      Applied t (.recordAttempt result now) u (.transition c)
  | abandoned : Applied t .abandonEpisode t.abandonEpisode .nothing
  | interrupted : Applied t .interruptEpisode t.interruptEpisode.1
      (.interrupted t.status.reconnecting)
  | reset {now} : Applied t (.resetTally now) (t.resetTally now) .nothing

theorem recorded_eq_ok {record : Except Crash (Tracker × Transition)} {u : Tracker}
    {answer : Answer}
    (h : record.map (fun p => (p.1, Answer.transition p.2)) = .ok (u, answer)) :
    ∃ c, record = .ok (u, c) ∧ answer = .transition c := by
  cases record with
  | error e => cases h
  | ok p =>
    cases h
    exact ⟨p.2, rfl, rfl⟩

theorem recorded_eq_error {record : Except Crash (Tracker × Transition)} {c : Crash}
    (h : record.map (fun p => (p.1, Answer.transition p.2)) = .error c) : record = .error c := by
  cases record with
  | error e =>
    cases h
    rfl
  | ok p => cases h

theorem apply_eq_ok {t u : Tracker} {op : Operation} {answer : Answer}
    (h : t.apply op = .ok (u, answer)) : Applied t op u answer := by
  cases op with
  | recordCheck result now =>
    obtain ⟨c, hr, rfl⟩ := recorded_eq_ok h
    obtain ⟨tally, hc⟩ := recordCheck_eq_ok hr
    exact .checked hc
  | recordAttempt result now =>
    obtain ⟨c, hr, rfl⟩ := recorded_eq_ok h
    exact .attempted (recordAttempt_eq_ok hr)
  | beginEpisode now => cases h; exact .began
  | abandonEpisode => cases h; exact .abandoned
  | interruptEpisode => cases h; exact .interrupted
  | resetTally now => cases h; exact .reset

/-- A committed health is a new one, and any other step leaves the health alone. -/
theorem applied_health {t u : Tracker} {op : Operation} {answer : Answer}
    (h : Applied t op u answer) (ho : t.Orderly op)
    (hr : t.status.reconnecting = true → t.status.health = .unhealthy) :
    (∀ health, answer.commits = some health →
      u.status.health = health ∧ t.status.health ≠ health) ∧
    (answer.commits = none → u.status.health = t.status.health) := by
  cases h with
  | checked hc =>
    cases hc with
    | rises hc =>
      have hn : t.status.health ≠ .healthy := by
        rcases commitsHealthy_iff.mp hc with hc | ⟨hc, -⟩ <;> simp_all
      simp [Answer.commits, becomeHealthy, hn]
    | falls hc =>
      have hn : t.status.health ≠ .unhealthy := by
        rcases commitsUnhealthy_iff.mp hc with hc | ⟨hc, -⟩ <;> simp_all
      simp [Answer.commits, becomeUnhealthy, hn]
    | succeeds => simp [Answer.commits]
    | fails => simp [Answer.commits]
  | attempted hc =>
    have hu := hr ho
    cases hc with
    | reconnects => simp [Answer.commits, becomeHealthy, hu]
    | fails => simp [Answer.commits]
  | began => simp [Answer.commits, beginEpisode]
  | abandoned => simp [Answer.commits, abandonEpisode]
  | interrupted => simp [Answer.commits, interruptEpisode]
  | reset => simp [Answer.commits, resetTally]

end Tracker

end Liveness

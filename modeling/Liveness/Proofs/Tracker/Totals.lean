import Liveness.Event
import Liveness.Proofs.Tracker.Hysteresis
/-!
# The totals and the history

What a tally counts is read off the operations since the totals were last reset. The times in it fit
into the time that has passed, so as long as latencies do not overlap no total can overflow.
-/
namespace Liveness

namespace Tracker

variable {t u : Tracker} {result : CheckResult} {begun now : Instant} {c : Crash}

def Operation.tells? : Operation → Option EventKind
  | .beginEpisode _ => some .reconnectStarted
  | .recordAttempt (.ok _) _ => some .reconnectSuccess
  | .recordAttempt (.error _) _ => some .reconnectFailed
  | .abandonEpisode => some .reconnectAbandoned
  | .recordCheck .. | .interruptEpisode | .resetTally _ => none

def Operation.isReset : Operation → Bool
  | .resetTally _ => true
  | _ => false

def sinceReset (ops : List Operation) : List Operation := ops.rtakeWhile fun op => !op.isReset

theorem sinceReset_append_singleton (ops : List Operation) (op : Operation) :
    sinceReset (ops ++ [op]) = if op.isReset then [] else sinceReset ops ++ [op] := by
  unfold sinceReset
  rw [List.rtakeWhile_concat]
  cases op.isReset <;> rfl

theorem sinceReset_eq_self {ops : List Operation} (h : ∀ op ∈ ops, op.isReset = false) :
    sinceReset ops = ops := by
  unfold sinceReset
  rw [List.rtakeWhile_eq_self_iff]
  intro op hop
  simp [h op hop]

def told (ops : List Operation) : List EventKind := ops.filterMap Operation.tells?

@[simp] theorem told_nil : told [] = [] := rfl

theorem told_append_singleton (ops : List Operation) (op : Operation) :
    told (ops ++ [op]) = told ops ++ op.tells?.toList := by
  cases h : op.tells? <;> simp [told, h]

structure Counts (ops : List Operation) (tally : Tally) : Prop where
  probes : tally.probes = (results ops).length
  successes : tally.successes = (results ops).countP succeeded
  failures : tally.failures = (results ops).countP failed
  episodes : tally.episodes = (told ops).count .reconnectStarted
  recoveries : tally.recoveries = (told ops).count .reconnectSuccess
  abandoned : tally.abandoned = (told ops).count .reconnectAbandoned

theorem counts_empty : Counts [] .empty := by constructor <;> rfl

theorem creditTo_eq_ok {health : Health} {span : Duration} {before after : Tally}
    (h : creditTo health span before = .ok after) :
    ∃ uptime downtime, after = { before with uptime, downtime } ∧
      uptime.nanos = before.uptime.nanos + (if health = .healthy then span.nanos else 0) ∧
      downtime.nanos = before.downtime.nanos + if health = .unhealthy then span.nanos else 0 := by
  unfold creditTo at h
  split at h
  · cases h
    exact ⟨before.uptime, before.downtime, rfl, rfl, rfl⟩
  · split at h
    · rename_i uptime ht
      cases h
      exact ⟨uptime, before.downtime, rfl, Duration.nanos_add? ht, rfl⟩
    · cases h
  · split at h
    · rename_i downtime ht
      cases h
      exact ⟨before.uptime, downtime, rfl, rfl, Duration.nanos_add? ht⟩
    · cases h

theorem creditTo_fits {health : Health} {span : Duration} {before : Tally}
    (h : before.uptime.nanos + before.downtime.nanos + span.nanos < Duration.limit) :
    creditTo health span before ≠ .error c := by
  intro he
  unfold creditTo at he
  split at he
  · cases he
  all_goals
    split at he
    · cases he
    · rename_i hn
      have := Duration.add?_eq_none_iff.mp hn
      omega

/-- Nanoseconds up to the accounting point. -/
def accounted (t : Tracker) : Nat := t.accountedAt.elim 0 (·.nanos)

/-- The nanoseconds that a health is credited with at `now`: what has passed since the accounting
point, if it is the committed one. -/
def due (t : Tracker) (health : Health) (now : Instant) : Nat :=
  if t.status.health = health then t.accountedAt.elim 0 fun since => now.nanos - since.nanos else 0

theorem due_first (h : t.accountedAt = none) (health : Health) (now : Instant) :
    t.due health now = 0 := by
  simp [due, h]

theorem due_le (t : Tracker) (now : Instant) :
    t.due .healthy now + t.due .unhealthy now ≤ now.nanos - t.accounted := by
  unfold due accounted
  cases t.accountedAt with
  | none => simp
  | some since => cases t.status.health <;> simp

theorem credit_credits (h : t.credit now = .ok u) :
    ∃ uptime downtime,
      u = { t with tally := { t.tally with uptime, downtime }, accountedAt := some now } ∧
      uptime.nanos = t.tally.uptime.nanos + t.due .healthy now ∧
      downtime.nanos = t.tally.downtime.nanos + t.due .unhealthy now := by
  unfold credit at h
  split at h
  · rename_i hs
    cases h
    refine ⟨t.tally.uptime, t.tally.downtime, rfl, ?_, ?_⟩
    all_goals
      rw [due_first hs]
      rfl
  · rename_i since hs
    cases hc : creditTo t.status.health (now.since since) t.tally with
    | error c => simp [hc, Except.map] at h
    | ok tally =>
      obtain ⟨uptime, downtime, rfl, hup, hdown⟩ := creditTo_eq_ok hc
      simp only [hc, Except.map, Except.ok.injEq] at h
      refine ⟨uptime, downtime, h.symm, ?_, ?_⟩
      · simpa [due, hs, Duration.nanos_since] using hup
      · simpa [due, hs, Duration.nanos_since] using hdown

theorem credit_fits (h : t.tally.uptime.nanos + t.tally.downtime.nanos ≤ t.accounted)
    (hn : t.accounted ≤ now.nanos) : t.credit now ≠ .error c := by
  intro he
  unfold credit at he
  split at he
  · cases he
  · rename_i since hs
    have haccounted : t.accounted = since.nanos := by simp [accounted, hs]
    have hlimit := now.nanos_lt
    have hfits : creditTo t.status.health (now.since since) t.tally ≠ .error c := by
      apply creditTo_fits
      rw [Duration.nanos_since]
      omega
    cases hc : creditTo t.status.health (now.since since) t.tally with
    | error d =>
      simp only [hc, Except.map, Except.error.injEq] at he
      exact hfits (he ▸ hc)
    | ok tally => simp [hc, Except.map] at he

def latencyNanos : CheckResult → Nat
  | .ok latency => latency.nanos
  | .error _ => 0

theorem latencyNanos_ok (latency : Duration) : latencyNanos (.ok latency) = latency.nanos := rfl

structure Observed (result : CheckResult) (healthy unhealthy : Nat) (before after : Tally) :
    Prop where
  probes : after.probes = before.probes + 1
  successes : after.successes = before.successes + [result].countP succeeded
  failures : after.failures = before.failures + [result].countP failed
  episodes : after.episodes = before.episodes
  recoveries : after.recoveries = before.recoveries
  abandoned : after.abandoned = before.abandoned
  uptime : after.uptime.nanos = before.uptime.nanos + healthy
  downtime : after.downtime.nanos = before.downtime.nanos + unhealthy
  latencies : after.latencyTotal.nanos = before.latencyTotal.nanos + latencyNanos result

/-- No more time is credited than has passed since the accounting point. -/
theorem Observed.time {before after : Tally}
    (h : Observed result (t.due .healthy now) (t.due .unhealthy now) before after) :
    after.uptime.nanos + after.downtime.nanos ≤
      before.uptime.nanos + before.downtime.nanos + (now.nanos - t.accounted) := by
  have hdue := t.due_le now
  rw [h.uptime, h.downtime]
  omega

theorem observe_observed (h : t.observe result now = .ok u) :
    Observed result (t.due .healthy now) (t.due .unhealthy now) t.tally u.tally ∧
      u.accountedAt = some now := by
  unfold observe at h
  cases hc : t.credit now with
  | error c => simp [hc, bind, Except.bind] at h
  | ok v =>
    obtain ⟨uptime, downtime, rfl, hup, hdown⟩ := credit_credits hc
    simp only [hc, bind, Except.bind] at h
    cases result with
    | error failure =>
      cases h
      exact ⟨⟨rfl, rfl, rfl, rfl, rfl, rfl, hup, hdown, rfl⟩, rfl⟩
    | ok latency =>
      simp only at h
      split at h
      · cases h
      · rename_i total ht
        cases h
        exact ⟨⟨rfl, rfl, rfl, rfl, rfl, rfl, hup, hdown, Duration.nanos_add? ht⟩, rfl⟩

/-- If the time can be credited, nothing but a latency can be too long to be added. -/
theorem observe_error (hfits : t.credit now ≠ .error c) (h : t.observe result now = .error c) :
    ∃ latency, result = .ok latency ∧
      Duration.limit ≤ t.tally.latencyTotal.nanos + latency.nanos := by
  unfold observe at h
  cases hc : t.credit now with
  | error d =>
    simp only [hc, bind, Except.bind] at h
    exact absurd (hc.trans h) hfits
  | ok v =>
    obtain ⟨uptime, downtime, rfl, -⟩ := credit_credits hc
    simp only [hc, bind, Except.bind] at h
    cases result with
    | error failure => cases h
    | ok latency =>
      simp only at h
      split at h
      · rename_i hn
        exact ⟨latency, rfl, Duration.add?_eq_none_iff.mp hn⟩
      · cases h

/-- The times of a tally fit into the time up to `now`, and the latencies end before `begun`. -/
structure Timely (begun now : Instant) (t : Tracker) : Prop where
  begun_le : begun.nanos ≤ now.nanos
  accounted_le : t.accounted ≤ now.nanos
  credited : t.tally.uptime.nanos + t.tally.downtime.nanos ≤ t.accounted
  latencies : t.tally.latencyTotal.nanos ≤ begun.nanos

theorem Timely.observe_fits (h : t.Timely begun now)
    (hr : latencyNanos result ≤ now.nanos - begun.nanos) : t.observe result now ≠ .error c := by
  intro he
  have hfits : t.credit now ≠ .error c := credit_fits h.credited h.accounted_le
  obtain ⟨latency, rfl, hover⟩ := observe_error hfits he
  -- the latency lies between the beginning of the check and now
  have hbegun := h.begun_le
  have hlatencies := h.latencies
  have hlimit := now.nanos_lt
  have hlatency : latency.nanos ≤ now.nanos - begun.nanos := hr
  omega

theorem Timely.observed (h : t.Timely begun now)
    (hr : latencyNanos result ≤ now.nanos - begun.nanos) (ho : t.observe result now = .ok u) :
    u.Timely now now := by
  obtain ⟨hobserved, haccounted⟩ := observe_observed ho
  have hu : u.accounted = now.nanos := by simp [accounted, haccounted]
  have htime := hobserved.time
  have hlatencies := hobserved.latencies
  obtain ⟨hbegun, hle, hcredited, htotal⟩ := h
  exact ⟨Nat.le_refl _, by omega, by omega, by omega⟩

/-- A record passes on what has been observed, with so many recoveries more. -/
def PassesOn (recoveries : Nat) (observed : Except Crash Tracker)
    (record : Except Crash (Tracker × Transition)) : Prop :=
  match observed with
  | .error c => record = .error c
  | .ok o => ∃ u transition, record = .ok (u, transition) ∧
      u.tally = { o.tally with recoveries := o.tally.recoveries + recoveries } ∧
      u.accountedAt = o.accountedAt

/-- What a check commits has no effect on the totals. -/
theorem recordCheck_passesOn (t : Tracker) (result : CheckResult) (now : Instant) :
    PassesOn 0 (t.observe result now) (t.recordCheck result now) := by
  unfold recordCheck
  cases t.observe result now with
  | error c => rfl
  | ok o =>
    cases result with
    | ok latency =>
      by_cases hc : o.commitsHealthy = true
      · exact ⟨o.becomeHealthy, .becameHealthy, if_pos hc, rfl, rfl⟩
      · exact ⟨o, .unchanged, if_neg hc, rfl, rfl⟩
    | error failure =>
      by_cases hc : o.commitsUnhealthy = true
      · exact ⟨o.becomeUnhealthy, .becameUnhealthy, if_pos hc, rfl, rfl⟩
      · exact ⟨o, .unchanged, if_neg hc, rfl, rfl⟩

theorem recordAttempt_passesOn (t : Tracker) (result : CheckResult) (now : Instant) :
    PassesOn ([result].countP succeeded) (t.observe result now) (t.recordAttempt result now) := by
  unfold recordAttempt
  cases t.observe result now with
  | error c => rfl
  | ok o =>
    cases result with
    | ok latency => exact ⟨_, .becameHealthy, rfl, rfl, rfl⟩
    | error failure => exact ⟨_, .unchanged, rfl, rfl, rfl⟩

/-- What has been observed is all that a record adds to a tally, but for the recoveries. -/
theorem PassesOn.observed {recoveries : Nat} {record : Except Crash (Tracker × Transition)}
    {transition : Transition} (hp : PassesOn recoveries (t.observe result now) record)
    (h : record = .ok (u, transition)) :
    ∃ tally, Observed result (t.due .healthy now) (t.due .unhealthy now) t.tally tally ∧
      u.tally = { tally with recoveries := tally.recoveries + recoveries } ∧
      u.accountedAt = some now := by
  cases ho : t.observe result now with
  | error e =>
    rw [ho] at hp
    cases h.symm.trans hp
  | ok o =>
    rw [ho] at hp
    obtain ⟨v, _, hv, htally, haccounted⟩ := hp
    cases h.symm.trans hv
    obtain ⟨hobserved, hnow⟩ := observe_observed ho
    exact ⟨o.tally, hobserved, htally, haccounted.trans hnow⟩

/-- A record crashes on what it has observed, and on nothing else. -/
theorem PassesOn.error {recoveries : Nat} {record : Except Crash (Tracker × Transition)}
    (hp : PassesOn recoveries (t.observe result now) record) (h : record = .error c) :
    t.observe result now = .error c := by
  cases ho : t.observe result now with
  | error e =>
    rw [ho] at hp
    cases hp.symm.trans h
    rfl
  | ok o =>
    rw [ho] at hp
    obtain ⟨v, _, hv, -⟩ := hp
    cases h.symm.trans hv

section Timely

theorem Timely.of_times {v : Tracker} (h : t.Timely begun now)
    (hu : v.tally.uptime = t.tally.uptime) (hd : v.tally.downtime = t.tally.downtime)
    (hl : v.tally.latencyTotal = t.tally.latencyTotal) (ha : v.accountedAt = t.accountedAt) :
    v.Timely begun now := by
  have haccounted : v.accounted = t.accounted := by simp only [accounted, ha]
  obtain ⟨hbegun, hle, hcredited, htotal⟩ := h
  refine ⟨hbegun, ?_, ?_, ?_⟩
  · rw [haccounted]
    exact hle
  · rw [haccounted, hu, hd]
    exact hcredited
  · rw [hl]
    exact htotal

/-- What ran in its own time can be recorded, and the times still fit. -/
theorem Timely.recorded {recoveries : Nat} {record : Except Crash (Tracker × Transition)}
    (h : t.Timely begun now) (hr : latencyNanos result ≤ now.nanos - begun.nanos)
    (hp : PassesOn recoveries (t.observe result now) record) :
    ∃ u transition, record = .ok (u, transition) ∧ u.Timely now now := by
  cases ho : t.observe result now with
  | error e => exact (h.observe_fits hr ho).elim
  | ok o =>
    rw [ho] at hp
    obtain ⟨u, transition, hu, htally, haccounted⟩ := hp
    refine ⟨u, transition, hu, (h.observed hr ho).of_times ?_ ?_ ?_ haccounted⟩
    all_goals rw [htally]

/-- Time passes while the check goes on. -/
theorem Timely.later {later : Instant} (h : t.Timely begun now) (hn : now.nanos ≤ later.nanos) :
    t.Timely begun later := by
  obtain ⟨hbegun, hle, hcredited, htotal⟩ := h
  exact ⟨by omega, by omega, hcredited, htotal⟩

/-- Where no check is in flight, none has to be waited for. -/
theorem Timely.fresh (h : t.Timely begun now) : t.Timely now now := by
  obtain ⟨hbegun, hle, hcredited, htotal⟩ := h
  exact ⟨Nat.le_refl _, hle, hcredited, by omega⟩

theorem Timely.resetTally (h : t.Timely begun now) : (t.resetTally now).Timely begun now := by
  refine ⟨h.begun_le, ?_, Nat.zero_le _, Nat.zero_le _⟩
  cases ha : t.accountedAt <;> simp [Tracker.resetTally, accounted, ha]

theorem timely_new {failures successes : UInt32} : (new failures successes).Timely now now :=
  ⟨Nat.le_refl _, Nat.zero_le _, Nat.zero_le _, Nat.zero_le _⟩

end Timely

structure Adds (op : Operation) (before after : Tally) : Prop where
  probes : after.probes = before.probes + op.result?.toList.length
  successes : after.successes = before.successes + op.result?.toList.countP succeeded
  failures : after.failures = before.failures + op.result?.toList.countP failed
  episodes : after.episodes = before.episodes + op.tells?.toList.count .reconnectStarted
  recoveries : after.recoveries = before.recoveries + op.tells?.toList.count .reconnectSuccess
  abandoned : after.abandoned = before.abandoned + op.tells?.toList.count .reconnectAbandoned

section Counts

variable {op : Operation} {answer : Answer} {ops : List Operation}

/-- One lemma for checks and attempts: they differ in what they tell of. -/
theorem PassesOn.adds {recoveries : Nat} {record : Except Crash (Tracker × Transition)}
    {transition : Transition} (hp : PassesOn recoveries (t.observe result now) record)
    (h : record = .ok (u, transition)) (hop : op.result? = some result)
    (hstarted : op.tells?.toList.count .reconnectStarted = 0)
    (hrecovered : op.tells?.toList.count .reconnectSuccess = recoveries)
    (habandoned : op.tells?.toList.count .reconnectAbandoned = 0) : Adds op t.tally u.tally := by
  obtain ⟨tally, hobserved, htally, -⟩ := hp.observed h
  rw [htally]
  constructor
  · rw [hop]
    exact hobserved.probes
  · rw [hop]
    exact hobserved.successes
  · rw [hop]
    exact hobserved.failures
  · rw [hstarted]
    exact hobserved.episodes
  · rw [hrecovered]
    exact congrArg (· + recoveries) hobserved.recoveries
  · rw [habandoned]
    exact hobserved.abandoned

theorem apply_adds (h : t.apply op = .ok (u, answer)) (hr : op.isReset = false) :
    Adds op t.tally u.tally := by
  cases op with
  | recordCheck result now =>
    obtain ⟨c, hv, -⟩ := recorded_eq_ok h
    exact (t.recordCheck_passesOn result now).adds hv rfl rfl rfl rfl
  | recordAttempt result now =>
    obtain ⟨c, hv, -⟩ := recorded_eq_ok h
    refine (t.recordAttempt_passesOn result now).adds hv rfl ?_ ?_ ?_
    all_goals cases result <;> rfl
  | resetTally now => cases hr
  | _ =>
    cases h
    constructor <;> rfl

theorem Counts.adds {before after : Tally} (h : Counts ops before) (ha : Adds op before after) :
    Counts (ops ++ [op]) after := by
  constructor
  · rw [results_append_singleton, List.length_append, ha.probes, h.probes]
  · rw [results_append_singleton, List.countP_append, ha.successes, h.successes]
  · rw [results_append_singleton, List.countP_append, ha.failures, h.failures]
  · rw [told_append_singleton, List.count_append, ha.episodes, h.episodes]
  · rw [told_append_singleton, List.count_append, ha.recoveries, h.recoveries]
  · rw [told_append_singleton, List.count_append, ha.abandoned, h.abandoned]

/-- What holds of no operations and the empty tally, and of one operation more if it is no reset,
holds of the operations since the totals were reset. -/
theorem run_sinceReset {P : List Operation → Tally → Prop} {permits : Tracker → Operation → Prop}
    {failures successes : UInt32} (hempty : P [] .empty)
    (hadds : ∀ {t u : Tracker} {op answer ops}, t.apply op = .ok (u, answer) →
      op.isReset = false → P ops t.tally → P (ops ++ [op]) u.tally)
    (h : Run permits (new failures successes) ops t) : P (sinceReset ops) t.tally := by
  induction h with
  | nil => exact hempty
  | @step ops t op u answer _ _ ha ih =>
    rw [sinceReset_append_singleton]
    cases hr : op.isReset with
    | false => exact hadds ha hr ih
    | true =>
      cases op with
      | resetTally now =>
        cases ha
        exact hempty
      | _ => cases hr

/-- The counters count exactly what has happened since the totals were reset. -/
theorem run_counts {permits : Tracker → Operation → Prop} {failures successes : UInt32}
    (h : Run permits (new failures successes) ops t) : Counts (sinceReset ops) t.tally :=
  run_sinceReset counts_empty (fun ha hr hc => hc.adds (apply_adds ha hr)) h

end Counts

end Tracker

end Liveness

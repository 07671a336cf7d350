import Liveness.Proofs.Monitor.Course
/-!
# The time since the first start

No time is credited before a loop has been started, and no check runs. So the times in the totals
fit into the time since the first start, however often the loop has been stopped and the totals
have been reset since then. A step does nothing to the times but to record the check that was in
flight (`Timed`), and checks do not overlap.
-/
namespace Liveness

open Tracker (ResetAt Timely PassesOn latencyNanos)

namespace Tracker

variable {t u v : Tracker} {result : CheckResult} {origin begun now : Instant}

/-- The times of a tally fit between `origin` and the accounting point, or the beginning of the
check in flight. -/
structure Since (origin begun now : Instant) (t : Tracker) : Prop extends Timely begun now t where
  origin_le : origin.nanos ≤ begun.nanos
  uncredited : t.accountedAt = none → t.tally.uptime.nanos + t.tally.downtime.nanos = 0
  creditedSince : ∀ point, t.accountedAt = some point →
    t.tally.uptime.nanos + t.tally.downtime.nanos + origin.nanos ≤ point.nanos
  latenciesSince : t.tally.latencyTotal.nanos + origin.nanos ≤ begun.nanos

namespace Since

theorem observed (h : t.Since origin begun now)
    (hr : latencyNanos result ≤ now.nanos - begun.nanos) (ho : t.observe result now = .ok u) :
    u.Since origin now now := by
  obtain ⟨hobserved, haccounted⟩ := observe_observed ho
  have htime := hobserved.time
  have hlatencies := hobserved.latencies
  have hbegun := h.begun_le
  have horigin := h.origin_le
  have htotal := h.latenciesSince
  refine ⟨h.toTimely.observed hr ho, by omega, ?_, ?_, by omega⟩
  · intro hnone
    rw [haccounted] at hnone
    cases hnone
  · intro point hpoint
    rw [haccounted] at hpoint
    cases hpoint
    cases ha : t.accountedAt with
    | none =>
      -- there is no accounting point before the first result, so no time is credited
      have huptime := hobserved.uptime
      have hdowntime := hobserved.downtime
      have hzero := h.uncredited ha
      rw [due_first ha] at huptime hdowntime
      omega
    | some point =>
      have hle := h.accounted_le
      have hcredited := h.creditedSince point ha
      have hpoint : t.accounted = point.nanos := by simp [accounted, ha]
      omega

theorem of_times (h : t.Since origin begun now)
    (hu : v.tally.uptime = t.tally.uptime) (hd : v.tally.downtime = t.tally.downtime)
    (hl : v.tally.latencyTotal = t.tally.latencyTotal) (ha : v.accountedAt = t.accountedAt) :
    v.Since origin begun now := by
  refine ⟨h.toTimely.of_times hu hd hl ha, h.origin_le, ?_, ?_, ?_⟩
  · rw [hu, hd, ha]
    exact h.uncredited
  · rw [hu, hd, ha]
    exact h.creditedSince
  · rw [hl]
    exact h.latenciesSince

theorem recorded {recoveries : Nat} {transition : Transition} (h : t.Since origin begun now)
    (hr : latencyNanos result ≤ now.nanos - begun.nanos)
    (hp : PassesOn recoveries (t.observe result now) (.ok (u, transition))) :
    u.Since origin now now := by
  cases ho : t.observe result now with
  | error e =>
    rw [ho] at hp
    cases hp
  | ok o =>
    rw [ho] at hp
    obtain ⟨u, transition, hu, htally, haccounted⟩ := hp
    cases hu
    refine (h.observed hr ho).of_times ?_ ?_ ?_ haccounted
    all_goals rw [htally]

theorem later {later : Instant} (h : t.Since origin begun now) (hn : now.nanos ≤ later.nanos) :
    t.Since origin begun later :=
  ⟨h.toTimely.later hn, h.origin_le, h.uncredited, h.creditedSince, h.latenciesSince⟩

theorem fresh (h : t.Since origin begun now) : t.Since origin now now := by
  have hbegun := h.begun_le
  have horigin := h.origin_le
  have htotal := h.latenciesSince
  exact ⟨h.toTimely.fresh, by omega, h.uncredited, h.creditedSince, by omega⟩

theorem resetTally (h : t.Since origin begun now) : (t.resetTally now).Since origin begun now := by
  have hbegun := h.begun_le
  have horigin := h.origin_le
  refine ⟨h.toTimely.resetTally, horigin, fun _ => rfl, ?_, ?_⟩
  · intro point hpoint
    obtain ⟨-, -, rfl⟩ := Option.map_eq_some_iff.mp hpoint
    have hzero : (t.resetTally now).tally.uptime.nanos +
        (t.resetTally now).tally.downtime.nanos = 0 := rfl
    omega
  · have hzero : (t.resetTally now).tally.latencyTotal.nanos = 0 := rfl
    omega

theorem of_resetAt (h : t.Since origin begun now) (hr : ResetAt now t u) :
    u.Since origin begun now := by
  rcases hr with rfl | rfl
  · exact h
  · exact h.resetTally

theorem elapsed (h : t.Since origin begun now) :
    t.tally.uptime.nanos + t.tally.downtime.nanos ≤ (now.since origin).nanos ∧
      t.tally.latencyTotal.nanos ≤ (now.since origin).nanos := by
  rw [Duration.nanos_since]
  have hbegun := h.begun_le
  have hle := h.accounted_le
  have htotal := h.latenciesSince
  refine ⟨?_, by omega⟩
  cases ha : t.accountedAt with
  | none =>
    have hzero := h.uncredited ha
    omega
  | some point =>
    have hcredited := h.creditedSince point ha
    have hpoint : t.accounted = point.nanos := by simp [accounted, ha]
    omega

end Since

def TimesSince (origin now : Nat) (check : Option Check) (t : Tracker) : Prop :=
  t.Since (instantAt origin) (instantAt (check.elim now Check.startedAt)) (instantAt now)

theorem Timed.since {origin now : Nat} {before after : Option Check}
    (h : t.TimesSince origin now before) (ht : Timed now before after t u) :
    u.TimesSince origin now after := by
  cases ht with
  | keeps hu hd hl ha hc =>
    have htimes := h.of_times hu hd hl ha
    unfold TimesSince
    rcases hc with hc | hc
    · rw [hc]
      exact htimes.fresh
    · rw [hc]
      exact htimes
  | records hr hp hn =>
    rw [hn]
    exact h.recorded hr hp

end Tracker

variable {s : Settings} {rule : EpisodeRule} {now : Nat} {t u : Tracker} {event : Option Event}

namespace Monitor

variable {m m' : Monitor} {j : Journal} {steps : List (Monitor × Move)} {origin : Nat}

def Move.isStart : Move → Bool
  | .start => true
  | _ => false

def firstStart? (steps : List (Monitor × Move)) : Option Nat :=
  (steps.find? fun p => p.2.isStart).map (·.1.now)

theorem firstStart?_append_singleton (steps : List (Monitor × Move)) (m : Monitor) (move : Move) :
    firstStart? (steps ++ [(m, move)]) =
      (firstStart? steps).or (if move.isStart then some m.now else none) := by
  unfold firstStart?
  rw [List.find?_append, Option.map_or]
  cases h : move.isStart <;> simp [h]

structure Untouched (m : Monitor) : Prop where
  runner : m.runner = .idle
  accountedAt : m.tracker.accountedAt = none
  time : m.tracker.tally.uptime.nanos + m.tracker.tally.downtime.nanos = 0
  latencies : m.tracker.tally.latencyTotal.nanos = 0

def TimesSince (origin : Nat) (m : Monitor) : Prop :=
  m.tracker.TimesSince origin m.now (m.runner.loop?.bind ControlLoop.check?)

theorem Untouched.next {move : Move} (h : m.Untouched) (hm : move.isStart = false) :
    (m.next move).1.Untouched := by
  have hr := h.runner
  cases move with
  | turn =>
    simp only [Monitor.next, turn, hr]
    exact h
  | stop =>
    simp only [Monitor.next, stop, hr]
    exact h
  | drop =>
    refine ⟨?_, h.accountedAt, h.time, h.latencies⟩
    simp only [Monitor.next, drop, hr]
  | start => cases hm
  | reset =>
    refine ⟨hr, ?_, rfl, rfl⟩
    have ha := h.accountedAt
    simp only [Monitor.next, resetTally, tracker, Tracker.resetTally] at ha ⊢
    rw [ha]
    rfl
  | _ => exact ⟨hr, h.accountedAt, h.time, h.latencies⟩

/-- The first start is the origin of all times. -/
theorem Untouched.start (h : m.Untouched) : (m.next .start).1.TimesSince m.now := by
  have hr := h.runner
  have henact := enacted m m.world [.log (.monitoringStarted m.settings.interval)]
    (.live .unstarted)
  have htimes : m.tracker.TimesSince m.now m.now none := by
    have haccounted : m.tracker.accounted = 0 := by simp [Tracker.accounted, h.accountedAt]
    have htime := h.time
    have hlatencies := h.latencies
    refine ⟨⟨Nat.le_refl _, ?_, ?_, ?_⟩, Nat.le_refl _, fun _ => htime, ?_, ?_⟩
    · omega
    · omega
    · omega
    · intro point hpoint
      rw [h.accountedAt] at hpoint
      cases hpoint
    · simp only [Option.elim_none]
      omega
  unfold TimesSince
  simp only [Monitor.next, Monitor.start, hr]
  rw [henact.runner, henact.now]
  exact htimes.of_resetAt henact.tracker

theorem TimesSince.moved (h : m.TimesSince origin) (hn : m.now ≤ m'.now) (hm : Moved m m' j) :
    m'.TimesSince origin := by
  unfold TimesSince at h ⊢
  cases hm with
  | keeps hr _ ht =>
    rw [hr]
    have hlater := (h.of_resetAt ht).later (instantAt_mono hn)
    unfold Tracker.TimesSince
    cases hc : m.runner.loop?.bind ControlLoop.check? with
    | some c =>
      rw [hc] at hlater
      exact hlater
    | none => exact hlater.fresh
  | begins _ he =>
    rw [he.runner, he.now]
    have htimes : m.tracker.TimesSince origin m.now none := h.fresh
    exact htimes.of_resetAt he.tracker
  | @progresses l t event next _ hl hp he =>
    rw [hl] at h
    have htimes := hp.timed.since h
    rw [he.runner, he.now]
    cases next with
    | going l' => exact htimes.of_resetAt he.tracker
    | left => exact absurd rfl hp.ne_left
    | crashed c => exact htimes.of_resetAt he.tracker
  | @ends t runner _ _ hr ht he =>
    have hnone : runner.loop? = none := by
      cases runner with
      | live l => exact absurd rfl (hr l)
      | _ => rfl
    have htimes : t.TimesSince origin m.now none := by
      rcases ht with rfl | rfl
      · exact h.fresh
      · exact h.fresh.of_times rfl rfl rfl rfl
    rw [he.runner, he.now, hnone]
    exact htimes.of_resetAt he.tracker

/-- At every moment all times fit into the time since the first start, and there are none before. -/
theorem Course.timesSince (h : Course s steps j m) :
    (firstStart? steps = none → m.Untouched) ∧
      ∀ origin, firstStart? steps = some origin → m.TimesSince origin := by
  induction h with
  | new hn =>
    obtain ⟨-, -, -, hr, ht⟩ := new_eq_ok hn
    refine ⟨fun _ => ⟨hr, ?_, ?_, ?_⟩, nofun⟩
    all_goals
      rw [ht]
      rfl
  | @move steps j m move _ he ih =>
    obtain ⟨hbefore, hsince⟩ := ih
    rw [firstStart?_append_singleton]
    cases hfirst : firstStart? steps with
    | some origin =>
      refine ⟨nofun, ?_⟩
      rintro _ ⟨⟩
      exact (hsince origin hfirst).moved (next_now he) (Monitor.moved he)
    | none =>
      have huntouched := hbefore hfirst
      by_cases hs : move.isStart = true
      · have hstart : move = .start := by
          cases move with
          | start => rfl
          | _ => cases hs
        rw [hstart]
        refine ⟨nofun, ?_⟩
        rintro _ ⟨⟩
        exact huntouched.start
      · simp only [hs]
        exact ⟨fun _ => huntouched.next (by simpa using hs), nofun⟩

end Monitor

end Liveness

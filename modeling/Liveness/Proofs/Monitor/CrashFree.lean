import Liveness.Proofs.Monitor.Elapsed
import Liveness.Proofs.Monitor.EventOrder
import Liveness.Proofs.Monitor.Records
/-!
# A monitor does not crash by itself

What could break off a loop, besides a panic of its target, is an operation of its own: an empty
interval or range, an episode of a target that is not unhealthy, an attempt too many to count, a
total that overflows. None of them happens. The totals of durations fit into the time that has
passed, and the counters count no more than the checks that have begun: every episode and its
end come after a check of their own.
-/
namespace Liveness

open Tracker (results told sinceReset)

/-- A delay is the base delay, or words are drawn for it from a range that is not empty. -/
theorem Policy.delay_draws (p : Policy) (attempt : Nat) (e : Entropy) :
    p.delay attempt e = (p.baseDelay attempt, e) ∨
      0 < (p.baseDelay attempt).nanos ∧
        (p.delay attempt e).2 = (e.draw (p.baseDelay attempt).nanos).2 := by
  by_cases h : (!p.jitter || decide ((p.baseDelay attempt).nanos = 0)) = true
  · left
    simp only [delay, if_pos h]
  · right
    have hpos : 0 < (p.baseDelay attempt).nanos := by
      simp only [Bool.or_eq_true, decide_eq_true_eq, not_or] at h
      omega
    refine ⟨hpos, ?_⟩
    simp only [delay, if_neg h]

structure Tally.CountsUpTo (limit : Nat) (t : Tally) : Prop where
  probes : t.probes ≤ limit
  successes : t.successes ≤ limit
  failures : t.failures ≤ limit
  episodes : t.episodes ≤ limit
  recoveries : t.recoveries ≤ limit
  abandoned : t.abandoned ≤ limit

theorem Tally.CountsUpTo.mono {low high : Nat} {t : Tally} (h : t.CountsUpTo low)
    (hl : low ≤ high) : t.CountsUpTo high := by
  obtain ⟨hprobes, hsuccesses, hfailures, hepisodes, hrecoveries, habandoned⟩ := h
  constructor <;> omega

def Episode.nextAttempt? : Episode → Option Nat
  | .backingOff attempts _ | .attempting attempts _ => some (attempts + 1)
  | _ => none

theorem instantAt_since (now origin : Nat) :
    ((instantAt now).since (instantAt origin)).nanos ≤ (now - origin) * 1000000 := by
  rw [Duration.nanos_since]
  unfold instantAt Duration.clampMillis Duration.clampNanos
  split <;> split <;> simp only <;> omega

def EventKind.isOnce : EventKind → Bool
  | .reconnectStarted | .reconnectSuccess | .reconnectAbandoned => true
  | _ => false

def Episode.owes (kind : EventKind) : Episode → Nat
  | .opening => 1
  | .recovered _ => 0
  | _ => if kind = .reconnectStarted then 0 else 1

def Episode.Next.owes (kind : EventKind) : Episode.Next → Nat
  | .going e => e.owes kind
  | .ended _ | .crashed _ => 0

def ControlLoop.owes (kind : EventKind) : ControlLoop → Nat
  | .reconnecting e => e.owes kind
  | _ => 0

def ControlLoop.Next.owes (kind : EventKind) : ControlLoop.Next → Nat
  | .going l => l.owes kind
  | .left | .crashed _ => 0

def EventKind.among (kind : EventKind) (event : Option Event) : Nat :=
  (event.map Event.kind).toList.count kind

theorem EventKind.among_some (kind : EventKind) (e : Event) :
    kind.among (some e) = if e.kind = kind then 1 else 0 := by
  simp [among, List.count_singleton]

section Owed

variable {s : Settings} {rule : EpisodeRule} {now : Nat} {t u : Tracker} {event : Option Event}
  {kind : EventKind}

/-- What comes of an episode has been owed. -/
theorem Episode.Progress.owed {e : Episode} {next : Episode.Next} (hk : kind.isOnce = true)
    (h : Progress rule now e t u event next) :
    kind.among event + next.owes kind ≤ e.owes kind := by
  cases h with
  | opens | givesUp | fails | reconnects | announces =>
    -- one event, which is of this kind or not
    rw [EventKind.among_some]
    cases kind <;> simp_all [EventKind.isOnce, Event.reconnectStarted, Event.reconnectAbandoned,
      Event.reconnectFailed, Event.reconnectSuccess, Event.healthy, Next.owes, owes]
  | dies | overflows => exact Nat.zero_le _
  | _ => exact Nat.le_of_eq (Nat.zero_add _)

/-- Only the end of a check brings in what may come of an episode. -/
theorem ControlLoop.Progress.owed {l : ControlLoop} {next : ControlLoop.Next}
    (hk : kind.isOnce = true) (h : Progress s now l t u event next) :
    kind.among event + next.owes kind ≤ l.owes kind ∨
      kind.among event + next.owes kind ≤ l.owes kind + 1 ∧ l.check?.isSome = true ∧
        next.check? = none := by
  cases h with
  | rises =>
    left
    rw [EventKind.among_some]
    cases kind <;> simp_all [EventKind.isOnce, Event.healthy, Next.owes, owes]
  | falls =>
    right
    rw [EventKind.among_some]
    refine ⟨?_, rfl, ?_⟩
    · cases kind <;> by_cases ha : s.autoReconnect = true <;>
        simp_all [EventKind.isOnce, Event.unhealthy, Next.owes, owes, Episode.owes]
    · by_cases ha : s.autoReconnect = true
      · rw [if_pos ha]
        rfl
      · rw [if_neg ha]
        rfl
  | continues he | leaves he | breaks he => exact Or.inl (he.owed hk)
  | _ => exact Or.inl (Nat.zero_le _)

end Owed

namespace Monitor

variable {s : Settings} {steps : List (Monitor × Move)} {j : Journal} {m m' : Monitor}
  {kind : EventKind}

def owes (kind : EventKind) (m : Monitor) : Nat :=
  match m.runner with
  | .live l => l.owes kind
  | _ => 0

theorem Enacted.announced {t : Tracker} {told : List Mark} {runner : Runner}
    (h : Enacted m t told runner m' j) : Journal.announced j = told.filterMap Mark.kind? := by
  unfold Journal.announced
  rw [h.marks, List.filterMap_map]
  rfl

theorem announced_of (kind : EventKind) (event : Option Event) :
    ((announcing event).filterMap Mark.kind?).count kind = kind.among event := by
  cases event <;> rfl

/-- A move announces what was owed, unless a check has ended or begun meanwhile. -/
theorem Moved.owed (hk : kind.isOnce = true) (hm : Moved m m' j) :
    (Journal.announced j).count kind + m'.owes kind ≤ m.owes kind ∨
      (Journal.announced j).count kind + m'.owes kind ≤ m.owes kind + 1 ∧
        m.inFlight = 1 ∧ m'.inFlight = 0 := by
  cases hm with
  | keeps hr =>
    left
    unfold owes
    rw [hr]
    exact Nat.le_of_eq (Nat.zero_add _)
  | begins _ he =>
    left
    rw [he.announced]
    unfold owes
    rw [he.runner]
    exact Nat.zero_le _
  | @ends t runner _ _ hr _ he =>
    left
    have howes : m'.owes kind = 0 := by
      unfold owes
      rw [he.runner]
      cases runner with
      | live l => exact absurd rfl (hr l)
      | _ => rfl
    rw [he.announced, howes]
    exact Nat.zero_le _
  | @progresses l t event next _ hl hp he =>
    have hbefore : m.owes kind = l.owes kind := by simp [owes, hl]
    have hafter : m'.owes kind = next.owes kind := by
      unfold owes
      rw [he.runner]
      cases next <;> rfl
    rw [he.announced, announced_of, hbefore, hafter]
    rcases hp.owed hk with howed | ⟨howed, hc, hn⟩
    · exact Or.inl howed
    · right
      obtain ⟨check, hcheck⟩ := Option.isSome_iff_exists.mp hc
      refine ⟨howed, ?_, ?_⟩
      · simp [inFlight, hl, Runner.check?, hcheck]
      · unfold inFlight
        rw [he.runner]
        cases next with
        | going l' =>
          have hnone : l'.check? = none := hn
          simp [runnerAfter, Runner.check?, hnone]
        | _ => rfl

/-- Every event that may come once of an episode comes after a check of its own. -/
theorem Course.owed (hk : kind.isOnce = true) (h : Course s steps j m) :
    (Journal.announced j).count kind + m.owes kind + m.inFlight ≤
      (checkTurns steps).count .begun := by
  induction h with
  | new hn =>
    obtain ⟨-, -, -, hr, -⟩ := new_eq_ok hn
    simp [Journal.announced, owes, inFlight, hr, Runner.check?]
  | @move steps j m move _ he ih =>
    have hleads := (next_leads m move).count
    have hmoved := (moved he).owed hk
    rw [Journal.announced_append, checkTurns_append_singleton, List.count_append,
      List.count_append]
    have hflight : (m.next move).1.inFlight = (m.next move).1.runner.check?.toList.length := rfl
    have hbefore : m.inFlight = m.runner.check?.toList.length := rfl
    rcases hmoved with howed | ⟨howed, hone, hzero⟩
    · omega
    · omega

/-- No counter of the tally exceeds the checks that have begun. -/
theorem Course.counted (h : Course s steps j m) :
    m.tracker.tally.CountsUpTo ((checkTurns steps).count .begun) := by
  obtain ⟨ops, hrun, hresults, htold, -⟩ := h.records
  obtain ⟨hprobes, hsuccesses, hfailures, hepisodes, hrecoveries, habandoned⟩ :=
    Tracker.run_counts hrun
  have hbalance := h.balance
  have hkept : (sinceReset ops).Sublist ops := (List.rtakeWhile_suffix _ _).sublist
  have hrecorded : (results (sinceReset ops)).length ≤ (checkTurns steps).count .begun := by
    have hlength := (hkept.filterMap Tracker.Operation.result?).length_le
    change (results (sinceReset ops)).length ≤ (results ops).length at hlength
    rw [hresults] at hlength
    omega
  have announced {kind : EventKind} (hk : kind.isOnce = true) :
      (told (sinceReset ops)).count kind ≤ (checkTurns steps).count .begun := by
    have hcount := (hkept.filterMap Tracker.Operation.tells?).count_le kind
    change (told (sinceReset ops)).count kind ≤ (told ops).count kind at hcount
    have hreconnect : kind.isReconnect = true := by
      cases kind <;> first | rfl | cases hk
    have hall : (told ops).count kind = (Journal.announced j).count kind := by
      rw [htold]
      exact List.count_filter hreconnect
    have howed := h.owed hk
    omega
  have hcountP (p : CheckResult → Bool) : (results (sinceReset ops)).countP p ≤
      (checkTurns steps).count .begun := Nat.le_trans List.countP_le_length hrecorded
  constructor
  · rw [hprobes]
    exact hrecorded
  · rw [hsuccesses]
    exact hcountP _
  · rw [hfailures]
    exact hcountP _
  · rw [hepisodes]
    exact announced rfl
  · rw [hrecoveries]
    exact announced rfl
  · rw [habandoned]
    exact announced rfl

theorem step_uncrashed (hs : m.runner.Safe) (ht : m.OnTime) {l : ControlLoop}
    {turn : Turn ControlLoop.Next} (hl : m.runner = .live l)
    (h : l.step m.settings m.now m.world = some turn) (c : Crash) : turn.next ≠ .crashed c := by
  intro hc
  obtain ⟨event, hp, -⟩ := ControlLoop.progress_of_step h
  unfold OnTime at ht
  rw [hl] at ht
  exact (hp.onTime ht).2 c hc (hs l hl)

theorem next_uncrashed {move : Move} (hs : m.runner.Safe) (ht : m.OnTime)
    (hr : ∀ panicked, m.runner ≠ .ended panicked) (panicked : Bool) :
    (m.next move).1.runner ≠ .ended panicked := by
  cases move with
  | turn =>
    cases hrunner : m.runner with
    | live l =>
      cases hstep : l.step m.settings m.now m.world with
      | none =>
        simp only [next, turn, hrunner, hstep]
        exact hr panicked
      | some t =>
        have hgoes := step_uncrashed hs ht hrunner hstep
        simp only [next, turn, hrunner, hstep, Option.map_some, Option.getD_some]
        cases hn : t.next with
        | going l' => simp [enact]
        | left => exact absurd hn (ControlLoop.step_ne_left hstep)
        | crashed c => exact (hgoes c hn).elim
    | severed l =>
      simp [next, turn, hrunner, enact]
    | idle =>
      simp only [next, turn, hrunner]
      exact hr panicked
    | ended panicked => exact (hr panicked hrunner).elim
  | start =>
    simp only [next, start]
    split
    · exact hr panicked
    · exact hr panicked
    all_goals simp [enact]
  | stop =>
    simp only [next, stop]
    split
    · exact hr panicked
    · exact hr panicked
    all_goals simp [enact]
  | drop =>
    simp only [next, drop]
    split
    all_goals simp
  | _ => exact hr panicked

theorem Course.uncrashed (h : Course s steps j m)
    (hb : ∀ p ∈ steps, p.1.world.backend.NeverPanics) :
    ∀ panicked, m.runner ≠ .ended panicked := by
  induction h with
  | new hn =>
    obtain ⟨-, -, -, hr, -⟩ := new_eq_ok hn
    rw [hr]
    exact nofun
  | move move hc _ ih =>
    obtain ⟨hbefore, -⟩ := List.forall_mem_append.mp hb
    exact next_uncrashed (hc.safe hbefore) hc.life.onTime (ih hbefore)

def elapsed (steps : List (Monitor × Move)) (m : Monitor) : Nat :=
  (firstStart? steps).elim 0 fun origin => (m.now - origin) * 1000000

/-- Nothing that the loop does now breaks it off. All that it counts is in range: attempts are counted
in 32 bits, and everything else in 64. -/
structure CrashFree (elapsed : Nat) (m : Monitor) : Prop where
  interval : Duration.zero < m.settings.interval
  unhealthy : m.runner = .live (.reconnecting .opening) → m.tracker.status.health = .unhealthy
  draws : ∀ attempt e,
    m.settings.policy.delay attempt e = (m.settings.policy.baseDelay attempt, e) ∨
      0 < (m.settings.policy.baseDelay attempt).nanos ∧
        (m.settings.policy.delay attempt e).2 =
          (e.draw (m.settings.policy.baseDelay attempt).nanos).2
  attempts : ∀ e n, m.runner = .live (.reconnecting e) → e.nextAttempt? = some n →
    n = m.tracker.status.attempt + 1 ∧ n ≤ Nat.pow 2 32 - 1
  time : m.tracker.tally.uptime.nanos + m.tracker.tally.downtime.nanos ≤ elapsed
  latencies : m.tracker.tally.latencyTotal.nanos ≤ elapsed
  counters : m.tracker.tally.CountsUpTo (Nat.pow 2 64 - 1)
  alive : ∀ panicked, m.runner ≠ .ended panicked
  goesOn : ∀ l turn, m.runner = .live l → l.step m.settings m.now m.world = some turn →
    ∀ c, turn.next ≠ .crashed c

theorem Standing.attempts (h : m.Standing) {e : Episode} {n : Nat}
    (hr : m.runner = .live (.reconnecting e)) (hn : e.nextAttempt? = some n) :
    n = m.tracker.status.attempt + 1 ∧ n ≤ Nat.pow 2 32 - 1 := by
  have hfits := h.fits
  have hmax := m.settings.policy.maxAttempts.toNat_lt
  rw [hr] at hfits
  obtain ⟨-, hfits⟩ := hfits
  have bound (attempts : Nat) (ha : m.tracker.InEpisode attempts)
      (hlt : attempts < m.settings.policy.maxAttempts.toNat) :
      attempts + 1 = m.tracker.status.attempt + 1 ∧ attempts + 1 ≤ Nat.pow 2 32 - 1 := by
    have hpow : Nat.pow 2 32 = 2 ^ 32 := rfl
    have hattempt := ha.attempt
    omega
  cases e with
  | backingOff attempts until_ =>
    cases hn
    exact bound attempts hfits.1 hfits.2
  | attempting attempts check =>
    cases hn
    exact bound attempts hfits.1 hfits.2
  | _ => cases hn

theorem Course.elapsed_times (h : Course s steps j m) :
    m.tracker.tally.uptime.nanos + m.tracker.tally.downtime.nanos ≤ elapsed steps m ∧
      m.tracker.tally.latencyTotal.nanos ≤ elapsed steps m := by
  obtain ⟨hbefore, hsince⟩ := h.timesSince
  unfold elapsed
  cases hfirst : firstStart? steps with
  | none =>
    have huntouched := hbefore hfirst
    exact ⟨Nat.le_of_eq huntouched.time, Nat.le_of_eq huntouched.latencies⟩
  | some origin =>
    obtain ⟨htime, hlatencies⟩ := (hsince origin hfirst).elapsed
    have hspan := instantAt_since m.now origin
    rw [Option.elim_some]
    exact ⟨Nat.le_trans htime hspan, Nat.le_trans hlatencies hspan⟩

/-- Against a target that never panics, and before the counters of checks are full, a loop of settings
that pass their check never crashes: whatever users and subscribers do. -/
theorem Course.crash_free (h : Course s steps j m)
    (hb : ∀ p ∈ steps, p.1.world.backend.NeverPanics)
    (hn : (checkTurns steps).count .begun < Nat.pow 2 64) : m.CrashFree (elapsed steps m) := by
  have hstanding := h.life.standing
  obtain ⟨htime, hlatencies⟩ := h.elapsed_times
  constructor
  · exact Duration.zero_lt_ofMillis (UInt64.ne_zero_iff.mpr hstanding.valid.interval)
  · intro hr
    have hfits := hstanding.fits
    rw [hr] at hfits
    exact hfits.2.1
  · exact m.settings.policy.delay_draws
  · intro e n
    exact hstanding.attempts
  · exact htime
  · exact hlatencies
  · exact h.counted.mono (Nat.le_sub_one_of_lt hn)
  · exact h.uncrashed hb
  · intro l turn hl hstep
    exact step_uncrashed (h.safe hb) h.life.onTime hl hstep

/-- An outage that is found late, with a subscriber that panics. The totals are reset in the episode,
one attempt fails, and the second is in flight. -/
def lateOutage : List Move :=
  [.register ⟨"fragile", false, fun _ => .panic .other⟩, .pass 2, .start, .turn, .turn, .turn,
    .turn, .turn, .reset, .pass 3, .turn, .turn, .turn, .pass 4, .turn]

theorem Course.crash_free_late : ∃ steps j m, Course eagerSettings steps j m ∧
    (checkTurns steps).count .begun = 3 ∧ m.tracker.status.attempt = 1 ∧
    m.tracker.tally.downtime.nanos = 1000000 ∧ elapsed steps m = 2000000 ∧
    m.CrashFree 2000000 := by
  obtain ⟨steps, j, m, hc, -, hb, hbegun, hattempt, hdowntime, helapsed⟩ :=
    Course.of_follow eagerSettings failingTwice default 1 lateOutage
      (fun steps _ m => (∀ p ∈ steps, p.1.world.backend.NeverPanics) ∧
        (checkTurns steps).count .begun = 3 ∧ m.tracker.status.attempt = 1 ∧
        m.tracker.tally.downtime.nanos = 1000000 ∧ elapsed steps m = 2000000)
      (by decide +kernel)
  have hn : (checkTurns steps).count .begun < Nat.pow 2 64 := by
    rw [hbegun]
    decide
  exact ⟨steps, j, m, hc, hbegun, hattempt, hdowntime, helapsed, helapsed ▸ hc.crash_free hb hn⟩

end Monitor

end Liveness

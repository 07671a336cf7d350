import Liveness.Proofs.Monitor.Life
import Liveness.Proofs.Settings.Valid
import Liveness.Proofs.Tracker.Consistency
/-!
# How a loop and its tracker stand to each other

The loop uses its tracker in order, and wherever the loop is, the tracker fits: it shows an episode
exactly while one is in progress, with as many failed attempts as the episode has counted. That
holds in every life, whatever episodes have been cut short or have crashed before.
-/
namespace Liveness

open Tracker (ResetAt)

namespace Tracker

def Reachable (failures successes : UInt32) (t : Tracker) : Prop :=
  ∃ ops, Run Orderly (new failures successes) ops t

section Reachable

variable {failures successes : UInt32} {t u : Tracker}

theorem reachable_new : Reachable failures successes (new failures successes) := ⟨[], .nil⟩

theorem Reachable.apply {answer : Answer} (h : Reachable failures successes t)
    (op : Operation) (ho : t.Orderly op) (ha : t.apply op = .ok (u, answer)) :
    Reachable failures successes u := by
  obtain ⟨ops, hr⟩ := h
  exact ⟨ops ++ [op], hr.step ho ha⟩

theorem Reachable.checked {result : CheckResult} {now : Instant} {c : Transition}
    (h : Reachable failures successes t) (hc : t.recordCheck result now = .ok (u, c)) :
    Reachable failures successes u := by
  have ha : t.apply (.recordCheck result now) = .ok (u, .transition c) := by
    simp [Tracker.apply, hc, Except.map]
  exact h.apply (.recordCheck result now) trivial ha

theorem Reachable.attempted {result : CheckResult} {now : Instant} {c : Transition}
    (h : Reachable failures successes t) (hr : t.status.reconnecting = true)
    (hc : t.recordAttempt result now = .ok (u, c)) : Reachable failures successes u := by
  have ha : t.apply (.recordAttempt result now) = .ok (u, .transition c) := by
    simp [Tracker.apply, hc, Except.map]
  exact h.apply (.recordAttempt result now) hr ha

theorem Reachable.interrupted (h : Reachable failures successes t) :
    Reachable failures successes t.interruptEpisode.1 :=
  h.apply .interruptEpisode trivial rfl

theorem Reachable.of_resetAt {now : Instant} (h : Reachable failures successes t)
    (hr : ResetAt now t u) : Reachable failures successes u := by
  rcases hr with rfl | rfl
  · exact h
  · exact h.apply (.resetTally now) trivial rfl

theorem Reachable.unhealthy (h : Reachable failures successes t)
    (hr : t.status.reconnecting = true) : t.status.health = .unhealthy := by
  obtain ⟨ops, hops⟩ := h
  exact (run_consistent hops).reconnecting_unhealthy hr

/-- A check that commits a health finds another one, and any other leaves it alone. -/
theorem Reachable.check_health {result : CheckResult} {now : Instant} {c : Transition}
    (h : Reachable failures successes t) (hc : t.recordCheck result now = .ok (u, c)) :
    (∀ health, (Answer.transition c).commits = some health →
      u.status.health = health ∧ t.status.health ≠ health) ∧
    ((Answer.transition c).commits = none → u.status.health = t.status.health) := by
  obtain ⟨tally, hk⟩ := recordCheck_eq_ok hc
  have ha : Applied t (.recordCheck result now) u (.transition c) := .checked hk
  exact applied_health ha trivial h.unhealthy

end Reachable

structure InEpisode (t : Tracker) (attempts : Nat) : Prop where
  health : t.status.health = .unhealthy
  reconnecting : t.status.reconnecting = true
  attempt : t.status.attempt = attempts

structure Recovered (t : Tracker) : Prop where
  health : t.status.health = .healthy
  reconnecting : t.status.reconnecting = false
  attempt : t.status.attempt = 0
  failures : t.status.consecutiveFailures = 0

end Tracker

open Tracker (Reachable)

variable {s : Settings} {rule : EpisodeRule} {now : Nat} {t u : Tracker} {event : Option Event}

def Episode.Fits (p : Policy) (now : Nat) (t : Tracker) : Episode → Prop
  | .opening => t.status.health = .unhealthy ∧ t.status.reconnecting = false
  | .deciding attempts =>
    t.InEpisode attempts ∧ (attempts = 0 → t.episodeStart = some (instantAt now))
  | .backingOff attempts _ | .attempting attempts _ =>
    t.InEpisode attempts ∧ attempts < p.maxAttempts.toNat
  | .recovered _ => t.Recovered

def ControlLoop.Fits (s : Settings) (now : Nat) (t : Tracker) : ControlLoop → Prop
  | .reconnecting e => s.autoReconnect = true ∧ e.Fits s.policy now t
  | _ => True

def Runner.Fits (s : Settings) (now : Nat) (t : Tracker) : Runner → Prop
  | .live l => l.Fits s now t
  | _ => True

theorem Episode.Fits.of_resetAt {p : Policy} {e : Episode} {i : Instant} (h : e.Fits p now t)
    (hr : ResetAt i t u) : e.Fits p now u := by
  rcases hr with rfl | rfl
  · exact h
  · cases e with
    | opening => exact h
    | deciding attempts => exact ⟨⟨h.1.health, h.1.reconnecting, h.1.attempt⟩, h.2⟩
    | backingOff attempts until_ => exact ⟨⟨h.1.health, h.1.reconnecting, h.1.attempt⟩, h.2⟩
    | attempting attempts check => exact ⟨⟨h.1.health, h.1.reconnecting, h.1.attempt⟩, h.2⟩
    | recovered attempts => exact ⟨h.health, h.reconnecting, h.attempt, h.failures⟩

theorem Runner.Fits.of_resetAt {r : Runner} {i : Instant} (h : r.Fits s now t)
    (hr : ResetAt i t u) : r.Fits s now u := by
  cases r with
  | live l =>
    cases l with
    | reconnecting e => exact ⟨h.1, h.2.of_resetAt hr⟩
    | _ => trivial
  | _ => trivial

theorem Runner.Fits.at_rest {r : Runner} (h : r.Fits s now t) (hr : r.atRest = true)
    (later : Nat) : r.Fits s later t := by
  cases r with
  | live l =>
    cases l with
    | reconnecting e =>
      cases e with
      | backingOff attempts until_ => exact h
      | attempting attempts check => exact h
      | _ => cases hr
    | _ => trivial
  | _ => trivial

theorem mayTry_iff {p : Policy} {attempts : Nat} {elapsed : Duration} :
    Episode.mayTry p attempts elapsed = true ↔
      attempts < p.maxAttempts.toNat ∧ ∀ limit ∈ p.maxElapsed, elapsed < limit := by
  unfold Episode.mayTry
  cases p.maxElapsed <;> simp

/-- One of the budgets is used up where an episode may not try again. -/
theorem mayTry_eq_false_iff {p : Policy} {attempts : Nat} {elapsed : Duration}
    (hle : attempts ≤ p.maxAttempts.toNat) : Episode.mayTry p attempts elapsed = false ↔
      attempts = p.maxAttempts.toNat ∨ ∃ limit ∈ p.maxElapsed, limit ≤ elapsed := by
  rw [← Bool.not_eq_true, mayTry_iff]
  constructor
  · intro h
    by_cases hlast : attempts = p.maxAttempts.toNat
    · exact Or.inl hlast
    · refine Or.inr (Classical.byContradiction fun hnone => h ?_)
      refine ⟨Nat.lt_of_le_of_ne hle hlast, ?_⟩
      intro limit hl
      exact Nat.lt_of_not_le fun hreached => hnone ⟨limit, hl, hreached⟩
  · rintro (rfl | ⟨limit, hl, hreached⟩) ⟨hlt, htime⟩
    · exact Nat.lt_irrefl _ hlt
    · exact Nat.not_lt_of_le hreached (htime limit hl)

theorem mayTry_attempts {p : Policy} {attempts : Nat} {elapsed : Duration}
    (h : Episode.mayTry p attempts elapsed = true) : attempts < p.maxAttempts.toNat :=
  (mayTry_iff.mp h).1

theorem Duration.zero_lt_ofMillis {ms : UInt64} (h : ms ≠ 0) :
    Duration.zero < Duration.ofMillis ms := by
  change 0 < ms.toNat * 1000000
  have := UInt64.ne_zero_iff.mp h
  omega

/-- However low the ceiling on its time, an episode may try at once. -/
theorem Policy.mayTry_at_once {p : Policy} (ha : 0 < p.maxAttempts.toNat) :
    Episode.mayTry p 0 .zero = true := by
  refine mayTry_iff.mpr ⟨ha, ?_⟩
  intro limit hl
  unfold maxElapsed at hl
  split at hl
  · cases hl
  · rename_i hz
    cases hl
    exact Duration.zero_lt_ofMillis hz

theorem Tracker.InEpisode.failed {attempts : Nat} {failure : Failure} {i : Instant}
    {c : Transition} (h : t.InEpisode attempts)
    (hr : t.recordAttempt (.error failure) i = .ok (u, c)) : u.InEpisode (attempts + 1) := by
  cases recordAttempt_eq_ok hr with
  | fails =>
    refine ⟨?_, ?_, ?_⟩
    · simpa using h.health
    · simpa using h.reconnecting
    · simpa using h.attempt

theorem Tracker.recovered_of_attempt {latency : Duration} {i : Instant} {c : Transition}
    (hr : t.recordAttempt (.ok latency) i = .ok (u, c)) : u.Recovered := by
  cases recordAttempt_eq_ok hr with
  | reconnects => exact ⟨rfl, rfl, rfl, rfl⟩

theorem Tracker.recovered_of_check {result : CheckResult} {i : Instant}
    (hr : t.recordCheck result i = .ok (u, .becameHealthy)) : u.Recovered := by
  obtain ⟨tally, hc⟩ := recordCheck_eq_ok hr
  cases hc with
  | rises => exact ⟨rfl, rfl, rfl, rfl⟩

/-- A check commits unhealthy only while no episode is in progress. -/
theorem Tracker.Reachable.fallen {f g : UInt32} {failure : Failure} {i : Instant}
    (h : Reachable f g t) (hr : t.recordCheck (.error failure) i = .ok (u, .becameUnhealthy)) :
    u.status.health = .unhealthy ∧ u.status.reconnecting = false ∧
      u.status.lastError = some failure.message := by
  obtain ⟨tally, hc⟩ := recordCheck_eq_ok hr
  cases hc with
  | falls hc =>
    refine ⟨rfl, ?_, rfl⟩
    -- in an episode the target is unhealthy already
    have hn : t.status.reconnecting ≠ true := by
      intro hr
      rw [commitsUnhealthy_iff, observed_health, h.unhealthy hr] at hc
      simp at hc
    simpa [becomeUnhealthy] using hn

section Progress

variable {f g : UInt32}

theorem Episode.Progress.reachable {e : Episode} {next : Episode.Next}
    (he : e.Fits rule.policy now t) (ht : Reachable f g t)
    (h : Progress rule now e t u event next) : Reachable f g u := by
  cases h with
  | opens => exact ht.apply (.beginEpisode _) he.1 rfl
  | givesUp hm => exact ht.apply .abandonEpisode trivial rfl
  | fails hs hn hr => exact ht.attempted he.1.reconnecting hr
  | reconnects hs hn hr => exact ht.attempted he.1.reconnecting hr
  | _ => exact ht

theorem Episode.Progress.fits {e e' : Episode} (he : e.Fits rule.policy now t)
    (h : Progress rule now e t u event (.going e')) : e'.Fits rule.policy now u := by
  cases h with
  | opens => exact ⟨⟨he.1, rfl, rfl⟩, fun _ => rfl⟩
  | waits hm => exact ⟨he.1, mayTry_attempts hm⟩
  | tries hu => exact he
  | checks hs hn => exact he
  | fails hs hn hr => exact ⟨he.1.failed hr, by simp⟩
  | reconnects hs hn hr => exact Tracker.recovered_of_attempt hr

theorem ControlLoop.Progress.reachable {l : ControlLoop} {next : ControlLoop.Next}
    (hl : l.Fits s now t) (ht : Reachable f g t) (h : Progress s now l t u event next) :
    Reachable f g u := by
  cases h with
  | keeps hs hn hr => exact ht.checked hr
  | rises hs hn hr => exact ht.checked hr
  | falls hs hn hr => exact ht.checked hr
  | continues he => exact he.reachable hl.2 ht
  | leaves he => exact he.reachable hl.2 ht
  | breaks he => exact he.reachable hl.2 ht
  | _ => exact ht

theorem ControlLoop.Progress.fits {l l' : ControlLoop} (hl : l.Fits s now t)
    (ht : Reachable f g t) (h : Progress s now l t u event (.going l')) : l'.Fits s now u := by
  cases h with
  | falls hs hn hr =>
    split
    · rename_i ha
      obtain ⟨hu, hr, -⟩ := ht.fallen hr
      exact ⟨ha, hu, hr⟩
    · trivial
  | continues he => exact ⟨hl.1, he.fits hl.2⟩
  | _ => trivial

end Progress

structure Monitor.Standing (m : Monitor) : Prop where
  valid : m.settings.Valid
  tracker : Reachable m.settings.failureThreshold m.settings.successThreshold m.tracker
  fits : m.runner.Fits m.settings m.now m.tracker

namespace Monitor

theorem standing_new {b : Backend} {e : Entropy} {levels : Nat} {m : Monitor}
    (h : Monitor.new s b e levels = .ok m) : m.Standing := by
  obtain ⟨hs, hm, -, hr, ht⟩ := new_eq_ok h
  refine ⟨hm ▸ Settings.check_eq_ok_iff.mp hs, ?_, ?_⟩
  · rw [ht, hm]
    exact Tracker.reachable_new
  · rw [hr]
    trivial

theorem Standing.moved {m m' : Monitor} {j : Journal} (h : m.Standing)
    (hs : m'.settings = m.settings) (hm : Moved m m' j) : m'.Standing := by
  refine ⟨hs ▸ h.valid, ?_, ?_⟩
  all_goals rw [hs]
  · cases hm with
    | keeps _ _ hr => exact h.tracker.of_resetAt hr
    | begins _ he => exact h.tracker.of_resetAt he.tracker
    | progresses hl hp he =>
      have hf := h.fits
      rw [hl] at hf
      exact (hp.reachable hf h.tracker).of_resetAt he.tracker
    | ends _ _ ht he =>
      rcases ht with rfl | rfl
      · exact h.tracker.of_resetAt he.tracker
      · exact h.tracker.interrupted.of_resetAt he.tracker
  · cases hm with
    | keeps hr hn ht =>
      rw [hr]
      refine Runner.Fits.of_resetAt ?_ ht
      rcases hn with hn | hn
      · rw [hn]
        exact h.fits
      · exact h.fits.at_rest hn _
    | begins _ he =>
      rw [he.runner]
      trivial
    | @progresses l t event next _ hl hp he =>
      have hf := h.fits
      rw [hl] at hf
      rw [he.runner, he.now]
      cases next with
      | going l' => exact Runner.Fits.of_resetAt (hp.fits hf h.tracker) he.tracker
      | _ => trivial
    | @ends t runner _ _ hr _ he =>
      rw [he.runner]
      cases runner with
      | live l => exact absurd rfl (hr l)
      | _ => trivial

theorem Life.standing {j : Journal} {m : Monitor} (h : Life s j m) : m.Standing := by
  induction h with
  | new hn => exact standing_new hn
  | move move _ he ih => exact ih.moved (next_settings _ move) (Monitor.moved he)

end Monitor

end Liveness

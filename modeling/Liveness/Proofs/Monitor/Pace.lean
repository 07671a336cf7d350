import Liveness.Proofs.Episode.Endurance
import Liveness.Proofs.Monitor.Standing
/-!
# The pace of the loop

A loop that is woken on time is never late by more than the schedule tolerates, and makes only so
many steps before it waits again.
-/
namespace Liveness

variable {s : Settings} {rule : EpisodeRule} {now : Nat} {t u : Tracker} {event : Option Event}

/-- How many steps an episode makes while no time passes, at most. -/
def Episode.rank (maxAttempts : Nat) : Episode → Nat
  | .opening => 4 * maxAttempts + 2
  | .deciding attempts => 4 * (maxAttempts - attempts) + 1
  | .backingOff attempts _ => 4 * (maxAttempts - attempts)
  | .attempting attempts check => 4 * (maxAttempts - attempts) + check.rank - 3
  | .recovered _ => 1

theorem Episode.Progress.rank_lt {e e' : Episode} (he : e.Fits rule.policy now t)
    (h : Progress rule now e t u event (.going e')) :
    e'.rank rule.policy.maxAttempts.toNat < e.rank rule.policy.maxAttempts.toNat := by
  cases h with
  | opens => simp [rank]
  | waits hm => simp [rank]
  | @tries _ attempts _ b hu =>
    have hk := he.2
    have hc := (Check.start rule.check now b).1.rank_le
    simp only [rank]
    omega
  | checks hs hn =>
    have hk := he.2
    have hc := (Check.step_going hs hn).1
    simp only [rank]
    omega
  | @fails _ _ attempts check _ _ _ _ hs hn hr =>
    have hk := he.2
    have hc := check.rank_pos
    simp only [rank]
    omega
  | @reconnects _ _ attempts check _ _ _ _ _ hs hn hr =>
    have hk := he.2
    have hc := check.rank_pos
    simp only [rank]
    omega

theorem Episode.Progress.rank_pos {e : Episode} {next : Episode.Next}
    (he : e.Fits rule.policy now t) (h : Progress rule now e t u event next) :
    0 < e.rank rule.policy.maxAttempts.toNat := by
  cases e with
  | opening => simp [rank]
  | deciding attempts => simp [rank]
  | backingOff attempts until_ =>
    have hk := he.2
    simp only [rank]
    omega
  | attempting attempts check =>
    have hk := he.2
    have hc := check.rank_pos
    simp only [rank]
    omega
  | recovered attempts => simp [rank]

/-- Ticks are on time, up to what the schedule tolerates, and a check is over before the next. -/
def ControlLoop.Punctual (s : Settings) (now : Nat) : ControlLoop → Prop
  | .awaiting due => tickTolerance < s.period ∨ now ≤ due
  | .checking nextTick check =>
    now ≤ check.deadline ∧ (tickTolerance < s.period ∨ check.deadline ≤ nextTick)
  | _ => True

/-- How many steps the loop makes while no time passes, at most. A tick that is due at the end of a
check is followed by one that is not. -/
def ControlLoop.rank (s : Settings) (now : Nat) : ControlLoop → Nat
  | .unstarted => 4 * s.policy.maxAttempts.toNat + 6
  | .awaiting due => if now < due then 0 else 4 * s.policy.maxAttempts.toNat + 5
  | .checking nextTick check =>
    4 * s.policy.maxAttempts.toNat + 2 + check.rank + (if now < nextTick then 0 else 3)
  | .reconnecting e => e.rank s.policy.maxAttempts.toNat

theorem Settings.Valid.period_pos (hs : s.Valid) : 0 < s.period := by
  have := hs.interval
  unfold Settings.period Clock.wait Clock.longestWait
  omega

theorem Settings.Valid.timeout_le_period (hs : s.Valid)
    (hp : ¬ControlLoop.tickTolerance < s.period) : s.timeout.millisUp ≤ s.period := by
  have ht := hs.timeout_le
  have hm : s.timeout.millisUp = s.timeoutMs.toNat := by
    simp only [Settings.timeout, Duration.millisUp, Duration.ofMillis]
    omega
  rw [hm]
  unfold Settings.period Clock.wait Clock.longestWait ControlLoop.tickTolerance at *
  omega

theorem ControlLoop.now_lt_tickAfter {period due : Nat} (hp : 0 < period)
    (hd : tickTolerance < period ∨ now ≤ due) : now < tickAfter period due now := by
  unfold tickAfter
  split <;> omega

theorem ControlLoop.Progress.punctual {l l' : ControlLoop} (hs : s.Valid)
    (hl : l.Punctual s now) (h : Progress s now l t u event (.going l')) : l'.Punctual s now := by
  cases h with
  | begins => exact Or.inr (Nat.le_refl _)
  | @ticks _ due b hd =>
    have hdeadline : (Check.start s.checkRule now b).1.deadline = now + s.timeout.millisUp :=
      Check.start_deadline
    simp only [Punctual] at hl ⊢
    rw [hdeadline]
    refine ⟨Nat.le_add_right .., ?_⟩
    -- ticks that are closer than the tolerance come on time
    by_cases hp : tickTolerance < s.period
    · exact Or.inl hp
    · have ht := hs.timeout_le_period hp
      unfold tickAfter
      split <;> omega
  | checks hc hn =>
    simp only [Punctual] at hl ⊢
    rw [(Check.step_going hc hn).2]
    exact hl
  | keeps => exact hl.2.imp_right (Nat.le_trans hl.1)
  | rises => exact hl.2.imp_right (Nat.le_trans hl.1)
  | falls =>
    split
    · trivial
    · exact hl.2.imp_right (Nat.le_trans hl.1)
  | continues => trivial
  | leaves => exact Or.inr (Nat.le_add_right ..)

theorem ControlLoop.Progress.rank_lt {l l' : ControlLoop} (hs : s.Valid) (hf : l.Fits s now t)
    (hl : l.Punctual s now) (h : Progress s now l t u event (.going l')) :
    l'.rank s now < l.rank s now := by
  have next {nextTick : Nat} {check : Check} :
      (awaiting nextTick).rank s now < (checking nextTick check).rank s now := by
    have := check.rank_pos
    simp only [rank]
    split <;> omega
  cases h with
  | begins => simp [rank]
  | @ticks _ due b hd =>
    have ht := now_lt_tickAfter hs.period_pos hl
    have hc := (Check.start s.checkRule now b).1.rank_le
    simp only [rank, if_pos ht, if_neg (Nat.not_lt.mpr hd)]
    omega
  | checks hc hn =>
    have := (Check.step_going hc hn).1
    simp only [rank]
    omega
  | keeps => exact next
  | rises => exact next
  | @falls _ _ _ check =>
    split
    · have := check.rank_pos
      simp only [rank, Episode.rank]
      omega
    · exact next
  | continues hp => exact hp.rank_lt hf.2
  | leaves hp =>
    -- the schedule starts anew, so the loop waits
    have ht : now < now + s.period := Nat.lt_add_of_pos_right hs.period_pos
    have he := hp.rank_pos hf.2
    simp only [rank, if_pos ht]
    exact he

theorem ControlLoop.Progress.rank_pos {l : ControlLoop} {c : Crash} (hf : l.Fits s now t)
    (h : Progress s now l t u event (.crashed c)) : 0 < l.rank s now := by
  cases h with
  | dies =>
    simp only [rank]
    omega
  | overflows =>
    simp only [rank]
    omega
  | breaks hp => exact hp.rank_pos hf.2

theorem ControlLoop.waits {l : ControlLoop} {w : World} (h : l.step s now w = none) :
    l.isCancellable = true ∧ now < l.wakeAt now := by
  cases l with
  | unstarted => cases h
  | awaiting due =>
    simp only [step] at h
    split at h
    · exact ⟨rfl, ‹_›⟩
    · cases h
  | checking nextTick check =>
    simp only [step, Option.map_eq_none_iff] at h
    exact ⟨rfl, Check.waits h⟩
  | reconnecting e =>
    simp only [step, Option.map_eq_none_iff] at h
    exact ⟨Episode.cancellable_of_waits h, (Episode.step_waits h).1⟩

end Liveness

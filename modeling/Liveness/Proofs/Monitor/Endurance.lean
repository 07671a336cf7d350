import Liveness.Proofs.Episode.Endurance
import Liveness.Proofs.Monitor.Standing
/-!
# A loop lasts until it is stopped

A control loop crashes on a panic of its target and on nothing else: the times that it counts fit
into the time that has passed, in every life. Against a target that never panics it goes on for as
long as nobody stops it.
-/
namespace Liveness

variable {s : Settings} {now : Nat} {t u : Tracker} {event : Option Event}

namespace ControlLoop

variable {l : ControlLoop} {w : World} {turn : Turn Next}

def Safe (l : ControlLoop) : Prop := ∀ c, l.check? = some c → c.Safe

theorem Progress.timed {next : Next}
    (h : Progress s now l t u event next) : t.Timed now l.check? next.check? u := by
  cases h with
  | begins | dies | overflows => exact .keeps rfl rfl rfl rfl (Or.inl rfl)
  | ticks => exact .keeps rfl rfl rfl rfl (Or.inl Check.start_startedAt)
  | checks hs hn => exact .keeps rfl rfl rfl rfl (Or.inr (Check.step_startedAt hs hn))
  | keeps hs hn hr | rises hs hn hr =>
    exact .records (Check.step_latency hs hn) (hr ▸ t.recordCheck_passesOn _ _) rfl
  | falls hs hn hr =>
    refine .records (Check.step_latency hs hn) (hr ▸ t.recordCheck_passesOn _ _) ?_
    by_cases ha : s.autoReconnect = true
    · rw [if_pos ha]
      rfl
    · rw [if_neg ha]
      rfl
  | continues he | leaves he | breaks he => exact he.timed

theorem Progress.crashed_unsafe {c : Crash} (ht : t.OnTime now l.check?)
    (h : Progress s now l t u event (.crashed c)) : ¬l.Safe := by
  cases h with
  | @dies _ nextTick check _ _ hs hn =>
    intro hsafe
    exact Check.not_safe_of_crashed hs hn (hsafe check rfl)
  | overflows hs hn hr =>
    obtain ⟨u, c, hu, -⟩ := ht.recordCheck hs hn
    cases hr.symm.trans hu
  | breaks he => exact he.crashed_unsafe ht

theorem Progress.onTime {next : Next} (ht : t.OnTime now l.check?)
    (h : Progress s now l t u event next) :
    u.OnTime now next.check? ∧ ∀ c, next = .crashed c → ¬l.Safe := by
  refine ⟨ht.timed h.timed, ?_⟩
  rintro c rfl
  exact h.crashed_unsafe ht

theorem step_safe (hl : l.Safe) (hb : w.backend.NeverPanics) (h : l.step s now w = some turn) :
    turn.world.backend.NeverPanics ∧ ∀ l', turn.next = .going l' → l'.Safe := by
  obtain ⟨hbackend, hsafe⟩ := (step_happens h).safe hl hb
  refine ⟨hbackend, ?_⟩
  intro l' hn
  rw [hn] at hsafe
  exact hsafe

end ControlLoop

def Runner.loop? : Runner → Option ControlLoop
  | .live l => some l
  | _ => none

namespace Monitor

variable {m m' : Monitor} {j : Journal}

def OnTime (m : Monitor) : Prop :=
  m.tracker.OnTime m.now (m.runner.loop?.bind ControlLoop.check?)

theorem onTime_new {b : Backend} {e : Entropy} {levels : Nat}
    (h : Monitor.new s b e levels = .ok m) : m.OnTime := by
  obtain ⟨-, -, -, hr, ht⟩ := new_eq_ok h
  unfold OnTime
  rw [hr, ht]
  exact Tracker.timely_new

theorem next_now {move : Move} (he : m.Enabled move) : m.now ≤ (m.next move).1.now := by
  cases move with
  | turn =>
    cases ht : m.turn with
    | none => simp only [next, ht, Option.getD_none, Nat.le_refl]
    | some p =>
      simp only [next, ht, Option.getD_some]
      rcases turn_eq_some ht with ⟨_, _, _, _, -, -, he⟩ | ⟨_, -, he⟩
      all_goals exact Nat.le_of_eq he.now.symm
  | pass time => exact he.2
  | start =>
    simp only [next, start]
    split <;> exact Nat.le_refl _
  | stop =>
    simp only [next, stop]
    split <;> exact Nat.le_refl _
  | _ => exact Nat.le_refl _

theorem OnTime.moved (h : m.OnTime) (hn : m.now ≤ m'.now) (hm : Moved m m' j) : m'.OnTime := by
  unfold OnTime at h ⊢
  cases hm with
  | keeps hr _ ht =>
    rw [hr]
    exact (h.of_resetAt ht).later hn
  | begins _ he =>
    rw [he.runner, he.now]
    have htime : m.tracker.OnTime m.now none := h.fresh
    exact htime.of_resetAt he.tracker
  | @progresses l t event next _ hl hp he =>
    rw [hl] at h
    obtain ⟨htime, -⟩ := hp.onTime h
    rw [he.runner, he.now]
    cases next with
    | going l' => exact htime.of_resetAt he.tracker
    | left => exact absurd rfl hp.ne_left
    | crashed c => exact htime.of_resetAt he.tracker
  | @ends t runner _ _ hr ht he =>
    have hnone : runner.loop? = none := by
      cases runner with
      | live l => exact absurd rfl (hr l)
      | _ => rfl
    have htime : t.OnTime m.now none := by
      rcases ht with rfl | rfl
      · exact h.fresh
      · exact h.fresh.of_times rfl rfl rfl rfl
    rw [he.runner, he.now, hnone]
    exact htime.of_resetAt he.tracker

/-- In every life the times fit, so that no total ever overflows. -/
theorem Life.onTime (h : Life s j m) : m.OnTime := by
  induction h with
  | new hn => exact onTime_new hn
  | move move _ he ih => exact ih.moved (next_now he) (Monitor.moved he)

end Monitor

end Liveness

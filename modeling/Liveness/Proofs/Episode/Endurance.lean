import Liveness.Proofs.Monitor.CheckTurns
import Liveness.Proofs.Tracker.Totals
/-!
# Episodes run their course

An episode against a target that never panics is over after a bounded number of steps and waits,
and it is cancelled only from outside. No total of durations can overflow on its way, because the
checks follow one another and each takes no longer than it has run.
-/
namespace Liveness

open Tracker (ResetAt Timely latencyNanos)

variable {rule : EpisodeRule} {now : Nat} {t u : Tracker} {event : Option Event}

theorem Check.start_startedAt {rule : CheckRule} {b : Backend} :
    (Check.start rule now b).1.startedAt = now := by
  unfold Check.start
  split <;> rfl

theorem Check.step_startedAt {rule : CheckRule} {c c' : Check} {b : Backend} {st : Check.Step}
    (h : c.step rule now b = some st) (hn : st.next = .going c') : c'.startedAt = c.startedAt := by
  cases Check.step_stepped h with
  | acquired =>
    cases hn
    rfl
  | _ => cases hn

theorem Check.latency_nanos (c : Check) (now : Nat) :
    (c.latency now).nanos = (instantAt now).nanos - (instantAt c.startedAt).nanos :=
  Duration.nanos_since _ _

theorem Check.step_latency {rule : CheckRule} {c : Check} {b : Backend} {st : Check.Step}
    {result : CheckResult} (h : c.step rule now b = some st) (hn : st.next = .done result) :
    latencyNanos result ≤ (instantAt now).nanos - (instantAt c.startedAt).nanos := by
  cases Check.step_stepped h with
  | succeeded =>
    cases hn
    rw [Tracker.latencyNanos_ok, Check.latency_nanos]
  | failed =>
    cases hn
    exact Nat.zero_le _
  | _ => cases hn

theorem instantAt_mono {m n : Nat} (h : m ≤ n) : (instantAt m).nanos ≤ (instantAt n).nanos := by
  unfold instantAt Duration.clampMillis Duration.clampNanos
  split <;> split <;> simp only <;> omega

def Tracker.OnTime (now : Nat) (check : Option Check) (t : Tracker) : Prop :=
  t.Timely (instantAt (check.elim now Check.startedAt)) (instantAt now)

/-- What a step does to the times of a tracker: nothing, or it records the check that was in flight.
A check that is in flight afterwards was so before, or begins now. -/
inductive Tracker.Timed (now : Nat) (before after : Option Check) (t u : Tracker) : Prop where
  | keeps : u.tally.uptime = t.tally.uptime → u.tally.downtime = t.tally.downtime →
      u.tally.latencyTotal = t.tally.latencyTotal → u.accountedAt = t.accountedAt →
      after.elim now Check.startedAt = now ∨
        after.elim now Check.startedAt = before.elim now Check.startedAt →
      Timed now before after t u
  | records {result recoveries transition} :
      latencyNanos result ≤
        (instantAt now).nanos - (instantAt (before.elim now Check.startedAt)).nanos →
      Tracker.PassesOn recoveries (t.observe result (instantAt now)) (.ok (u, transition)) →
      after = none → Timed now before after t u

namespace Tracker.OnTime

section Time

variable {check : Option Check}

theorem of_resetAt (h : t.OnTime now check) (hr : ResetAt (instantAt now) t u) :
    u.OnTime now check := by
  rcases hr with rfl | rfl
  · exact h
  · exact h.resetTally

theorem later {time : Nat} (h : t.OnTime now check) (hn : now ≤ time) : t.OnTime time check := by
  have hlater := Timely.later h (instantAt_mono hn)
  cases check with
  | some c => exact hlater
  | none => exact hlater.fresh

/-- Checks do not overlap, so what a step does to the times keeps them fitting. -/
theorem timed {before after : Option Check} (h : t.OnTime now before)
    (ht : t.Timed now before after u) : u.OnTime now after := by
  cases ht with
  | keeps hu hd hl ha hc =>
    have htimes := Timely.of_times h hu hd hl ha
    unfold OnTime
    rcases hc with hc | hc
    · rw [hc]
      exact htimes.fresh
    · rw [hc]
      exact htimes
  | records hr hp hn =>
    obtain ⟨v, transition, hv, htimely⟩ := Timely.recorded h hr hp
    cases hv
    rw [hn]
    exact htimely

end Time

variable {check : Check} {rule : CheckRule} {b : Backend} {st : Check.Step} {result : CheckResult}

theorem recordCheck (h : t.OnTime now (some check)) (hs : check.step rule now b = some st)
    (hn : st.next = .done result) : ∃ u transition,
      t.recordCheck result (instantAt now) = .ok (u, transition) ∧ u.OnTime now none :=
  Timely.recorded h (Check.step_latency hs hn) (t.recordCheck_passesOn result _)

theorem recordAttempt (h : t.OnTime now (some check)) (hs : check.step rule now b = some st)
    (hn : st.next = .done result) : ∃ u transition,
      t.recordAttempt result (instantAt now) = .ok (u, transition) ∧ u.OnTime now none :=
  Timely.recorded h (Check.step_latency hs hn) (t.recordAttempt_passesOn result _)

end Tracker.OnTime

namespace Episode

variable {e e' : Episode} {w : World} {turn : Turn Next}

def Safe (e : Episode) : Prop := ∀ c, e.check? = some c → c.Safe

theorem Progress.timed {next : Next}
    (h : Progress rule now e t u event next) : t.Timed now e.check? next.check? u := by
  cases h with
  | tries => exact .keeps rfl rfl rfl rfl (Or.inl Check.start_startedAt)
  | checks hs hn => exact .keeps rfl rfl rfl rfl (Or.inr (Check.step_startedAt hs hn))
  | fails hs hn hr | reconnects hs hn hr =>
    exact .records (Check.step_latency hs hn) (hr ▸ t.recordAttempt_passesOn _ _) rfl
  | _ => exact .keeps rfl rfl rfl rfl (Or.inl rfl)

/-- While the times fit, an episode crashes on nothing but a panic of the target. -/
theorem Progress.crashed_unsafe {c : Crash} (ht : t.OnTime now e.check?)
    (h : Progress rule now e t u event (.crashed c)) : ¬e.Safe := by
  cases h with
  | @dies _ attempts check _ _ hs hn =>
    intro hsafe
    exact Check.not_safe_of_crashed hs hn (hsafe check rfl)
  | overflows hs hn hr =>
    obtain ⟨u, c, hu, -⟩ := ht.recordAttempt hs hn
    cases hr.symm.trans hu

theorem Progress.onTime {next : Next} (ht : t.OnTime now e.check?)
    (h : Progress rule now e t u event next) :
    u.OnTime now next.check? ∧ ∀ c, next = .crashed c → ¬e.Safe := by
  refine ⟨ht.timed h.timed, ?_⟩
  rintro c rfl
  exact h.crashed_unsafe ht

theorem step_safe (he : e.Safe) (hb : w.backend.NeverPanics)
    (h : e.step rule now w = some turn) :
    turn.world.backend.NeverPanics ∧ ∀ e', turn.next = .going e' → e'.Safe := by
  obtain ⟨hbackend, hsafe⟩ := (step_happens h).safe he hb
  refine ⟨hbackend, ?_⟩
  intro e' hn
  rw [hn] at hsafe
  exact hsafe

def InBudget (p : Policy) : Episode → Prop
  | .backingOff attempts _ | .attempting attempts _ => attempts < p.maxAttempts.toNat
  | _ => True

/-- How many steps and waits the episode has before it, at most, each step counting twice. -/
def ahead (maxAttempts : Nat) : Episode → Nat
  | .opening => 8 * maxAttempts + 4
  | .deciding attempts => 8 * (maxAttempts - attempts) + 2
  | .backingOff attempts _ => 8 * (maxAttempts - attempts)
  | .attempting attempts check => 8 * (maxAttempts - attempts) + 2 * check.rank - 6
  | .recovered _ => 2

theorem Progress.ahead_le (he : e.InBudget rule.policy)
    (h : Progress rule now e t u event (.going e')) :
    e'.InBudget rule.policy ∧
      e'.ahead rule.policy.maxAttempts.toNat + 2 ≤ e.ahead rule.policy.maxAttempts.toNat := by
  cases h with
  | opens => exact ⟨trivial, by simp [ahead]⟩
  | waits hm =>
    unfold mayTry at hm
    simp only [Bool.and_eq_true, decide_eq_true_eq] at hm
    exact ⟨hm.1, by simp [ahead]⟩
  | @tries _ attempts _ b hu =>
    have hc := (Check.start rule.check now b).1.rank_le
    refine ⟨he, ?_⟩
    simp only [InBudget, ahead] at he ⊢
    omega
  | checks hs hn =>
    have hc := (Check.step_going hs hn).1
    refine ⟨he, ?_⟩
    simp only [InBudget, ahead] at he ⊢
    omega
  | @fails _ _ attempts check _ _ _ _ hs hn hr =>
    have hc := check.rank_pos
    refine ⟨trivial, ?_⟩
    simp only [InBudget, ahead] at he ⊢
    omega
  | @reconnects _ _ attempts check _ _ _ _ _ hs hn hr =>
    have hc := check.rank_pos
    refine ⟨trivial, ?_⟩
    simp only [InBudget, ahead] at he ⊢
    omega

theorem ahead_pos (he : e.InBudget rule.policy) : 2 ≤ e.ahead rule.policy.maxAttempts.toNat := by
  cases e with
  | attempting attempts check =>
    have hc := check.rank_pos
    simp only [InBudget, ahead] at he ⊢
    omega
  | _ =>
    simp only [InBudget, ahead] at he ⊢
    omega

theorem cancellable_of_waits (h : e.step rule now w = none) : e.isCancellable = true := by
  cases e with
  | opening => cases h
  | deciding attempts =>
    simp only [step] at h
    split at h <;> cases h
  | backingOff attempts until_ => rfl
  | attempting attempts check => rfl
  | recovered attempts => cases h

theorem step_waits (h : e.step rule now w = none) :
    now < e.wakeAt now ∧ (e.step rule (e.wakeAt now) w).isSome := by
  cases e with
  | opening => cases h
  | deciding attempts =>
    simp only [step] at h
    split at h <;> cases h
  | backingOff attempts until_ =>
    simp only [step] at h
    split at h
    · rename_i hu
      exact ⟨hu, by simp [step, wakeAt]⟩
    · cases h
  | attempting attempts check =>
    simp only [step, Option.map_eq_none_iff] at h
    refine ⟨Check.waits h, ?_⟩
    simp only [step, wakeAt, Option.isSome_map]
    exact check.step_wakes
  | recovered attempts => cases h

def Fuelled (rule : EpisodeRule) (now : Nat) (e : Episode) (w : World) (fuel : Nat) : Prop :=
  e.ahead rule.policy.maxAttempts.toNat ≤ fuel + if (e.step rule now w).isSome then 1 else 0

structure Sound (now : Nat) (e : Episode) (w : World) : Prop where
  safe : e.Safe
  backend : w.backend.NeverPanics
  onTime : w.tracker.OnTime now e.check?

theorem Sound.steps (h : Sound now e w) (hs : e.step rule now w = some turn) (hub : Hub) :
    (∀ e', turn.next = .going e' → Sound now e' (perform now turn.effects turn.world hub).1) ∧
      ∀ c, turn.next ≠ .crashed c := by
  obtain ⟨event, hp, -⟩ := progress_of_step hs
  obtain ⟨hbackend, hsafe⟩ := step_safe h.safe h.backend hs
  obtain ⟨htime, hcrash⟩ := hp.onTime h.onTime
  have hperformed := perform_performed now turn.effects turn.world hub
  refine ⟨?_, fun c hc => hcrash c hc h.safe⟩
  intro e' he
  rw [he] at htime
  refine ⟨hsafe e' he, ?_, htime.of_resetAt hperformed.tracker⟩
  rw [hperformed.backend]
  exact hbackend

theorem Sound.waits (h : Sound now e w) (hs : e.step rule now w = none) :
    Sound (e.wakeAt now) e w := by
  have hlater := Nat.le_of_lt (step_waits hs).1
  exact ⟨h.safe, h.backend, h.onTime.later hlater⟩

theorem Fuelled.steps {fuel : Nat} {w' : World} (hf : Fuelled rule now e w (fuel + 1))
    (hb : e.InBudget rule.policy) (hs : e.step rule now w = some turn)
    (hn : turn.next = .going e') :
    Fuelled rule now e' w' fuel ∧ e'.InBudget rule.policy := by
  obtain ⟨event, hp, -⟩ := progress_of_step hs
  rw [hn] at hp
  obtain ⟨hbudget, hle⟩ := hp.ahead_le hb
  simp only [Fuelled, hs, Option.isSome_some, if_true] at hf
  refine ⟨?_, hbudget⟩
  unfold Fuelled
  omega

theorem Fuelled.waits {fuel : Nat} (hf : Fuelled rule now e w (fuel + 1))
    (hs : e.step rule now w = none) : Fuelled rule (e.wakeAt now) e w fuel := by
  simp only [Fuelled, hs, Option.isSome_none] at hf
  unfold Fuelled
  rw [if_pos (step_waits hs).2]
  simpa using hf

theorem Fuelled.pos {fuel : Nat} (hf : Fuelled rule now e w fuel)
    (hb : e.InBudget rule.policy) : 0 < fuel := by
  have := ahead_pos hb
  unfold Fuelled at hf
  split at hf <;> omega

/-- An episode is cancelled only if its time has come, and a sound one comes to an outcome. -/
theorem runFrom_outcome {cancelled : Bool} {cancel : Option Cancellation} {fuel : Nat} (hub : Hub)
    (journal : Journal) (hf : Fuelled rule now e w fuel) (hb : e.InBudget rule.policy)
    (hc : cancelled = true → ∃ cut ∈ cancel, cut.time ≤ now) :
    ((runFrom rule cancelled cancel fuel now e w hub journal).outcome = .ok .cancelled →
      ∃ cut ∈ cancel,
        cut.time ≤ (runFrom rule cancelled cancel fuel now e w hub journal).finishedAt) ∧
      (Sound now e w → ∃ outcome,
        (runFrom rule cancelled cancel fuel now e w hub journal).outcome = .ok outcome) := by
  induction fuel generalizing now e w hub journal with
  | zero => exact absurd (hf.pos hb) (Nat.lt_irrefl 0)
  | succ fuel ih =>
    by_cases hcut : (cancelled && e.isCancellable) = true
    · simp only [runFrom, if_pos hcut]
      exact ⟨fun _ => hc (Bool.and_eq_true_iff.mp hcut).1, fun _ => ⟨_, rfl⟩⟩
    · cases hs : e.step rule now w with
      | some turn =>
        cases hn : turn.next with
        | going e' =>
          obtain ⟨hfuel, hbudget⟩ := hf.steps hb hs hn
          obtain ⟨honly, hsound⟩ := ih _ _ hfuel hbudget hc
          simp only [runFrom, if_neg hcut, hs, hn]
          exact ⟨honly, fun h => hsound ((h.steps hs hub).1 e' hn)⟩
        | ended outcome =>
          simp only [runFrom, if_neg hcut, hs, hn]
          refine ⟨?_, fun _ => ⟨outcome, rfl⟩⟩
          rintro ⟨⟩
          obtain ⟨event, hp, -⟩ := progress_of_step hs
          rw [hn] at hp
          exact absurd rfl hp.ended_ne_cancelled
        | crashed c =>
          simp only [runFrom, if_neg hcut, hs, hn]
          exact ⟨nofun, fun h => absurd hn ((h.steps hs hub).2 c)⟩
      | none =>
        cases hfilter : cancel.filter (·.before (e.wakeAt now)) with
        | some cut =>
          simp only [runFrom, if_neg hcut, hs, hfilter]
          obtain ⟨hcut, -⟩ := Option.filter_eq_some_iff.mp hfilter
          exact ⟨fun _ => ⟨cut, hcut, Nat.le_refl _⟩, fun _ => ⟨_, rfl⟩⟩
        | none =>
          simp only [runFrom, if_neg hcut, hs, hfilter]
          have hlater : cancelled = true → ∃ cut ∈ cancel, cut.time ≤ e.wakeAt now := by
            intro hcancelled
            obtain ⟨cut, hcut, hle⟩ := hc hcancelled
            exact ⟨cut, hcut, Nat.le_trans hle (Nat.le_of_lt (step_waits hs).1)⟩
          obtain ⟨honly, hsound⟩ := ih _ _ (hf.waits hs) hb hlater
          exact ⟨honly, fun h => hsound (h.waits hs)⟩

theorem fuelled_run (rule : EpisodeRule) (now : Nat) (w : World) :
    Fuelled rule now .opening w (runFuel rule) := by
  unfold Fuelled runFuel
  simp only [ahead]
  omega

/-- A whole episode is cancelled only from outside. Against a target that never panics it comes to
an outcome. -/
theorem run_outcome (rule : EpisodeRule) (cancel : Option Cancellation) (now : Nat) (w : World)
    (hub : Hub) :
    ((run rule cancel now w hub).outcome = .ok .cancelled →
      ∃ cut ∈ cancel, cut.time ≤ (run rule cancel now w hub).finishedAt) ∧
      (w.backend.NeverPanics → w.tracker.OnTime now none →
        ∃ outcome, (run rule cancel now w hub).outcome = .ok outcome) := by
  have hc : cancel.any (·.before now) = true → ∃ cut ∈ cancel, cut.time ≤ now := by
    intro hcancel
    obtain ⟨cut, hcut, hbefore⟩ := (Option.any_eq_true _ _).mp hcancel
    exact ⟨cut, hcut, cut.le_of_before hbefore⟩
  obtain ⟨honly, hsound⟩ := runFrom_outcome hub [] (fuelled_run rule now w) trivial hc
  exact ⟨honly, fun hb ht => hsound ⟨nofun, hb, ht⟩⟩

end Episode

end Liveness

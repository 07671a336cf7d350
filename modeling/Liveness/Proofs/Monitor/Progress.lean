import Liveness.Monitor
import Liveness.Proofs.Check.Outcome
import Liveness.Proofs.Monitor.Subscribers
import Liveness.Proofs.Tracker.Operations
/-!
# What a step of the control loop does

The steps of an episode and of the loop as relations that leave out what the target, the log and
the random words have to do with it: from where to where, from which tracker to which, and the one
event that is announced, if any. All that is proved about whole lives goes through these relations.
-/
namespace Liveness

variable {rule : EpisodeRule} {s : Settings} {now : Nat}

inductive Episode.Progress (rule : EpisodeRule) (now : Nat) :
    Episode → Tracker → Tracker → Option Event → Episode.Next → Prop where
  | opens {t driver} : Progress rule now .opening t (t.beginEpisode (instantAt now))
      (some (.reconnectStarted driver)) (.going (.deciding 0))
  | waits {t attempts until_} :
      mayTry rule.policy attempts (t.episodeElapsed (instantAt now)) = true →
      Progress rule now (.deciding attempts) t t none (.going (.backingOff attempts until_))
  | givesUp {t attempts driver} :
      mayTry rule.policy attempts (t.episodeElapsed (instantAt now)) = false →
      Progress rule now (.deciding attempts) t t.abandonEpisode
        (some (.reconnectAbandoned driver attempts)) (.ended (.abandoned attempts))
  | tries {t attempts until_ b} : until_ ≤ now →
      Progress rule now (.backingOff attempts until_) t t none
        (.going (.attempting attempts (Check.start rule.check now b).1))
  | checks {t attempts check check' b st} : check.step rule.check now b = some st →
      st.next = .going check' →
      Progress rule now (.attempting attempts check) t t none
        (.going (.attempting attempts check'))
  | dies {t attempts check b st} : check.step rule.check now b = some st →
      st.next = .crashed →
      Progress rule now (.attempting attempts check) t t none (.crashed .collaborator)
  | overflows {t attempts check b st result c} : check.step rule.check now b = some st →
      st.next = .done result → t.recordAttempt result (instantAt now) = .error c →
      Progress rule now (.attempting attempts check) t t none (.crashed c)
  | fails {t u attempts check b st failure c} : check.step rule.check now b = some st →
      st.next = .done (.error failure) →
      t.recordAttempt (.error failure) (instantAt now) = .ok (u, c) →
      Progress rule now (.attempting attempts check) t u
        (some (.reconnectFailed (attempts + 1) failure)) (.going (.deciding (attempts + 1)))
  | reconnects {t u attempts check b st latency c driver} :
      check.step rule.check now b = some st → st.next = .done (.ok latency) →
      t.recordAttempt (.ok latency) (instantAt now) = .ok (u, c) →
      Progress rule now (.attempting attempts check) t u
        (some (.reconnectSuccess driver (attempts + 1))) (.going (.recovered (attempts + 1)))
  | announces {t attempts driver} : Progress rule now (.recovered attempts) t t
      (some (.healthy driver)) (.ended (.recovered attempts))

inductive ControlLoop.Progress (s : Settings) (now : Nat) :
    ControlLoop → Tracker → Tracker → Option Event → ControlLoop.Next → Prop where
  | begins {t} : Progress s now .unstarted t t none (.going (.awaiting now))
  | ticks {t due b} : due ≤ now → Progress s now (.awaiting due) t t none
      (.going (.checking (tickAfter s.period due now) (Check.start s.checkRule now b).1))
  | checks {t nextTick check check' b st} : check.step s.checkRule now b = some st →
      st.next = .going check' →
      Progress s now (.checking nextTick check) t t none (.going (.checking nextTick check'))
  | dies {t nextTick check b st} : check.step s.checkRule now b = some st →
      st.next = .crashed →
      Progress s now (.checking nextTick check) t t none (.crashed .collaborator)
  | overflows {t nextTick check b st result c} : check.step s.checkRule now b = some st →
      st.next = .done result → t.recordCheck result (instantAt now) = .error c →
      Progress s now (.checking nextTick check) t t none (.crashed c)
  | keeps {t u nextTick check b st result} : check.step s.checkRule now b = some st →
      st.next = .done result → t.recordCheck result (instantAt now) = .ok (u, .unchanged) →
      Progress s now (.checking nextTick check) t u none (.going (.awaiting nextTick))
  | rises {t u nextTick check b st result driver} : check.step s.checkRule now b = some st →
      st.next = .done result → t.recordCheck result (instantAt now) = .ok (u, .becameHealthy) →
      Progress s now (.checking nextTick check) t u (some (.healthy driver))
        (.going (.awaiting nextTick))
  | falls {t u nextTick check b st failure driver} : check.step s.checkRule now b = some st →
      st.next = .done (.error failure) →
      t.recordCheck (.error failure) (instantAt now) = .ok (u, .becameUnhealthy) →
      Progress s now (.checking nextTick check) t u (some (.unhealthy driver failure))
        (.going (if s.autoReconnect then .reconnecting .opening else .awaiting nextTick))
  | continues {t u e e' event} :
      Episode.Progress s.episodeRule now e t u event (.going e') →
      Progress s now (.reconnecting e) t u event (.going (.reconnecting e'))
  | leaves {t u e o event} : Episode.Progress s.episodeRule now e t u event (.ended o) →
      Progress s now (.reconnecting e) t u event (.going (.awaiting (now + s.period)))
  | breaks {t u e c event} : Episode.Progress s.episodeRule now e t u event (.crashed c) →
      Progress s now (.reconnecting e) t u event (.crashed c)

theorem Episode.settle_eq {attempts : Nat} {result : CheckResult} {calls : List Effect} {w : World}
    (h : result ≠ .error .cancelled) :
    settle now attempts result calls w = conclude now attempts result calls w := by
  unfold settle
  split
  · exact absurd rfl h
  · rfl

theorem ControlLoop.settle_eq {nextTick : Nat} {result : CheckResult} {calls : List Effect}
    {w : World} (h : result ≠ .error .cancelled) :
    settle s now nextTick result calls w = conclude s now nextTick result calls w := by
  unfold settle
  split
  · exact absurd rfl h
  · rfl

/-- No check is cancelled by a step of its own, so the result of an attempt is always recorded. -/
theorem Episode.step_attempting (attempts : Nat) (check : Check) (w : World) :
    step rule now (.attempting attempts check) w =
      (check.step rule.check now w.backend).map fun st =>
        let w := { w with backend := st.backend }
        let calls := st.calls.map Effect.call
        match st.next with
        | .going check => ⟨w, calls, .going (.attempting attempts check)⟩
        | .crashed => ⟨w, calls, .crashed .collaborator⟩
        | .done result => conclude now attempts result calls w := by
  refine Option.map_congr fun st hs => ?_
  have hresult := Check.step_ne_cancelled hs
  cases hn : st.next with
  | going check => rfl
  | crashed => rfl
  | done result => exact settle_eq fun heq => hresult (hn.trans (congrArg _ heq))

theorem ControlLoop.step_checking (nextTick : Nat) (check : Check) (w : World) :
    step s now (.checking nextTick check) w =
      (check.step s.checkRule now w.backend).map fun st =>
        let w := { w with backend := st.backend }
        let calls := st.calls.map Effect.call
        match st.next with
        | .going check => ⟨w, calls, .going (.checking nextTick check)⟩
        | .crashed => ⟨w, calls, .crashed .collaborator⟩
        | .done result => conclude s now nextTick result calls w := by
  refine Option.map_congr fun st hs => ?_
  have hresult := Check.step_ne_cancelled hs
  cases hn : st.next with
  | going check => rfl
  | crashed => rfl
  | done result => exact settle_eq fun heq => hresult (hn.trans (congrArg _ heq))

def announcing (event : Option Event) : List Mark := (event.map Mark.announced).toList

theorem eq_of_mem_announcing {event : Option Event} {e : Event}
    (h : .announced e ∈ announcing event) : event = some e := by
  cases event with
  | none => cases h
  | some e' =>
    cases List.mem_singleton.mp h
    rfl

theorem marks_of_calls (calls : List Call) :
    (calls.map Effect.call).filterMap Effect.mark? = [] := by
  rw [List.filterMap_eq_nil_iff]
  intro effect he
  obtain ⟨c, -, rfl⟩ := List.mem_map.mp he
  rfl

theorem marks_after_calls (calls : List Call) (rest : List Effect) :
    (calls.map Effect.call ++ rest).filterMap Effect.mark? = rest.filterMap Effect.mark? := by
  rw [List.filterMap_append, marks_of_calls, List.nil_append]

theorem Episode.conclude_progress {attempts : Nat} {check : Check} {b : Backend}
    {st : Check.Step} {result : CheckResult} {calls : List Call} {w : World}
    (hs : check.step rule.check now b = some st) (hn : st.next = .done result) :
    ∃ event, Progress rule now (.attempting attempts check) w.tracker
        (conclude now attempts result (calls.map .call) w).world.tracker event
        (conclude now attempts result (calls.map .call) w).next ∧
      (conclude now attempts result (calls.map .call) w).effects.filterMap Effect.mark? =
        announcing event := by
  unfold conclude
  split
  · rename_i c hr
    exact ⟨none, .overflows hs hn hr, marks_of_calls calls⟩
  · rename_i u c hr
    cases result with
    | ok latency => exact ⟨_, .reconnects hs hn hr, marks_after_calls calls _⟩
    | error failure => exact ⟨_, .fails hs hn hr, marks_after_calls calls _⟩

theorem Episode.progress_of_step {e : Episode} {w : World} {turn : Turn Episode.Next}
    (h : e.step rule now w = some turn) :
    ∃ event, Progress rule now e w.tracker turn.world.tracker event turn.next ∧
      turn.effects.filterMap Effect.mark? = announcing event := by
  cases e with
  | opening =>
    cases h
    exact ⟨_, .opens, rfl⟩
  | deciding attempts =>
    simp only [step] at h
    split at h
    · rename_i hm
      cases h
      exact ⟨none, .waits hm, rfl⟩
    · rename_i hm
      cases h
      exact ⟨_, .givesUp (by simpa using hm), rfl⟩
  | backingOff attempts until_ =>
    simp only [step] at h
    split at h
    · cases h
    · rename_i hu
      cases h
      exact ⟨none, .tries (Nat.le_of_not_lt hu), marks_of_calls _⟩
  | attempting attempts check =>
    simp only [step_attempting, Option.map_eq_some_iff] at h
    obtain ⟨st, hs, rfl⟩ := h
    split
    · rename_i check' hn
      exact ⟨none, .checks hs hn, marks_of_calls _⟩
    · rename_i hn
      exact ⟨none, .dies hs hn, marks_of_calls _⟩
    · rename_i result hn
      exact conclude_progress (w := { w with backend := st.backend }) hs hn
  | recovered attempts =>
    cases h
    exact ⟨_, .announces, rfl⟩

/-- An episode ends because the target has recovered or because it gives up. -/
theorem Episode.Progress.ended_ne_cancelled {e : Episode} {t u : Tracker} {event : Option Event}
    {o : EpisodeOutcome} (h : Progress rule now e t u event (.ended o)) : o ≠ .cancelled := by
  cases h <;> nofun

/-- No episode is cancelled by a step of its own, so the loop always goes on after it. -/
theorem ControlLoop.step_reconnecting (e : Episode) (w : World) :
    step s now (.reconnecting e) w =
      (e.step s.episodeRule now w).map (·.map (afterEpisode s now)) := by
  refine Option.map_congr fun turn hs => ?_
  obtain ⟨event, hp, -⟩ := Episode.progress_of_step hs
  unfold resume
  split
  · rename_i hcancelled
    rw [hcancelled] at hp
    exact absurd rfl hp.ended_ne_cancelled
  · rfl

theorem ControlLoop.Progress.ne_left {l : ControlLoop} {t u : Tracker} {event : Option Event}
    {next : Next} (h : Progress s now l t u event next) : next ≠ .left := by
  cases h <;> nofun

theorem ControlLoop.conclude_progress {nextTick : Nat} {check : Check} {b : Backend}
    {st : Check.Step} {result : CheckResult} {calls : List Call} {w : World}
    (hs : check.step s.checkRule now b = some st) (hn : st.next = .done result) :
    ∃ event, Progress s now (.checking nextTick check) w.tracker
        (conclude s now nextTick result (calls.map .call) w).world.tracker event
        (conclude s now nextTick result (calls.map .call) w).next ∧
      (conclude s now nextTick result (calls.map .call) w).effects.filterMap Effect.mark? =
        announcing event := by
  unfold conclude
  split
  · rename_i c hr
    exact ⟨none, .overflows hs hn hr, marks_of_calls calls⟩
  · rename_i u c hr
    obtain ⟨tally, hc⟩ := Tracker.recordCheck_eq_ok hr
    cases hc with
    | rises =>
      refine ⟨some (.healthy w.backend.driver), .rises hs hn hr, ?_⟩
      simp only [List.append_assoc, marks_after_calls]
      rfl
    | succeeds =>
      refine ⟨none, .keeps hs hn hr, ?_⟩
      simp only [marks_after_calls]
      rfl
    | falls =>
      refine ⟨some (.unhealthy w.backend.driver _), .falls hs hn hr, ?_⟩
      simp only [List.append_assoc, marks_after_calls]
      rfl
    | fails =>
      refine ⟨none, .keeps hs hn hr, ?_⟩
      simp only [marks_after_calls]
      rfl

theorem ControlLoop.progress_of_step {l : ControlLoop} {w : World}
    {turn : Turn ControlLoop.Next} (h : l.step s now w = some turn) :
    ∃ event, Progress s now l w.tracker turn.world.tracker event turn.next ∧
      turn.effects.filterMap Effect.mark? = announcing event := by
  cases l with
  | unstarted =>
    cases h
    exact ⟨none, .begins, rfl⟩
  | awaiting due =>
    simp only [step] at h
    split at h
    · cases h
    · rename_i hd
      cases h
      exact ⟨none, .ticks (Nat.le_of_not_lt hd), marks_of_calls _⟩
  | checking nextTick check =>
    simp only [step_checking, Option.map_eq_some_iff] at h
    obtain ⟨st, hs, rfl⟩ := h
    split
    · rename_i check' hn
      exact ⟨none, .checks hs hn, marks_of_calls _⟩
    · rename_i hn
      exact ⟨none, .dies hs hn, marks_of_calls _⟩
    · rename_i result hn
      exact conclude_progress (w := { w with backend := st.backend }) hs hn
  | reconnecting e =>
    simp only [step_reconnecting, Option.map_eq_some_iff] at h
    obtain ⟨turn, hs, rfl⟩ := h
    obtain ⟨event, hp, hm⟩ := Episode.progress_of_step hs
    refine ⟨event, ?_, hm⟩
    obtain ⟨world, effects, next⟩ := turn
    cases next with
    | going e => exact .continues hp
    | ended o => exact .leaves hp
    | crashed c => exact .breaks hp

theorem ControlLoop.step_ne_left {l : ControlLoop} {w : World} {turn : Turn Next}
    (h : l.step s now w = some turn) : turn.next ≠ .left := by
  obtain ⟨event, hp, -⟩ := progress_of_step h
  exact hp.ne_left

end Liveness

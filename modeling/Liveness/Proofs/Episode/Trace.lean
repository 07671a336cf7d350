import Liveness.Proofs.Episode.Passage
import Liveness.Proofs.Monitor.Listeners
import Liveness.Proofs.Monitor.Standing
/-!
# What an episode tells

The events of an episode are the whole account of it: its start, every attempt that has failed, with
its number and its cause, and how it has ended. `Held` says of each place in an episode what has
been told, recorded and counted on the way there. Each step keeps it, and an end of any kind closes
the account.
-/
namespace Liveness

def Mark.event? : Mark → Option Event
  | .started => none
  | .announced e => some e

def Journal.events (j : Journal) : List Event := (Journal.marks j).filterMap (·.2.event?)

def Effect.events (effects : List Effect) : List Event :=
  (effects.filterMap Effect.mark?).filterMap Mark.event?

theorem Journal.events_perform (j : Journal) (now : Nat) (effects : List Effect) (w : World)
    (hub : Hub) : Journal.events (j ++ (perform now effects w hub).2.2.map (now, ·)) =
      Journal.events j ++ Effect.events effects := by
  have hmarks := (perform_performed now effects w hub).marks
  have hnew : Journal.marks ((perform now effects w hub).2.2.map (now, ·)) =
      (effects.filterMap Effect.mark?).map (now, ·) := by
    rw [← hmarks, List.map_filterMap]
    exact List.filterMap_map
  simp only [Journal.events, Journal.marks_append, hnew, List.filterMap_append,
    List.filterMap_map, Effect.events]
  rfl

/-- Checks one after the other, each on the target as the one before has left it: their results, and
the target after the last. -/
inductive Check.Completes (rule : CheckRule) (b : Backend) : List CheckResult → Backend → Prop where
  | none : Completes rule b [] b
  | more {results b' result} (now : Nat) : Completes rule b results b' →
      (run rule none now b').result = .ok result →
      Completes rule b (results ++ [result]) (run rule none now b').backend

structure Tally.Extends (before after : Tally) (failed recovered abandoned : Nat) : Prop where
  probes : after.probes = before.probes + (failed + recovered)
  successes : after.successes = before.successes + recovered
  failures : after.failures = before.failures + failed
  episodes : after.episodes = before.episodes + 1
  recoveries : after.recoveries = before.recoveries + recovered
  abandoned : after.abandoned = before.abandoned + abandoned

namespace EpisodeOutcome

def closing (driver : String) : EpisodeOutcome → List Event
  | .recovered attempts => [.reconnectSuccess driver attempts, .healthy driver]
  | .abandoned attempts => [.reconnectAbandoned driver attempts]
  | .cancelled => []

def recoveries : EpisodeOutcome → Nat
  | .recovered _ => 1
  | _ => 0

def abandonments : EpisodeOutcome → Nat
  | .abandoned _ => 1
  | _ => 0

/-- The outcome speaks of as many attempts as there were, `failed` of them in vain. -/
def Counts (failed : Nat) : EpisodeOutcome → Prop
  | .recovered attempts => attempts = failed + 1
  | .abandoned attempts => attempts = failed
  | .cancelled => True

def Leaves (failed : Nat) (s : Status) (o : EpisodeOutcome) : Prop :=
  s.reconnecting = false ∧
    match o with
    | .recovered _ => s.health = .healthy ∧ s.attempt = 0
    | .abandoned _ | .cancelled => s.health = .unhealthy ∧ s.attempt = failed

end EpisodeOutcome

namespace Episode

def account (driver : String) (causes : List Failure) : List Event :=
  .reconnectStarted driver :: causes.mapIdx fun i cause => .reconnectFailed (i + 1) cause

theorem account_append_singleton (driver : String) (causes : List Failure) (cause : Failure) :
    account driver (causes ++ [cause]) =
      account driver causes ++ [.reconnectFailed (causes.length + 1) cause] := by
  simp [account]

/-- The account of an episode that has ended: its events, its checks, and what has become of the
tracker. -/
structure Told (rule : EpisodeRule) (w₀ w : World) (o : EpisodeOutcome) (causes : List Failure)
    (events : List Event) : Prop where
  counts : o.Counts causes.length
  events : events = account w₀.backend.driver causes ++ o.closing w₀.backend.driver
  checks : ∃ (latencies : List Duration) (b : Backend), latencies.length = o.recoveries ∧
    Check.Completes rule.check w₀.backend
      (causes.map Except.error ++ latencies.map Except.ok) b
  tally : w₀.tracker.tally.Extends w.tracker.tally causes.length o.recoveries o.abandonments
  leaves : o.Leaves causes.length w.tracker.status

structure Midway (w₀ w : World) (causes : List Failure) : Prop where
  inEpisode : w.tracker.InEpisode causes.length
  tally : w₀.tracker.tally.Extends w.tracker.tally causes.length 0 0
  driver : w.backend.driver = w₀.backend.driver

inductive Held (rule : EpisodeRule) (w₀ : World) (now : Nat) :
    Episode → World → List Failure → List Event → Prop where
  | opening : Held rule w₀ now .opening w₀ [] []
  | deciding {w causes} : Midway w₀ w causes →
      Check.Completes rule.check w₀.backend (causes.map Except.error) w.backend →
      Held rule w₀ now (.deciding causes.length) w causes (account w₀.backend.driver causes)
  | backingOff {w causes until_} : Midway w₀ w causes →
      Check.Completes rule.check w₀.backend (causes.map Except.error) w.backend →
      Held rule w₀ now (.backingOff causes.length until_) w causes
        (account w₀.backend.driver causes)
  | attempting {w causes check b since} : Midway w₀ w causes →
      Check.Completes rule.check w₀.backend (causes.map Except.error) b →
      check.InFlight rule.check now w.backend (Check.run rule.check none since b) →
      Held rule w₀ now (.attempting causes.length check) w causes
        (account w₀.backend.driver causes)
  | recovered {w causes latency} : w.tracker.Recovered →
      w₀.tracker.tally.Extends w.tracker.tally causes.length 1 0 →
      w.backend.driver = w₀.backend.driver →
      Check.Completes rule.check w₀.backend
        (causes.map Except.error ++ [Except.ok latency]) w.backend →
      Held rule w₀ now (.recovered (causes.length + 1)) w causes
        (account w₀.backend.driver causes ++
          [.reconnectSuccess w₀.backend.driver (causes.length + 1)])

variable {rule : EpisodeRule} {now : Nat} {e : Episode} {w₀ w : World} {causes : List Failure}
  {events : List Event} {turn : Turn Next}

def Next.Holds (rule : EpisodeRule) (w₀ : World) (now : Nat) (w : World) (events : List Event) :
    Next → Prop
  | .going e => ∃ causes, Held rule w₀ now e w causes events
  | .ended o => ∃ causes, Told rule w₀ w o causes events
  | .crashed _ => True

end Episode

namespace Tally.Extends

variable {t u : Tracker} {before : Tally} {failed : Nat} {i : Instant} {c : Transition}

theorem begun (t : Tracker) (i : Instant) :
    t.tally.Extends (t.beginEpisode i).tally 0 0 0 := ⟨rfl, rfl, rfl, rfl, rfl, rfl⟩

/-- One attempt more, in vain or not. -/
theorem attempted {result : CheckResult} (h : before.Extends t.tally failed 0 0)
    (hr : t.recordAttempt result i = .ok (u, c)) :
    before.Extends u.tally (failed + [result].countP Liveness.failed)
      ([result].countP succeeded) 0 := by
  have ha : t.apply (.recordAttempt result i) = .ok (u, .transition c) := by
    simp [Tracker.apply, hr, Except.map]
  obtain ⟨hp, hs, hf, he, hrec, hab⟩ := Tracker.apply_adds ha rfl
  obtain ⟨hp', hs', hf', he', hrec', hab'⟩ := h
  rw [hp'] at hp
  rw [hs'] at hs
  rw [hf'] at hf
  rw [he'] at he
  rw [hrec'] at hrec
  rw [hab'] at hab
  cases result with
  | ok latency => exact ⟨hp, hs, hf, he, hrec, hab⟩
  | error failure => exact ⟨hp, hs, hf, he, hrec, hab⟩

theorem abandons (h : before.Extends t.tally failed 0 0) :
    before.Extends t.abandonEpisode.tally failed 0 1 :=
  ⟨h.probes, h.successes, h.failures, h.episodes, h.recoveries, congrArg (· + 1) h.abandoned⟩

end Tally.Extends

namespace Episode

/-- A step that begins, waits for or goes on with an attempt tells nothing. -/
theorem events_of_calls (calls : List Call) : Effect.events (calls.map Effect.call) = [] := by
  unfold Effect.events
  rw [marks_of_calls]
  rfl

theorem events_after_calls (calls : List Call) (rest : List Effect) :
    Effect.events (calls.map Effect.call ++ rest) = Effect.events rest := by
  unfold Effect.events
  rw [marks_after_calls]

theorem Held.silent {effects : List Effect} (h : Held rule w₀ now e w causes events)
    (hn : Effect.events effects = []) :
    Next.Holds rule w₀ now w (events ++ Effect.events effects) (.going e) := by
  rw [hn, List.append_nil]
  exact ⟨causes, h⟩

theorem concludes {check : Check} {b : Backend} {since : Nat} {st : Check.Step}
    {result : CheckResult} (hm : Midway w₀ w causes)
    (hc : Check.Completes rule.check w₀.backend (causes.map Except.error) b)
    (hf : check.InFlight rule.check now w.backend (Check.run rule.check none since b))
    (hs : check.step rule.check now w.backend = some st) (hn : st.next = .done result)
    (hturn : conclude now causes.length result (st.calls.map .call)
      { w with backend := st.backend } = turn) :
    turn.next.Holds rule w₀ now turn.world
      (account w₀.backend.driver causes ++ Effect.events turn.effects) := by
  obtain ⟨hresult, hbackend⟩ := hf.ends hs hn
  have hmore := hc.more since hresult
  rw [hbackend] at hmore
  have hdriver : st.backend.driver = w₀.backend.driver := (Check.step_driver hs).trans hm.driver
  unfold conclude at hturn
  cases hr : w.tracker.recordAttempt result (instantAt now) with
  | error c =>
    simp only [hr] at hturn
    subst hturn
    trivial
  | ok p =>
    obtain ⟨u, transition⟩ := p
    simp only [hr] at hturn
    cases result with
    | ok latency =>
      subst hturn
      simp only [events_after_calls, hdriver]
      exact ⟨causes, .recovered (Tracker.recovered_of_attempt hr) (hm.tally.attempted hr) hdriver
        hmore⟩
    | error failure =>
      subst hturn
      have hdecides : Midway w₀ { tracker := u, backend := st.backend, entropy := w.entropy }
          (causes ++ [failure]) := by
        refine ⟨?_, ?_, hdriver⟩
        · simpa using hm.inEpisode.failed hr
        · simpa [failed, succeeded] using hm.tally.attempted hr
      have hchecks : Check.Completes rule.check w₀.backend
          ((causes ++ [failure]).map Except.error) st.backend := by
        simpa using hmore
      have hheld : Held rule w₀ now _ _ _ _ := .deciding hdecides hchecks
      rw [account_append_singleton, List.length_append, List.length_singleton] at hheld
      simp only [events_after_calls]
      exact ⟨causes ++ [failure], hheld⟩

theorem Held.steps (h : Held rule w₀ now e w causes events)
    (hu : w₀.tracker.status.health = .unhealthy) (hs : e.step rule now w = some turn) :
    turn.next.Holds rule w₀ now turn.world (events ++ Effect.events turn.effects) := by
  cases h with
  | opening =>
    cases hs
    have hmidway : Midway w₀
        { w₀ with tracker := w₀.tracker.beginEpisode (instantAt now) } [] :=
      ⟨⟨hu, rfl, rfl⟩, .begun _ _, rfl⟩
    exact ⟨[], .deciding hmidway .none⟩
  | deciding hm hc =>
    simp only [step] at hs
    split at hs
    · cases hs
      exact Held.silent (.backingOff ⟨hm.inEpisode, hm.tally, hm.driver⟩ hc) rfl
    · cases hs
      refine ⟨causes, rfl, ?_, ⟨[], w.backend, rfl, by simpa using hc⟩, hm.tally.abandons, rfl,
        hm.inEpisode.health, hm.inEpisode.attempt⟩
      rw [hm.driver]
      rfl
  | backingOff hm hc =>
    simp only [step] at hs
    split at hs
    · cases hs
    · cases hs
      have hdriver := (Check.start_driver rule.check now w.backend).trans hm.driver
      have hbegun := Check.inFlight_start rule.check now w.backend
      exact Held.silent (.attempting ⟨hm.inEpisode, hm.tally, hdriver⟩ hc hbegun)
        (events_of_calls _)
  | @attempting w causes check b since hm hc hf =>
    simp only [step_attempting, Option.map_eq_some_iff] at hs
    obtain ⟨st, hst, hturn⟩ := hs
    cases hn : st.next with
    | going check' =>
      simp only [hn] at hturn
      subst hturn
      have hdriver := (Check.step_driver hst).trans hm.driver
      exact Held.silent (.attempting ⟨hm.inEpisode, hm.tally, hdriver⟩ hc (hf.steps hst hn))
        (events_of_calls _)
    | crashed =>
      simp only [hn] at hturn
      subst hturn
      trivial
    | done result =>
      simp only [hn] at hturn
      exact concludes hm hc hf hst hn hturn
  | @recovered w causes latency hr ht hd hc =>
    cases hs
    refine ⟨causes, rfl, ?_, ⟨[latency], w.backend, rfl, hc⟩, ht, hr.reconnecting, hr.health,
      hr.attempt⟩
    rw [hd, List.append_assoc]
    rfl

theorem Held.waits (h : Held rule w₀ now e w causes events) (hs : e.step rule now w = none) :
    Held rule w₀ (e.wakeAt now) e w causes events := by
  cases h with
  | opening => exact .opening
  | deciding hm hc => exact .deciding hm hc
  | backingOff hm hc => exact .backingOff hm hc
  | attempting hm hc hf =>
    simp only [step, Option.map_eq_none_iff] at hs
    exact .attempting hm hc (hf.waits hs)
  | recovered hr ht hd hc => exact .recovered hr ht hd hc

/-- An episode that is cut off tells nothing more, and its check in flight does not count. -/
theorem Held.cut (h : Held rule w₀ now e w causes events) (hc : e.isCancellable = true) :
    Told rule w₀ (e.cut w).1 .cancelled causes events := by
  have told {b : Backend} (hm : Midway w₀ w causes)
      (hchecks : Check.Completes rule.check w₀.backend (causes.map Except.error) b) :
      Told rule w₀ (e.cut w).1 .cancelled causes (account w₀.backend.driver causes) :=
    ⟨trivial, (List.append_nil _).symm, ⟨[], b, rfl, by simpa using hchecks⟩, hm.tally, rfl,
      hm.inEpisode.health, hm.inEpisode.attempt⟩
  cases h with
  | opening => cases hc
  | deciding => cases hc
  | backingOff hm hchecks => exact told hm hchecks
  | attempting hm hchecks _ => exact told hm hchecks
  | recovered => cases hc

theorem Held.performs {hub : Hub} {journal : Journal}
    (h : Held rule w₀ now e w causes (Journal.events journal))
    (hu : w₀.tracker.status.health = .unhealthy) (hk : hub.KeepsTotals)
    (hs : e.step rule now w = some turn) :
    turn.next.Holds rule w₀ now (perform now turn.effects turn.world hub).1
      (Journal.events (journal ++ (perform now turn.effects turn.world hub).2.2.map (now, ·))) := by
  rw [(perform_listened now turn.effects turn.world hk).1, Journal.events_perform]
  exact h.steps hu hs

/-- However an episode comes to an outcome, the account is complete. -/
theorem Passage.told {hub : Hub} {journal : Journal} {r : Run} {o : EpisodeOutcome}
    (hp : Passage rule now e w hub journal r) (hu : w₀.tracker.status.health = .unhealthy)
    (hk : hub.KeepsTotals) (h : Held rule w₀ now e w causes (Journal.events journal))
    (ho : r.outcome = .ok o) :
    ∃ causes, Told rule w₀ r.world o causes (Journal.events r.journal) := by
  induction hp generalizing causes with
  | @goes now e w hub journal turn e' r hs hn _ ih =>
    have hholds := h.performs hu hk hs
    rw [hn] at hholds
    obtain ⟨causes', hheld⟩ := hholds
    exact ih (perform_listened now turn.effects turn.world hk).2.1 hheld ho
  | waits hs _ ih => exact ih hk (h.waits hs) ho
  | ends hs hn =>
    have hholds := h.performs hu hk hs
    rw [hn] at hholds
    cases ho
    exact hholds
  | crashes => cases ho
  | @cut now e w hub journal time hc _ =>
    obtain ⟨hw, -⟩ := perform_listened time (e.cut w).2 (e.cut w).1 hk
    have hnothing : Effect.events (e.cut w).2 = [] := by
      unfold Effect.events
      rw [e.cut_marks]
      rfl
    cases ho
    refine ⟨causes, ?_⟩
    rw [hw, Journal.events_perform, hnothing, List.append_nil]
    exact h.cut hc

theorem kind_of_account {driver : String} {event : Event} (h : event ∈ account driver causes) :
    event.kind = .reconnectStarted ∨ event.kind = .reconnectFailed := by
  rcases List.mem_cons.mp h with rfl | h
  · exact Or.inl rfl
  · obtain ⟨i, hi, rfl⟩ := List.mem_mapIdx.mp h
    exact Or.inr rfl

structure Evident (o : EpisodeOutcome) (failed : Nat) (events : List Event) : Prop where
  recovered : o = .recovered (failed + 1) ↔ ∃ event ∈ events, event.kind = .reconnectSuccess
  abandoned : o = .abandoned failed ↔ ∃ event ∈ events, event.kind = .reconnectAbandoned
  cancelled : o = .cancelled ↔
    ∀ event ∈ events, event.kind = .reconnectStarted ∨ event.kind = .reconnectFailed

theorem evident_of_told {o : EpisodeOutcome} (h : Told rule w₀ w o causes events) :
    Evident o causes.length events := by
  obtain ⟨hcounts, rfl, -, -, -⟩ := h
  -- what is told before the end speaks for no outcome
  have exists_closing (kind : EventKind) (hs : kind ≠ .reconnectStarted)
      (hf : kind ≠ .reconnectFailed) :
      (∃ event ∈ account w₀.backend.driver causes ++ o.closing w₀.backend.driver,
        event.kind = kind) ↔ ∃ event ∈ o.closing w₀.backend.driver, event.kind = kind := by
    constructor
    · rintro ⟨event, hm, rfl⟩
      rcases List.mem_append.mp hm with hm | hm
      · rcases kind_of_account hm with hk | hk
        · exact absurd hk hs
        · exact absurd hk hf
      · exact ⟨event, hm, rfl⟩
    · rintro ⟨event, hm, hk⟩
      exact ⟨event, List.mem_append_right _ hm, hk⟩
  have forall_closing :
      (∀ event ∈ account w₀.backend.driver causes ++ o.closing w₀.backend.driver,
        event.kind = .reconnectStarted ∨ event.kind = .reconnectFailed) ↔
      ∀ event ∈ o.closing w₀.backend.driver,
        event.kind = .reconnectStarted ∨ event.kind = .reconnectFailed := by
    rw [List.forall_mem_append]
    exact ⟨And.right, fun h => ⟨fun _ hm => kind_of_account hm, h⟩⟩
  constructor
  · rw [exists_closing .reconnectSuccess nofun nofun]
    cases o <;> simp_all [EpisodeOutcome.closing, EpisodeOutcome.Counts, Event.reconnectSuccess,
      Event.healthy, Event.reconnectAbandoned]
  · rw [exists_closing .reconnectAbandoned nofun nofun]
    cases o <;> simp_all [EpisodeOutcome.closing, EpisodeOutcome.Counts, Event.reconnectSuccess,
      Event.healthy, Event.reconnectAbandoned]
  · rw [forall_closing]
    cases o <;> simp [EpisodeOutcome.closing, Event.reconnectSuccess, Event.healthy,
      Event.reconnectAbandoned]

theorem filterMap_cause_account (driver : String) (causes : List Failure) :
    (account driver causes).filterMap (·.cause) = causes := by
  induction causes using List.reverseRecOn with
  | nil => rfl
  | append_singleton causes cause ih =>
    rw [account_append_singleton, List.filterMap_append, ih]
    rfl

/-- The causes stand in the events. -/
theorem causes_of_told {o : EpisodeOutcome} (h : Told rule w₀ w o causes events) :
    events.filterMap (·.cause) = causes := by
  rw [h.events, List.filterMap_append, filterMap_cause_account]
  cases o <;> exact List.append_nil _

/-- An episode of an unhealthy target comes to an outcome, and if its subscribers leave the totals
alone, its events are the account of it, however and whenever it ends: they number its attempts,
name their causes and tell its outcome. What it leaves in the tally and in the status goes with
them. -/
theorem run_told (rule : EpisodeRule) (now : Nat) {w : World} {hub : Hub}
    (hu : w.tracker.status.health = .unhealthy) (hk : hub.KeepsTotals) :
    (∀ cancel, Passage rule now .opening w hub [] (run rule cancel now w hub) ∧
      (w.backend.NeverPanics → w.tracker.OnTime now none →
        ∃ o, (run rule cancel now w hub).outcome = .ok o)) ∧
    ∀ r o, Passage rule now .opening w hub [] r → r.outcome = .ok o → ∃ causes,
      Told rule w r.world o causes (Journal.events r.journal) ∧
      Evident o causes.length (Journal.events r.journal) := by
  constructor
  · intro cancel
    exact ⟨run_passage rule cancel now w hub, (run_outcome rule cancel now w hub).2⟩
  · intro r o hp ho
    obtain ⟨causes, htold⟩ := hp.told hu hk (.opening : Held rule w now _ w [] []) ho
    exact ⟨causes, htold, evident_of_told htold⟩

def briefRule : EpisodeRule := ⟨Policy.new 3 1 1, ⟨.deep, .ofMillis 5⟩⟩

/-- An unhealthy target behind a pool whose first connection is closed. The others are open, and the
first ping over them is refused. -/
def lentClosedDown : World :=
  { tracker := (Tracker.new 1 1).becomeUnhealthy
    backend := { Monitor.failingTwice with
      pings := ⟨[.answer 0 (some .cancelled)], .ok⟩
      connections := ⟨[.isClosed], .isOpen⟩ }
    entropy := default }

/-- The third attempt brings the target back, unless the episode is cancelled before it. -/
theorem run_told_brief :
    (∀ cancel, ∃ o, (run briefRule cancel 0 lentClosedDown (.empty 0)).outcome = .ok o) ∧
    Told briefRule lentClosedDown (run briefRule none 0 lentClosedDown (.empty 0)).world
      (.recovered 3) [.connectionClosed, .ofError (.ofMillis 5) .cancelled]
      (Journal.events (run briefRule none 0 lentClosedDown (.empty 0)).journal) ∧
    Told briefRule lentClosedDown
      (run briefRule (some ⟨1, false⟩) 0 lentClosedDown (.empty 0)).world
      .cancelled [.connectionClosed]
      (Journal.events (run briefRule (some ⟨1, false⟩) 0 lentClosedDown (.empty 0)).journal) := by
  have hk : (Hub.empty 0).KeepsTotals := nofun
  have hu : lentClosedDown.tracker.status.health = .unhealthy := rfl
  obtain ⟨hruns, htold⟩ := run_told briefRule 0 hu hk
  refine ⟨?_, ?_, ?_⟩
  · intro cancel
    have hb : lentClosedDown.backend.NeverPanics := by decide
    have ht : lentClosedDown.tracker.OnTime 0 none :=
      ⟨by decide, by decide, by decide, by decide⟩
    exact (hruns cancel).2 hb ht
  · obtain ⟨causes, hback, -⟩ := htold _ (.recovered 3) (hruns none).1 (by decide +kernel)
    have hcauses : causes = [.connectionClosed, .ofError (.ofMillis 5) .cancelled] := by
      rw [← causes_of_told hback]
      decide +kernel
    subst hcauses
    exact hback
  · obtain ⟨causes, hcut, -⟩ :=
      htold _ .cancelled (hruns (some ⟨1, false⟩)).1 (by decide +kernel)
    have hcauses : causes = [.connectionClosed] := by
      rw [← causes_of_told hcut]
      decide +kernel
    subst hcauses
    exact hcut

end Episode

end Liveness

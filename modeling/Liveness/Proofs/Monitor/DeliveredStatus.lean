import Liveness.Proofs.Monitor.Standing
/-!
# The status behind an event

Whoever gets an event of the loop finds a tracker that shows it already. For the end of an episode
that includes how many of its attempts have failed, counted by the events before.
-/
namespace Liveness

open Tracker (Reachable ResetAt)

def countFailed (failed : Nat) : Nat × Mark → Nat
  | (_, .started) => failed
  | (_, .announced e) =>
    match e.kind with
    | .reconnectStarted => 0
    | .reconnectFailed => failed + 1
    | _ => failed

def Journal.failedAttempts (j : Journal) : Nat := (Journal.marks j).foldl countFailed 0

/-- What the status shows while the event is delivered; `failed` attempts have been announced. -/
def Event.ShownBy (failed : Nat) (e : Event) (s : Status) : Prop :=
  match e.kind with
  | .healthy | .reconnectSuccess =>
    s.health = .healthy ∧ s.reconnecting = false ∧ s.attempt = 0 ∧ s.consecutiveFailures = 0
  | .unhealthy =>
    s.health = .unhealthy ∧ s.reconnecting = false ∧
      ∃ cause, e.cause = some cause ∧ s.lastError = some cause.message
  | .reconnectStarted => s.health = .unhealthy ∧ s.reconnecting = true ∧ s.attempt = 0
  | .reconnectFailed =>
    s.health = .unhealthy ∧ s.reconnecting = true ∧ e.attempt = some s.attempt ∧
      ∃ cause, e.cause = some cause ∧ s.lastError = some cause.message
  | .reconnectAbandoned =>
    s.health = .unhealthy ∧ s.reconnecting = false ∧ s.attempt = failed

variable {s : Settings} {rule : EpisodeRule} {now failed : Nat} {t u : Tracker} {e : Event}

/-- Its own announcement does not change what has to be shown. -/
theorem Event.ShownBy.counted {st : Status} (h : e.ShownBy failed st) (time : Nat) :
    e.ShownBy (countFailed failed (time, .announced e)) st := by
  unfold Event.ShownBy countFailed at *
  cases hk : e.kind <;> simpa only [hk] using h

theorem Tracker.Recovered.status (h : t.Recovered) : t.status.health = .healthy ∧
    t.status.reconnecting = false ∧ t.status.attempt = 0 ∧ t.status.consecutiveFailures = 0 :=
  ⟨h.health, h.reconnecting, h.attempt, h.failures⟩

theorem Tracker.lastError_of_attempt {failure : Failure} {i : Instant} {c : Transition}
    (h : t.recordAttempt (.error failure) i = .ok (u, c)) :
    u.status.lastError = some failure.message := by
  cases recordAttempt_eq_ok h with
  | fails => rfl

def Episode.failed? : Episode → Option Nat
  | .deciding attempts | .backingOff attempts _ | .attempting attempts _ => some attempts
  | .opening | .recovered _ => none

def Runner.Counts (failed : Nat) : Runner → Prop
  | .live (.reconnecting e) => ∀ attempts, e.failed? = some attempts → failed = attempts
  | _ => True

def failedAfter (failed : Nat) (event : Option Event) : Nat :=
  event.elim failed fun e => countFailed failed (0, .announced e)

theorem foldl_announcing (failed time : Nat) (event : Option Event) :
    ((announcing event).map (time, ·)).foldl countFailed failed = failedAfter failed event := by
  cases event <;> rfl

section Progress

variable {ep : Episode}

theorem Episode.Progress.shown {next : Episode.Next} (he : ep.Fits rule.policy now t)
    (hc : ∀ attempts, ep.failed? = some attempts → failed = attempts)
    (h : Progress rule now ep t u (some e) next) : e.ShownBy failed u.status := by
  cases h with
  | opens => exact ⟨he.1, rfl, rfl⟩
  | givesUp hm => exact ⟨he.1.health, rfl, he.1.attempt.trans (hc _ rfl).symm⟩
  | fails hs hn hr =>
    have hu := he.1.failed hr
    refine ⟨hu.health, hu.reconnecting, ?_, _, rfl, Tracker.lastError_of_attempt hr⟩
    rw [hu.attempt]
    rfl
  | reconnects hs hn hr => exact (Tracker.recovered_of_attempt hr).status
  | announces => exact Tracker.Recovered.status he

theorem Episode.Progress.counts {ep' : Episode} {event : Option Event}
    (hc : ∀ attempts, ep.failed? = some attempts → failed = attempts)
    (h : Progress rule now ep t u event (.going ep')) :
    ∀ attempts, ep'.failed? = some attempts → failedAfter failed event = attempts := by
  cases h with
  | opens =>
    intro attempts ha
    cases ha
    rfl
  | waits hm => exact hc
  | tries hu => exact hc
  | checks hs hn => exact hc
  | fails hs hn hr =>
    intro attempts ha
    cases ha
    simp [failedAfter, countFailed, Event.reconnectFailed, hc _ rfl]
  | reconnects hs hn hr =>
    intro attempts ha
    cases ha

variable {l : ControlLoop} {next : ControlLoop.Next}

theorem ControlLoop.Progress.shown {f g : UInt32} (ht : Reachable f g t) (hl : l.Fits s now t)
    (hc : (Runner.live l).Counts failed) (h : Progress s now l t u (some e) next) :
    e.ShownBy failed u.status := by
  cases h with
  | rises hs hn hr => exact (Tracker.recovered_of_check hr).status
  | falls hs hn hr =>
    obtain ⟨hu, hr, he⟩ := ht.fallen hr
    exact ⟨hu, hr, _, rfl, he⟩
  | continues hp => exact hp.shown hl.2 hc
  | leaves hp => exact hp.shown hl.2 hc
  | breaks hp => exact hp.shown hl.2 hc

theorem ControlLoop.Progress.counts {event : Option Event}
    (hc : (Runner.live l).Counts failed) (h : Progress s now l t u event next) :
    (Monitor.runnerAfter next).Counts (failedAfter failed event) := by
  cases h with
  | falls hs hn hr =>
    by_cases ha : s.autoReconnect = true
    · simp only [ha, if_true]
      intro attempts h
      cases h
    · simp only [ha]
      trivial
  | continues hp => exact hp.counts hc
  | _ => trivial

end Progress

theorem split_append {α : Type} {xs ys before after : List α} {a : α}
    (h : xs ++ ys = before ++ a :: after) :
    (∃ rest, xs = before ++ a :: rest) ∨ ∃ pre, before = xs ++ pre ∧ ys = pre ++ a :: after := by
  rcases List.append_eq_append_iff.mp h with ⟨pre, hb, hy⟩ | ⟨rest, hx, hr⟩
  · exact Or.inr ⟨pre, hb, hy⟩
  · cases rest with
    | nil =>
      simp only [List.nil_append] at hr
      exact Or.inr ⟨[], by simpa using hx.symm, hr.symm⟩
    | cons b rest =>
      simp only [List.cons_append, List.cons.injEq] at hr
      obtain ⟨rfl, -⟩ := hr
      exact Or.inl ⟨rest, hx⟩

namespace Monitor

variable {m m' : Monitor} {j : Journal}

theorem Moved.counts (h : m.runner.Counts failed) (hm : Moved m m' j) :
    m'.runner.Counts ((Journal.marks j).foldl countFailed failed) := by
  cases hm with
  | keeps hr => exact hr ▸ h
  | begins _ he =>
    rw [he.runner]
    trivial
  | progresses hl hp he =>
    rw [hl] at h
    rw [he.runner, he.marks, foldl_announcing]
    exact hp.counts h
  | @ends _ runner _ _ hr _ he =>
    rw [he.runner]
    cases runner with
    | live l => exact absurd rfl (hr l)
    | _ => trivial

theorem Life.counts (h : Life s j m) : m.runner.Counts (Journal.failedAttempts j) := by
  induction h with
  | new hn =>
    obtain ⟨-, -, -, hr, -⟩ := new_eq_ok hn
    rw [hr]
    trivial
  | move move _ he ih =>
    have h := (moved he).counts ih
    unfold Journal.failedAttempts
    rw [Journal.marks_append, List.foldl_append]
    exact h

/-- In the journal of one move at most one event is shown, by a tracker that fits it. -/
theorem Standing.shown_moved (h : m.Standing) (hc : m.runner.Counts failed) (hm : Moved m m' j)
    {before after : Journal} {time : Nat} {o : Output} (hj : j = before ++ (time, o) :: after)
    (ho : o.shown? = some (e, t)) :
    e.ShownBy ((Journal.marks before).foldl countFailed failed) t.status := by
  have hmem : (time, o) ∈ j := by simp [hj]
  cases hm with
  | keeps => cases hmem
  | begins _ he => simpa using (he.shown _ hmem e t ho).1
  | ends _ _ _ he => simpa using (he.shown _ hmem e t ho).1
  | @progresses l u event next _ hl hp he =>
    obtain ⟨hevent, hr⟩ := he.shown _ hmem e t ho
    obtain rfl := eq_of_mem_announcing hevent
    have hf := h.fits
    rw [hl] at hf hc
    have hshown : e.ShownBy failed t.status := by
      rw [hr.status_eq]
      exact hp.shown h.tracker hf hc
    -- of the one mark of this move, all or nothing comes before the output
    rcases he.split hj with ⟨hb, -⟩ | ⟨hb, -⟩
    · rw [hb]
      exact hshown
    · rw [hb]
      exact hshown.counted m.now

/-- No event of the loop is delivered before the state that caused it, neither when it is emitted
nor at any call that it makes: the status shows it, in every life. -/
theorem Life.delivered_status (h : Life s j m) {before after : Journal} {time : Nat} {o : Output}
    (hj : j = before ++ (time, o) :: after) (ho : o.shown? = some (e, t)) :
    e.ShownBy (Journal.failedAttempts before) t.status := by
  induction h generalizing after with
  | new => simp at hj
  | @move journal m move hl he ih =>
    -- the output was there before the move, or the move shows it
    rcases split_append hj with ⟨rest, hx⟩ | ⟨pre, rfl, hy⟩
    · exact ih hx
    · unfold Journal.failedAttempts
      rw [Journal.marks_append, List.foldl_append]
      exact hl.standing.shown_moved hl.counts (moved he) hy ho

/-- Two attempts fail while somebody listens, and the episode is given up. -/
def abandonedOutage : List Move :=
  [.register ⟨"observer", true, fun _ => .done⟩, .start, .turn, .turn, .turn, .turn, .turn, .pass 1,
    .turn, .turn, .turn, .pass 2, .turn, .turn, .turn]

/-- The last thing that is shown is that two attempts have failed. -/
theorem Life.delivered_status_abandoned : ∃ j m before time o e t, Life eagerSettings j m ∧
    j = before ++ [(time, o)] ∧ o.shown? = some (e, t) ∧ e.kind = .reconnectAbandoned ∧
    Journal.failedAttempts before = 2 ∧ e.ShownBy 2 t.status := by
  have hf : ((Monitor.new eagerSettings
      { failingTwice with pings := ⟨[], .answer 0 (some .cancelled)⟩ } default 1).toOption.bind
      fun m => (m.follow abandonedOutage).map fun p =>
        (p.2.getLast?.bind fun q => q.2.shown?.map (·.1.kind),
          Journal.failedAttempts p.2.dropLast)) =
      some (some .reconnectAbandoned, 2) := by
    decide +kernel
  obtain ⟨j, m, hl, hj⟩ := Life.of_follow hf
  obtain ⟨hlast, hfailed⟩ := Prod.mk.inj hj
  obtain ⟨⟨time, o⟩, hq, hk⟩ := Option.bind_eq_some_iff.mp hlast
  obtain ⟨⟨e, t⟩, ho, hk⟩ := Option.map_eq_some_iff.mp hk
  obtain ⟨before, rfl⟩ := List.getLast?_eq_some_iff.mp hq
  rw [List.dropLast_concat] at hfailed
  have h := hl.delivered_status rfl ho
  rw [hfailed] at h
  exact ⟨_, m, before, time, o, e, t, hl, rfl, ho, hk, hfailed, h⟩

end Monitor

end Liveness

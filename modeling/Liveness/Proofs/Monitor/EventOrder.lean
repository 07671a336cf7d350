import Liveness.Proofs.Monitor.Standing
/-!
# The order of events

The events of a monitor, whatever happens to it, are read by a small automaton. Its phase is tied
to the loop and to the health of the tracker, and that is what each move keeps.
-/
namespace Liveness

open Tracker (Reachable ResetAt)

/-- How far the events of a monitor have come. -/
inductive Phase where
  | silent
  | up
  /-- Announced as unhealthy at this time. -/
  | fallen (since : Nat)
  /-- In an episode with so many failed attempts. -/
  | trying (failed : Nat)
  /-- The loop ended inside the episode, and was started again. -/
  | interrupted
  /-- Reconnected at this time. -/
  | recovering (since : Nat)
  | abandoned
deriving DecidableEq

namespace Phase

def announce (s : Settings) (time : Nat) (e : Event) : Phase → Option Phase
  | .silent =>
    match e.kind with
    | .healthy => some .up
    | .unhealthy => some (.fallen time)
    | _ => none
  | .up => if e.kind = .unhealthy then some (.fallen time) else none
  | .fallen since =>
    if s.autoReconnect then
      if e.kind = .reconnectStarted ∧ time = since then some (.trying 0) else none
    else if e.kind = .healthy then some .up else none
  | .trying failed =>
    match e.kind with
    | .reconnectFailed =>
      if e.attempt = some (failed + 1) ∧ failed < s.policy.maxAttempts.toNat then
        some (.trying (failed + 1))
      else none
    | .reconnectSuccess =>
      if e.attempt = some (failed + 1) ∧ failed < s.policy.maxAttempts.toNat then
        some (.recovering time)
      else none
    | .reconnectAbandoned => if 1 ≤ failed then some .abandoned else none
    | _ => none
  | .recovering since => if e.kind = .healthy ∧ time = since then some .up else none
  | .interrupted | .abandoned => if e.kind = .healthy then some .up else none

/-- An episode that is not over when the loop starts was interrupted. No start comes between two
events of which one follows immediately on the other. -/
def restart (s : Settings) : Phase → Option Phase
  | .trying _ => some .interrupted
  | .fallen since => if s.autoReconnect then none else some (.fallen since)
  | .recovering _ => none
  | phase => some phase

def next (s : Settings) (phase : Phase) : Nat × Mark → Option Phase
  | (_, .started) => phase.restart s
  | (time, .announced e) => phase.announce s time e

/-- Nothing has to follow immediately. -/
def Settled (s : Settings) : Phase → Prop
  | .fallen _ => s.autoReconnect = false
  | .recovering _ => False
  | _ => True

end Phase

def Journal.phase? (s : Settings) (j : Journal) : Option Phase :=
  (Journal.marks j).foldlM (Phase.next s) .silent

/-- Which events tell the number of an attempt, and which a cause. -/
structure Event.Detailed (e : Event) : Prop where
  attempt : e.attempt.isSome = true ↔ e.kind = .reconnectFailed ∨ e.kind = .reconnectSuccess
  cause : e.cause.isSome = true ↔ e.kind = .unhealthy ∨ e.kind = .reconnectFailed

variable {s : Settings} {now : Nat} {t u : Tracker} {phase : Phase} {event : Option Event}

namespace Phase

def Rests (s : Settings) (health : Health) : Phase → Prop
  | .silent => health = .unknown
  | .up => health = .healthy
  | .fallen _ => health = .unhealthy ∧ s.autoReconnect = false
  | .interrupted | .abandoned => health = .unhealthy
  | .trying _ | .recovering _ => False

/-- While no loop is running, the last one may have ended inside an episode. -/
def Stopped (s : Settings) (health : Health) (phase : Phase) : Prop :=
  phase.Rests s health ∨ (∃ failed, phase = .trying failed) ∧ health = .unhealthy

def after (s : Settings) (time : Nat) (phase : Phase) : Option Event → Option Phase
  | none => some phase
  | some e => phase.announce s time e

theorem read_announcing (s : Settings) (time : Nat) (phase : Phase) (event : Option Event) :
    ((announcing event).map (time, ·)).foldlM (next s) phase = phase.after s time event := by
  cases event with
  | none => rfl
  | some e => simp [announcing, after, next]

theorem Rests.rises {health : Health} (h : phase.Rests s health) (hh : health ≠ .healthy)
    (time : Nat) (driver : String) : phase.announce s time (.healthy driver) = some .up := by
  cases phase with
  | silent => rfl
  | up => exact absurd h hh
  | fallen since => simp [announce, h.2, Event.healthy]
  | interrupted => rfl
  | abandoned => rfl
  | trying failed => exact h.elim
  | recovering since => exact h.elim

theorem Rests.falls {health : Health} (h : phase.Rests s health) (hh : health ≠ .unhealthy)
    (time : Nat) (driver : String) (cause : Failure) :
    phase.announce s time (.unhealthy driver cause) = some (.fallen time) := by
  cases phase with
  | silent => rfl
  | up => rfl
  | fallen since => exact absurd h.1 hh
  | interrupted => exact absurd h hh
  | abandoned => exact absurd h hh
  | trying failed => exact h.elim
  | recovering since => exact h.elim

theorem Stopped.settled {health : Health} (h : phase.Stopped s health) : phase.Settled s := by
  rcases h with h | ⟨⟨failed, rfl⟩, -⟩
  · cases phase with
    | fallen since => exact h.2
    | recovering since => exact h
    | _ => trivial
  · trivial

theorem Stopped.restarts {health : Health} (h : phase.Stopped s health) :
    ∃ phase', phase.restart s = some phase' ∧ phase'.Rests s health := by
  rcases h with h | ⟨⟨failed, rfl⟩, hh⟩
  · cases phase with
    | fallen since => exact ⟨.fallen since, by simp [restart, h.2], h⟩
    | trying failed => exact h.elim
    | recovering since => exact h.elim
    | _ => exact ⟨_, rfl, h⟩
  · exact ⟨.interrupted, rfl, hh⟩

end Phase

def Episode.phaseAt (now : Nat) : Episode → Phase
  | .opening => .fallen now
  | .deciding attempts | .backingOff attempts _ | .attempting attempts _ => .trying attempts
  | .recovered _ => .recovering now

def Runner.Tells (s : Settings) (now : Nat) (t : Tracker) (phase : Phase) : Runner → Prop
  | .live (.reconnecting e) => phase = e.phaseAt now
  | .live _ => phase.Rests s t.status.health
  | _ => phase.Stopped s t.status.health

theorem Runner.Tells.of_resetAt {r : Runner} {i : Instant} (h : r.Tells s now t phase)
    (hr : ResetAt i t u) : r.Tells s now u phase := by
  cases r with
  | live l => cases l <;> simpa only [Tells, hr.status_eq] using h
  | _ => simpa only [Tells, hr.status_eq] using h

theorem Runner.Tells.at_rest {r : Runner} (h : r.Tells s now t phase) (hr : r.atRest = true)
    (later : Nat) : r.Tells s later t phase := by
  cases r with
  | live l =>
    cases l with
    | reconnecting e =>
      cases e with
      | backingOff attempts until_ => exact h
      | attempting attempts check => exact h
      | _ => cases hr
    | _ => exact h
  | _ => exact h

theorem Runner.Tells.stopped {r : Runner} (h : r.Tells s now t phase) (hf : r.Fits s now t)
    (hr : r.atRest = true) : phase.Stopped s t.status.health := by
  cases r with
  | live l =>
    cases l with
    | reconnecting e =>
      cases e with
      | backingOff attempts until_ => exact Or.inr ⟨⟨attempts, h⟩, hf.2.1.health⟩
      | attempting attempts check => exact Or.inr ⟨⟨attempts, h⟩, hf.2.1.health⟩
      | _ => cases hr
    | _ => exact Or.inl h
  | _ => exact h

/-- However low the ceiling on its time, an episode that has just begun may try. -/
theorem Policy.Valid.mayTry_first {p : Policy} (hp : p.Valid)
    (ht : t.episodeStart = some (instantAt now)) :
    Episode.mayTry p 0 (t.episodeElapsed (instantAt now)) = true := by
  have he : t.episodeElapsed (instantAt now) = .zero := by
    simp [Tracker.episodeElapsed, ht, Duration.since, Duration.zero]
  rw [he]
  exact p.mayTry_at_once hp.attempts

section Progress

variable {e e' : Episode}

theorem Episode.Progress.tells_going (ha : s.autoReconnect = true)
    (he : e.Fits s.policy now t) (h : Progress s.episodeRule now e t u event (.going e')) :
    (e.phaseAt now).after s now event = some (e'.phaseAt now) := by
  cases h with
  | opens => simp [phaseAt, Phase.after, Phase.announce, ha, Event.reconnectStarted]
  | waits hm => rfl
  | tries hu => rfl
  | checks hs hn => rfl
  | fails hs hn hr => simp [phaseAt, Phase.after, Phase.announce, Event.reconnectFailed, he.2]
  | reconnects hs hn hr =>
    simp [phaseAt, Phase.after, Phase.announce, Event.reconnectSuccess, he.2]

theorem Episode.Progress.tells_ended {o : EpisodeOutcome} (hp : s.policy.Valid)
    (he : e.Fits s.policy now t) (h : Progress s.episodeRule now e t u event (.ended o)) :
    ∃ phase, (e.phaseAt now).after s now event = some phase ∧
      phase.Rests s u.status.health := by
  cases h with
  | @givesUp _ attempts driver hm =>
    -- nobody gives up at once: no time has passed since the episode began
    have hk : 1 ≤ attempts := by
      rcases Nat.eq_zero_or_pos attempts with rfl | hk
      · have := hp.mayTry_first (he.2 rfl)
        rw [Settings.episodeRule, this] at hm
        cases hm
      · exact hk
    refine ⟨.abandoned, ?_, he.1.health⟩
    simp [phaseAt, Phase.after, Phase.announce, Event.reconnectAbandoned, hk]
  | announces =>
    refine ⟨.up, ?_, he.health⟩
    simp [phaseAt, Phase.after, Phase.announce, Event.healthy]

theorem Episode.Progress.tells_crashed {c : Crash} (he : e.Fits s.policy now t)
    (h : Progress s.episodeRule now e t u event (.crashed c)) :
    (e.phaseAt now).after s now event = some (e.phaseAt now) ∧
      (e.phaseAt now).Stopped s u.status.health := by
  cases h with
  | dies hs hn => exact ⟨rfl, Or.inr ⟨⟨_, rfl⟩, he.1.health⟩⟩
  | overflows hs hn hr => exact ⟨rfl, Or.inr ⟨⟨_, rfl⟩, he.1.health⟩⟩

theorem ControlLoop.Progress.tells {f g : UInt32} {l : ControlLoop} {next : ControlLoop.Next}
    (hs : s.Valid) (ht : Reachable f g t) (hl : l.Fits s now t)
    (hp : (Runner.live l).Tells s now t phase) (h : Progress s now l t u event next) :
    ∃ phase', phase.after s now event = some phase' ∧
      (Monitor.runnerAfter next).Tells s now u phase' := by
  cases h with
  | begins => exact ⟨phase, rfl, hp⟩
  | ticks hd => exact ⟨phase, rfl, hp⟩
  | checks hs hn => exact ⟨phase, rfl, hp⟩
  | dies hs hn => exact ⟨phase, rfl, Or.inl hp⟩
  | overflows hs hn hr => exact ⟨phase, rfl, Or.inl hp⟩
  | keeps hs hn hr =>
    refine ⟨phase, rfl, ?_⟩
    have hh := (ht.check_health hr).2 rfl
    unfold Monitor.runnerAfter Runner.Tells
    rw [hh]
    exact hp
  | @rises _ _ _ _ _ _ _ driver hs hn hr =>
    obtain ⟨hu, hn⟩ := (ht.check_health hr).1 _ rfl
    exact ⟨.up, Phase.Rests.rises hp hn now driver, hu⟩
  | @falls _ _ _ _ _ _ failure driver hs hn hr =>
    obtain ⟨hu, hn⟩ := (ht.check_health hr).1 _ rfl
    refine ⟨.fallen now, Phase.Rests.falls hp hn now driver failure, ?_⟩
    by_cases ha : s.autoReconnect = true
    · simp only [ha, if_true]
      rfl
    · simp only [ha]
      exact ⟨hu, by simpa using ha⟩
  | continues he =>
    obtain rfl : phase = _ := hp
    exact ⟨_, he.tells_going hl.1 hl.2, rfl⟩
  | leaves he =>
    obtain rfl : phase = _ := hp
    exact he.tells_ended (hs.policy hl.1) hl.2
  | breaks he =>
    obtain rfl : phase = _ := hp
    exact ⟨_, he.tells_crashed hl.2⟩

end Progress

section Detailed

theorem Episode.Progress.detailed {rule : EpisodeRule} {ep : Episode} {next : Episode.Next}
    {e : Event} (h : Progress rule now ep t u (some e) next) : e.Detailed := by
  cases h with
  | opens => constructor <;> simp [Event.reconnectStarted]
  | givesUp hm => constructor <;> simp [Event.reconnectAbandoned]
  | fails hs hn hr => constructor <;> simp [Event.reconnectFailed]
  | reconnects hs hn hr => constructor <;> simp [Event.reconnectSuccess]
  | announces => constructor <;> simp [Event.healthy]

theorem ControlLoop.Progress.detailed {l : ControlLoop} {next : ControlLoop.Next} {e : Event}
    (h : Progress s now l t u (some e) next) : e.Detailed := by
  cases h with
  | rises hs hn hr => constructor <;> simp [Event.healthy]
  | falls hs hn hr => constructor <;> simp [Event.unhealthy]
  | continues he => exact he.detailed
  | leaves he => exact he.detailed
  | breaks he => exact he.detailed

end Detailed

namespace Monitor

variable {m m' : Monitor} {j : Journal}

theorem Standing.tells_moved (h : m.Standing)
    (hp : m.runner.Tells m.settings m.now m.tracker phase) (hm : Moved m m' j) :
    ∃ phase', (Journal.marks j).foldlM (Phase.next m.settings) phase = some phase' ∧
      m'.runner.Tells m.settings m'.now m'.tracker phase' := by
  cases hm with
  | keeps hr hn ht =>
    refine ⟨phase, rfl, ?_⟩
    rw [hr]
    refine Runner.Tells.of_resetAt ?_ ht
    rcases hn with hn | hn
    · rw [hn]
      exact hp
    · exact hp.at_rest hn _
  | begins hr he =>
    have hstop : phase.Stopped m.settings m.tracker.status.health := by
      rcases hr with hr | ⟨panicked, hr⟩
      all_goals
        rw [hr] at hp
        exact hp
    obtain ⟨phase', hread, hrest⟩ := hstop.restarts
    refine ⟨phase', ?_, ?_⟩
    · rw [he.marks]
      simp [Phase.next, hread]
    · rw [he.runner]
      exact Runner.Tells.of_resetAt (r := .live .unstarted) hrest he.tracker
  | progresses hl hprog he =>
    have hf := h.fits
    rw [hl] at hp hf
    obtain ⟨phase', hread, htell⟩ := hprog.tells h.valid h.tracker hf hp
    refine ⟨phase', ?_, ?_⟩
    · rw [he.marks, Phase.read_announcing, hread]
    · rw [he.runner, he.now]
      exact htell.of_resetAt he.tracker
  | @ends t runner _ hrest hr ht he =>
    -- an episode that ends here is told only by the next start
    have hstop := hp.stopped h.fits hrest
    refine ⟨phase, ?_, ?_⟩
    · rw [he.marks]
      rfl
    · rw [he.runner]
      refine Runner.Tells.of_resetAt ?_ he.tracker
      have hh : t.status.health = m.tracker.status.health := by
        rcases ht with rfl | rfl <;> rfl
      cases runner with
      | live l => exact absurd rfl (hr l)
      | _ => simpa only [Runner.Tells, hh] using hstop

theorem Life.tells (h : Life s j m) :
    ∃ phase, Journal.phase? s j = some phase ∧ m.runner.Tells s m.now m.tracker phase := by
  induction h with
  | new hn =>
    obtain ⟨-, -, -, hr, ht⟩ := new_eq_ok hn
    refine ⟨.silent, rfl, ?_⟩
    rw [hr, ht]
    exact Or.inl rfl
  | @move journal m move hl he ih =>
    obtain ⟨phase, hread, htell⟩ := ih
    obtain ⟨phase', hread', htell'⟩ :=
      hl.standing.tells_moved (hl.settings_eq.symm ▸ htell) (moved he)
    rw [hl.settings_eq] at hread' htell'
    refine ⟨phase', ?_, htell'⟩
    unfold Journal.phase? at hread ⊢
    rw [Journal.marks_append, List.foldlM_append, hread]
    exact hread'

theorem Moved.detailed (hm : Moved m m' j) :
    ∀ time e, (time, Mark.announced e) ∈ Journal.marks j → e.Detailed := by
  intro time e hmem
  cases hm with
  | keeps => cases hmem
  | begins _ he =>
    rw [he.marks] at hmem
    simp at hmem
  | @progresses _ _ event _ _ _ hprog he =>
    rw [he.marks] at hmem
    obtain ⟨mark, hmark, heq⟩ := List.mem_map.mp hmem
    cases heq
    cases event with
    | none => cases hmark
    | some e' =>
      cases List.mem_singleton.mp hmark
      exact hprog.detailed
  | ends _ _ _ he =>
    rw [he.marks] at hmem
    cases hmem

theorem Life.detailed (h : Life s j m) :
    ∀ time e, (time, Mark.announced e) ∈ Journal.marks j → e.Detailed := by
  induction h with
  | new => simp
  | move move _ he ih =>
    intro time e hmem
    rw [Journal.marks_append] at hmem
    rcases List.mem_append.mp hmem with hmem | hmem
    · exact ih time e hmem
    · exact (moved he).detailed time e hmem

/-- In every life the events come in order, what follows immediately on an event has followed
before the loop waits, and the events tell what is told about them. -/
theorem Life.events_in_order (h : Life s j m) :
    (∃ phase, Journal.phase? s j = some phase ∧ (m.atRest = true → phase.Settled s)) ∧
      ∀ time e, (time, Mark.announced e) ∈ Journal.marks j → e.Detailed := by
  obtain ⟨phase, hread, htell⟩ := h.tells
  refine ⟨⟨phase, hread, ?_⟩, h.detailed⟩
  intro hrest
  have hfits := h.standing.fits
  rw [h.settings_eq] at hfits
  exact (htell.stopped hfits hrest).settled

/-- After an episode that was cut short nothing is told of the target until a check finds it healthy. -/
theorem Life.events_in_order_interrupted : ∃ j m, Life eagerSettings j m ∧
    Journal.marks j =
      [(0, .started), (0, .announced (.unhealthy "target" (.collaborator "Cancelled"))),
        (0, .announced (.reconnectStarted "target")),
        (1, .announced (.reconnectFailed 1 (.collaborator "Cancelled"))),
        (7, .started), (7, .announced (.healthy "target"))] ∧
    Journal.phase? eagerSettings j = some .up ∧ m.atRest = true ∧ Phase.up.Settled eagerSettings ∧
    ∀ time e, (time, Mark.announced e) ∈ Journal.marks j → e.Detailed := by
  have hf : ((Monitor.new eagerSettings failingTwice default 1).toOption.bind fun m =>
      (m.follow interruptedOutage).map fun p =>
        (Journal.marks p.2, Journal.phase? eagerSettings p.2, p.1.atRest)) =
      some
        ([(0, .started), (0, .announced (.unhealthy "target" (.collaborator "Cancelled"))),
            (0, .announced (.reconnectStarted "target")),
            (1, .announced (.reconnectFailed 1 (.collaborator "Cancelled"))),
            (7, .started), (7, .announced (.healthy "target"))], some .up, true) := by
    decide +kernel
  obtain ⟨j, m, hl, hj⟩ := Life.of_follow hf
  simp only [Prod.mk.injEq] at hj
  obtain ⟨hmarks, hphase, hrest⟩ := hj
  obtain ⟨⟨phase, hread, hsettled⟩, hdetailed⟩ := hl.events_in_order
  obtain rfl : phase = .up := Option.some.inj (hread.symm.trans hphase)
  exact ⟨j, m, hl, hmarks, hphase, hrest, hsettled hrest, hdetailed⟩

end Monitor

end Liveness

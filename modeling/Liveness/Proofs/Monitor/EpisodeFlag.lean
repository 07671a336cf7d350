import Liveness.Proofs.Monitor.Lifecycle
/-!
# The flag of an episode

A status says that the monitor is reconnecting. It is right as long as a loop is inside an episode,
after the start of it has been announced and before its outcome, and nearly always wrong to go on
saying so: every way out of an episode takes the flag back but one. A panic of the target ends the
loop where it stands, and the flag then stays until the target becomes healthy again or a later loop
is stopped.
-/
namespace Liveness

def Episode.inProgress : Episode → Bool
  | .deciding _ | .backingOff .. | .attempting .. => true
  | .opening | .recovered _ => false

def ControlLoop.inEpisode : ControlLoop → Bool
  | .reconnecting e => e.inProgress
  | _ => false

def Runner.inEpisode : Runner → Bool
  | .live l => l.inEpisode
  | _ => false

theorem Runner.inEpisode_live {r : Runner} (h : r.inEpisode = true) :
    ∃ e, r = .live (.reconnecting e) ∧ e.inProgress = true := by
  cases r with
  | live l =>
    cases l with
    | reconnecting e => exact ⟨e, rfl, h⟩
    | _ => cases h
  | _ => cases h

/-- Whether an episode is open, after one mark more. A loop begins outside of any. -/
def openAfter (isOpen : Bool) : Nat × Mark → Bool
  | (_, .started) => false
  | (_, .announced e) =>
    match e.kind with
    | .reconnectStarted => true
    | .reconnectSuccess | .reconnectAbandoned => false
    | _ => isOpen

def Journal.episodeOpen (j : Journal) : Bool := (Journal.marks j).foldl openAfter false

theorem Journal.episodeOpen_append (j k : Journal) :
    Journal.episodeOpen (j ++ k) = (Journal.marks k).foldl openAfter (Journal.episodeOpen j) := by
  simp [Journal.episodeOpen]

variable {s : Settings} {rule : EpisodeRule} {now : Nat} {t u : Tracker} {event : Option Event}

/-- Where an episode stands, the flag says whether it is in progress. -/
theorem Episode.Fits.reconnecting_eq {p : Policy} {e : Episode} (h : e.Fits p now t) :
    t.status.reconnecting = e.inProgress := by
  cases e with
  | opening => exact h.2
  | deciding attempts => exact h.1.reconnecting
  | backingOff attempts until_ => exact h.1.reconnecting
  | attempting attempts check => exact h.1.reconnecting
  | recovered attempts => exact h.reconnecting

/-- An episode is open from the event that starts it to the event that ends it. -/
theorem Episode.Progress.opens_closes {e e' : Episode}
    (h : Progress rule now e t u event (.going e')) (time : Nat) :
    ((announcing event).map (time, ·)).foldl openAfter e.inProgress = e'.inProgress := by
  cases h <;> rfl

theorem Episode.Progress.closes {e : Episode} {o : EpisodeOutcome}
    (h : Progress rule now e t u event (.ended o)) (time : Nat) :
    ((announcing event).map (time, ·)).foldl openAfter e.inProgress = false := by
  cases h <;> rfl

theorem Episode.Progress.closed_tracker {e : Episode} {o : EpisodeOutcome}
    (he : e.Fits rule.policy now t) (h : Progress rule now e t u event (.ended o)) :
    u.status.reconnecting = false := by
  cases h with
  | givesUp => rfl
  | announces => exact he.reconnecting

theorem Episode.Progress.crashed_tracker {e : Episode} {c : Crash}
    (h : Progress rule now e t u event (.crashed c)) : u = t ∧ e.inProgress = true := by
  cases h <;> exact ⟨rfl, rfl⟩

/-- Outside of episodes nothing is announced that opens one. -/
theorem ControlLoop.Progress.opens_closes {l l' : ControlLoop}
    (h : Progress s now l t u event (.going l')) (time : Nat) :
    ((announcing event).map (time, ·)).foldl openAfter l.inEpisode = l'.inEpisode := by
  cases h with
  | falls =>
    by_cases ha : s.autoReconnect = true
    · simp only [ha, if_true]
      rfl
    · simp only [ha]
      rfl
  | continues he => exact he.opens_closes time
  | leaves he => exact he.closes time
  | _ => rfl

/-- A loop crashes inside an episode and leaves the flag, or outside of any. -/
theorem ControlLoop.Progress.crashed_tracker {l : ControlLoop} {c : Crash}
    (h : Progress s now l t u event (.crashed c)) : u = t := by
  cases h with
  | dies => rfl
  | overflows => rfl
  | breaks he => exact he.crashed_tracker.1

theorem ControlLoop.Progress.flag_outside {f g : UInt32} {l : ControlLoop}
    {next : ControlLoop.Next} (ht : Tracker.Reachable f g t) (hl : ∀ e, l ≠ .reconnecting e)
    (h : Progress s now l t u event next) : u.status.reconnecting =
      (t.status.reconnecting && !decide (u.status.health = .healthy)) := by
  have same {v : Tracker} (hr : v.status.reconnecting = t.status.reconnecting)
      (hh : v.status.health = t.status.health) : v.status.reconnecting =
        (t.status.reconnecting && !decide (v.status.health = .healthy)) := by
    rw [hr, hh]
    cases hrec : t.status.reconnecting with
    | false => rfl
    | true => simp [ht.unhealthy hrec]
  cases h with
  | keeps hs hn hr =>
    obtain ⟨tally, hc⟩ := Tracker.recordCheck_eq_ok hr
    cases hc with
    | succeeds => exact same (by simp) (by simp)
    | fails => exact same (by simp) (by simp)
  | rises hs hn hr =>
    have hu := Tracker.recovered_of_check hr
    simp [hu.reconnecting, hu.health]
  | falls hs hn hr =>
    obtain ⟨-, hu, -⟩ := ht.fallen hr
    obtain ⟨hcommits, -⟩ := ht.check_health hr
    obtain ⟨-, hne⟩ := hcommits .unhealthy rfl
    -- an episode would have been one of an unhealthy target
    have hrec : t.status.reconnecting = false := by
      rw [← Bool.not_eq_true]
      intro hrec
      exact hne (ht.unhealthy hrec)
    simp [hu, hrec]
  | continues => exact absurd rfl (hl _)
  | leaves => exact absurd rfl (hl _)
  | breaks => exact absurd rfl (hl _)
  | _ => exact same rfl rfl

/-- An episode is entered before its start is announced. -/
theorem ControlLoop.Progress.outside {l : ControlLoop} {next : ControlLoop.Next}
    (hl : ∀ e, l ≠ .reconnecting e) (h : Progress s now l t u event next) :
    (Monitor.runnerAfter next).inEpisode = false := by
  cases h with
  | falls =>
    by_cases ha : s.autoReconnect = true
    · simp only [ha, if_true]
      rfl
    · simp only [ha]
      rfl
  | continues => exact absurd rfl (hl _)
  | _ => rfl

namespace Monitor

variable {steps : List (Monitor × Move)} {j : Journal} {m m' : Monitor} {move : Move}
  {orphaned : Bool}

def Orphans (m m' : Monitor) : Prop := m.runner.inEpisode = true ∧ m'.runner = .ended true

def Settles (m m' : Monitor) : Prop :=
  m.isRunning = true ∧ m'.runner = .idle ∨ m'.tracker.status.health = .healthy

instance (m m' : Monitor) : Decidable (m.Orphans m') := inferInstanceAs (Decidable (_ ∧ _))

instance (m m' : Monitor) : Decidable (m.Settles m') := inferInstanceAs (Decidable (_ ∨ _))

def orphanedAfter (orphaned : Bool) (m m' : Monitor) : Bool :=
  if m.Orphans m' then true else if m.Settles m' then false else orphaned

/-- An episode has lost its loop, and nothing has settled it since. -/
def orphanedBy (steps : List (Monitor × Move)) : Bool :=
  steps.foldl (fun orphaned p => orphanedAfter orphaned p.1 (p.1.next p.2).1) false

theorem orphanedBy_append_singleton (steps : List (Monitor × Move)) (m : Monitor) (move : Move) :
    orphanedBy (steps ++ [(m, move)]) = orphanedAfter (orphanedBy steps) m (m.next move).1 := by
  simp [orphanedBy]

/-- What the flag says. While an episode goes on, none is orphaned. -/
structure Flagged (orphaned : Bool) (m : Monitor) : Prop where
  flag : m.isReconnecting = (m.runner.inEpisode || orphaned)
  apart : m.runner.inEpisode = true → orphaned = false

/-- No loop of its own reaches an episode before the one that is orphaned is settled. -/
theorem Flagged.of_reconnecting {e : Episode} (h : m.Flagged orphaned) (hm : m.Standing)
    (hr : m.runner = .live (.reconnecting e)) : orphaned = false := by
  have hfits := hm.fits
  rw [hr] at hfits
  have hrec : m.isReconnecting = e.inProgress := hfits.2.reconnecting_eq
  obtain ⟨hflag, hapart⟩ := h
  rw [hrec, hr] at hflag
  rw [hr] at hapart
  cases hin : e.inProgress with
  | true => exact hapart hin
  | false =>
    have hnone : false = (false || orphaned) := by
      rw [← hin]
      exact hflag
    exact hnone.symm

/-- Where no loop is inside an episode, what has been orphaned stays so until the target is
healthy. -/
theorem Flagged.outside (h : m.Flagged orphaned) (hr : m.runner.inEpisode = false)
    (hr' : m'.runner.inEpisode = false) (hs : ¬(m.isRunning = true ∧ m'.runner = .idle))
    (hf : m'.isReconnecting =
      (m.isReconnecting && !decide (m'.tracker.status.health = .healthy))) :
    m'.Flagged (m.orphanedAfter orphaned m') := by
  have hafter : m.orphanedAfter orphaned m' =
      (orphaned && !decide (m'.tracker.status.health = .healthy)) := by
    by_cases hh : m'.tracker.status.health = .healthy <;>
      simp [orphanedAfter, Orphans, Settles, hr, hs, hh]
  refine ⟨?_, ?_⟩
  · rw [hf, hafter, h.flag, hr, hr', Bool.false_or, Bool.false_or]
  · simp [hr']

/-- The target of a monitor that reconnects is not healthy. -/
theorem Standing.flag_same (hm : m.Standing) (ht : m'.tracker.status = m.tracker.status) :
    m'.isReconnecting = (m.isReconnecting && !decide (m'.tracker.status.health = .healthy)) := by
  have hsame : m'.isReconnecting = m.isReconnecting := congrArg Status.reconnecting ht
  rw [hsame, ht]
  cases hrec : m.isReconnecting with
  | false => rfl
  | true => simp [hm.tracker.unhealthy hrec]

theorem Flagged.keeps (h : m.Flagged orphaned) (hm : m.Standing) (hr : m'.runner = m.runner)
    (ht : m'.tracker.status = m.tracker.status) : m'.Flagged (m.orphanedAfter orphaned m') := by
  by_cases hin : m.runner.inEpisode = true
  · obtain ⟨e, hlive, -⟩ := Runner.inEpisode_live hin
    have hnone := h.apart hin
    subst hnone
    have hafter : m.orphanedAfter false m' = false := by
      simp [orphanedAfter, Orphans, hr, hlive]
    refine ⟨?_, fun _ => hafter⟩
    rw [hafter, hr, ← h.flag]
    exact congrArg Status.reconnecting ht
  · have hout : m.runner.inEpisode = false := by simpa using hin
    refine h.outside hout (by rw [hr, hout]) ?_ (hm.flag_same ht)
    rintro ⟨hrun, hidle⟩
    obtain ⟨l, hl⟩ := runner_of_isRunning hrun
    rw [hr, hl] at hidle
    cases hidle

theorem runnerAfter_ne_idle (next : ControlLoop.Next) : runnerAfter next ≠ .idle := by
  cases next <;> nofun

/-- A step of an episode: the flag goes with it, and stays behind if it crashes. -/
theorem Flagged.inside {e : Episode} {event : Option Event} {next : ControlLoop.Next}
    (h : m.Flagged orphaned) (hm : m.Standing) (hm' : m'.Standing)
    (hr : m.runner = .live (.reconnecting e))
    (hp : ControlLoop.Progress m.settings m.now (.reconnecting e) m.tracker t event next)
    (hr' : m'.runner = runnerAfter next) (hflag : m'.isReconnecting = t.status.reconnecting) :
    m'.Flagged (m.orphanedAfter orphaned m') := by
  have hnone := h.of_reconnecting hm hr
  subst hnone
  have hfits := hm.fits
  have hfits' := hm'.fits
  rw [hr] at hfits
  rw [hr'] at hfits'
  -- nothing is orphaned but by a crash
  have hgoing (hc : m'.runner ≠ .ended true) : m.orphanedAfter false m' = false := by
    simp [orphanedAfter, Orphans, hc]
  cases hp with
  | continues he =>
    have hafter := hgoing (by simp [hr', runnerAfter])
    refine ⟨?_, fun _ => hafter⟩
    rw [hafter, hr', Bool.or_false]
    exact hfits'.2.reconnecting_eq
  | leaves he =>
    have hafter := hgoing (by simp [hr', runnerAfter])
    refine ⟨?_, fun _ => hafter⟩
    rw [hflag, hafter, hr', Bool.or_false]
    exact he.closed_tracker hfits.2
  | breaks he =>
    obtain ⟨rfl, hin⟩ := he.crashed_tracker
    have hafter : m.orphanedAfter false m' = true := by
      simp [orphanedAfter, Orphans, hr, hr', Runner.inEpisode, ControlLoop.inEpisode, hin,
        runnerAfter]
    refine ⟨?_, ?_⟩
    · rw [hflag, hafter, hfits.2.reconnecting_eq, hin, Bool.or_true]
    · intro hinside
      rw [hr'] at hinside
      cases hinside

theorem Flagged.turn (h : m.Flagged orphaned) (hm : m.Standing) (hm' : m'.Standing)
    (hs : ∀ l, m.runner ≠ .severed l) (ht : m.turn = some (m', j)) :
    m'.Flagged (m.orphanedAfter orphaned m') := by
  rcases turn_eq_some ht with ⟨l, t, event, next, hl, hp, he⟩ | ⟨l, hl, -⟩
  · have hflag : m'.isReconnecting = t.status.reconnecting :=
      congrArg Status.reconnecting he.tracker.status_eq
    have hhealth : m'.tracker.status.health = t.status.health :=
      congrArg Status.health he.tracker.status_eq
    by_cases hrec : ∃ e, l = .reconnecting e
    · obtain ⟨e, rfl⟩ := hrec
      exact h.inside hm hm' hl hp he.runner hflag
    · have hout : ∀ e, l ≠ .reconnecting e := fun e hle => hrec ⟨e, hle⟩
      refine h.outside ?_ ?_ ?_ ?_
      · rw [hl, ← Bool.not_eq_true]
        intro hin
        obtain ⟨e, hlive, -⟩ := Runner.inEpisode_live hin
        cases hlive
        exact hout e rfl
      · rw [he.runner]
        exact hp.outside hout
      · rw [he.runner]
        exact fun h => runnerAfter_ne_idle next h.2
      · rw [hflag, hhealth]
        exact hp.flag_outside hm.tracker hout
  · exact absurd hl (hs l)

/-- A loop that starts, and one that has crashed and is taken away, are in no episode. -/
theorem Flagged.logs (h : m.Flagged orphaned) (hm : m.Standing) (effects : List Effect)
    (runner : Runner) (hr : m.runner = .idle ∨ ∃ panicked, m.runner = .ended panicked)
    (hr' : runner.inEpisode = false) : (m.enact m.world effects runner).1.Flagged
      (m.orphanedAfter orphaned (m.enact m.world effects runner).1) := by
  have he := enacted m m.world effects runner
  refine h.outside ?_ ?_ ?_ (hm.flag_same he.tracker.status_eq)
  · rcases hr with hr | ⟨panicked, hr⟩ <;> rw [hr] <;> rfl
  · rw [he.runner, hr']
  · rintro ⟨hrun, -⟩
    obtain ⟨l, hl⟩ := runner_of_isRunning hrun
    rcases hr with hr | ⟨panicked, hr⟩ <;> rw [hl] at hr <;> cases hr

/-- To stop a loop takes the flag back, whoever has left it. -/
theorem flagged_stopped {l : ControlLoop} {effects : List Effect} (hl : m.runner = .live l) :
    (m.enact (l.cut m.world).1 effects .idle).1.Flagged
      (m.orphanedAfter orphaned (m.enact (l.cut m.world).1 effects .idle).1) := by
  have he := enacted m (l.cut m.world).1 effects .idle
  rw [ControlLoop.cut_tracker] at he
  have hafter : m.orphanedAfter orphaned (m.enact (l.cut m.world).1 effects .idle).1 = false := by
    simp [orphanedAfter, Orphans, Settles, he.runner, isRunning, hl]
  refine ⟨?_, fun _ => hafter⟩
  rw [hafter, he.runner]
  exact congrArg Status.reconnecting he.tracker.status_eq

theorem next_flagged (h : m.Flagged orphaned) (hm : m.Standing) (hs : ∀ l, m.runner ≠ .severed l)
    (he : m.Enabled move) (hd : move ≠ .drop) :
    (m.next move).1.Flagged (m.orphanedAfter orphaned (m.next move).1) := by
  have hm' := hm.moved (next_settings m move) (moved he)
  cases move with
  | turn =>
    cases ht : m.turn with
    | none =>
      simp only [next, ht, Option.getD_none]
      exact h.keeps hm rfl rfl
    | some p =>
      simp only [next, ht, Option.getD_some] at hm' ⊢
      exact h.turn hm hm' hs ht
  | start =>
    simp only [next, start]
    split
    · exact h.keeps hm rfl rfl
    · exact h.keeps hm rfl rfl
    all_goals
      rename_i hr
      exact h.logs hm [.log (.monitoringStarted m.settings.interval)] (.live .unstarted)
        (by simp [hr]) rfl
  | stop =>
    simp only [next, stop]
    split
    · exact h.keeps hm rfl rfl
    · exact h.keeps hm rfl rfl
    · rename_i l hl
      exact flagged_stopped hl
    · rename_i panicked hr
      exact h.logs hm (farewell panicked) .idle (Or.inr ⟨panicked, hr⟩) rfl
  | drop => exact absurd rfl hd
  | _ => exact h.keeps hm rfl rfl

theorem Moved.episodeOpen {b : Bool} (h : Moved m m' j)
    (hb : ∀ l, m.runner = .live l → b = l.inEpisode) :
    ∀ l, m'.runner = .live l → (Journal.marks j).foldl openAfter b = l.inEpisode := by
  intro l' hl'
  cases h with
  | keeps hr => exact hb l' (hr.symm.trans hl')
  | begins _ he =>
    rw [he.runner] at hl'
    cases hl'
    rw [he.marks]
    rfl
  | @progresses l t event next _ hl hp he =>
    rw [he.runner] at hl'
    rw [he.marks, hb l hl]
    cases next with
    | going l'' =>
      cases hl'
      exact hp.opens_closes m.now
    | _ => cases hl'
  | ends _ hr _ he =>
    rw [he.runner] at hl'
    exact absurd hl' (hr l')

namespace Course

theorem episodeOpen (h : Course s steps j m) :
    ∀ l, m.runner = .live l → Journal.episodeOpen j = l.inEpisode := by
  induction h with
  | new hn =>
    obtain ⟨-, -, -, hr, -⟩ := new_eq_ok hn
    intro l hl
    rw [hr] at hl
    cases hl
  | move move _ he ih =>
    rw [Journal.episodeOpen_append]
    exact (moved he).episodeOpen ih

theorem flagged (h : Course s steps j m) (hd : ∀ p ∈ steps, p.2 ≠ .drop) :
    m.Flagged (orphanedBy steps) := by
  induction h with
  | new hn =>
    obtain ⟨-, -, -, hr, ht⟩ := new_eq_ok hn
    refine ⟨?_, fun _ => rfl⟩
    rw [hr, isReconnecting, ht]
    rfl
  | @move steps j m move hc he ih =>
    obtain ⟨hbefore, hlast⟩ := List.forall_mem_append.mp hd
    have hsevered : ∀ l, m.runner ≠ .severed l := by
      intro l hl
      have hexpected := hc.expected hbefore
      rw [hl] at hexpected
      exact hexpected
    rw [orphanedBy_append_singleton]
    exact next_flagged (ih hbefore) hc.life.standing hsevered he
      (hlast _ (List.mem_singleton_self _))

theorem none_orphaned (h : Course s steps j m)
    (hb : ∀ p ∈ steps, p.1.world.backend.NeverPanics) : orphanedBy steps = false := by
  induction h with
  | new => rfl
  | @move steps j m move hc he ih =>
    obtain ⟨hbefore, -⟩ := List.forall_mem_append.mp hb
    rw [orphanedBy_append_singleton, ih hbefore]
    have hkept : ¬m.Orphans (m.next move).1 := by
      rintro ⟨hin, hcrashed⟩
      obtain ⟨e, hl, -⟩ := Runner.inEpisode_live hin
      have hrunning : m.isRunning = true := by simp [isRunning, hl]
      have hstop : move ≠ .stop := by
        rintro rfl
        simp [next, stop, hl, enact] at hcrashed
      have hdrop : move ≠ .drop := by
        rintro rfl
        simp [next, drop, hl] at hcrashed
      have hnext := next_running (hc.safe hbefore) hc.life.onTime hrunning hstop hdrop
      simp [isRunning, hcrashed] at hnext
    simp [orphanedAfter, hkept]

/-- A monitor says that it is reconnecting exactly while a loop is inside an episode, as its events
tell, or after an episode has been orphaned. Only a panic of the target orphans one. -/
theorem reconnects_inside_or_orphaned (h : Course s steps j m) (hd : ∀ p ∈ steps, p.2 ≠ .drop) :
    (m.isReconnecting = true ↔ m.runner.inEpisode = true ∨ orphanedBy steps = true) ∧
    (m.runner.inEpisode = true ↔ m.isRunning = true ∧ Journal.episodeOpen j = true) ∧
    ((∀ p ∈ steps, p.1.world.backend.NeverPanics) → orphanedBy steps = false) := by
  refine ⟨?_, ?_, h.none_orphaned⟩
  · rw [(h.flagged hd).flag, Bool.or_eq_true]
  · constructor
    · intro hin
      obtain ⟨e, hl, -⟩ := Runner.inEpisode_live hin
      rw [h.episodeOpen _ hl]
      rw [hl] at hin
      exact ⟨by simp [isRunning, hl], hin⟩
    · rintro ⟨hrunning, hopen⟩
      obtain ⟨l, hl⟩ := runner_of_isRunning hrunning
      rw [h.episodeOpen l hl] at hopen
      rw [hl]
      exact hopen

end Course

def panickingInAttempt : Backend :=
  { failingTwice with pings := ⟨[.answer 0 (some .cancelled), .panic 0], .ok⟩ }

def crashedAttempt : List Move :=
  [.start, .turn, .turn, .turn, .turn, .turn, .pass 1, .turn, .turn]

/-- The monitor is stopped after the crash and started again. The flag is still there while the next
loop makes its first periodic check. -/
theorem Course.reconnects_inside_or_orphaned_restarted : ∃ steps j m,
    Course eagerSettings steps j m ∧ m.isRunning = true ∧ m.inFlight = 1 ∧
    m.runner.inEpisode = false ∧ orphanedBy steps = true ∧ m.isReconnecting = true ∧
    Journal.episodeOpen j = false := by
  obtain ⟨steps, j, m, hc, hmoves, hrunning, hflight, horphaned, hin⟩ :=
    Course.of_follow eagerSettings panickingInAttempt default 1
      (crashedAttempt ++ [.stop, .pass 2, .start, .turn, .turn])
      (fun steps _ m => m.isRunning = true ∧ m.inFlight = 1 ∧ orphanedBy steps = true ∧
        m.runner.inEpisode = false) (by decide +kernel)
  have hd : ∀ move ∈ crashedAttempt ++ [.stop, .pass 2, .start, .turn, .turn], move ≠ .drop := by
    simp [crashedAttempt]
  rw [← hmoves, List.forall_mem_map] at hd
  obtain ⟨hflag, hopen, -⟩ := hc.reconnects_inside_or_orphaned hd
  refine ⟨steps, j, m, hc, hrunning, hflight, hin, horphaned, hflag.mpr (Or.inr horphaned), ?_⟩
  rw [← Bool.not_eq_true]
  intro hopened
  rw [hopen.mpr ⟨hrunning, hopened⟩] at hin
  cases hin

/-- No loop is alive after the crash, and yet the monitor goes on saying that it is reconnecting. -/
theorem Course.reconnecting_after_crash : ∃ steps j m, Course eagerSettings steps j m ∧
    steps.map (·.2) = crashedAttempt ∧ m.isReconnecting = true ∧ m.isRunning = false ∧
    ¬(m.isReconnecting = true → m.runner.inEpisode = true) := by
  obtain ⟨steps, j, m, hc, hmoves, hflag, hrunning, hin⟩ :=
    Course.of_follow eagerSettings panickingInAttempt default 1 crashedAttempt
      (fun _ _ m => m.isReconnecting = true ∧ m.isRunning = false ∧ m.runner.inEpisode = false)
      (by decide +kernel)
  refine ⟨steps, j, m, hc, hmoves, hflag, hrunning, ?_⟩
  intro hinside
  rw [hinside hflag] at hin
  cases hin

end Monitor

end Liveness

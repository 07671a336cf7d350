import Liveness.Proofs.Monitor.Observers
/-!
# Settings that do not act

The latency bands are for information only, and the policy counts only if reconnecting is enabled.
A monitor of other bands, or of another policy that is not in use, does the same at the same times:
it is the same monitor with its settings exchanged. The policy decides how much fuel there is for
the turns at one time, but any fuel is enough.
-/
namespace Liveness

open Tracker (ResetAt)

/-- The settings are the same but for the bands, and for the policy if reconnecting is disabled. -/
def Settings.ActsLike (s s' : Settings) : Prop :=
  ∃ policy bands, s' = { s with policy, bands } ∧ (s.autoReconnect = true → policy = s.policy)

namespace Settings.ActsLike

variable {s s' : Settings}

theorem check_eq (h : s.ActsLike s') : s'.check = s.check := by
  obtain ⟨policy, bands, rfl, hp⟩ := h
  by_cases ha : s.autoReconnect = true
  · rw [hp ha]
    rfl
  · simp [Settings.check, ha]

theorem valid (h : s.ActsLike s') (hs : s.Valid) : s'.Valid := by
  rw [← Settings.check_eq_ok_iff, h.check_eq]
  exact Settings.check_eq_ok_iff.mpr hs

theorem step_eq {l : ControlLoop} {now : Nat} {t : Tracker} (h : s.ActsLike s')
    (hl : l.Fits s now t) (w : World) : l.step s' now w = l.step s now w := by
  obtain ⟨policy, bands, rfl, hp⟩ := h
  cases l with
  | reconnecting e =>
    obtain rfl := hp hl.1
    rfl
  | _ => rfl

theorem fits {r : Runner} {now : Nat} {t : Tracker} (h : s.ActsLike s') (hr : r.Fits s now t) :
    r.Fits s' now t := by
  obtain ⟨policy, bands, rfl, hp⟩ := h
  cases r with
  | live l =>
    cases l with
    | reconnecting e =>
      obtain rfl := hp hr.1
      exact hr
    | _ => trivial
  | _ => trivial

theorem punctual {l : ControlLoop} {now : Nat} (h : s.ActsLike s') (hl : l.Punctual s now) :
    l.Punctual s' now := by
  obtain ⟨policy, bands, rfl, -⟩ := h
  cases l with
  | awaiting due => exact hl
  | checking nextTick check => exact hl
  | _ => trivial

end Settings.ActsLike

namespace Monitor

section Exchange

variable {m m' : Monitor} {j : Journal} {s s' : Settings}

def withSettings (m : Monitor) (s' : Settings) : Monitor := { m with settings := s' }

def exchanged (s' : Settings) (p : Monitor × Journal) : Monitor × Journal :=
  (p.1.withSettings s', p.2)

theorem Paced.withSettings (h : m.Paced) (hs : m.settings.ActsLike s') :
    (m.withSettings s').Paced := by
  refine ⟨⟨hs.valid h.standing.valid, ?_, hs.fits h.standing.fits⟩, ?_⟩
  · have ht := h.standing.tracker
    obtain ⟨policy, bands, rfl, -⟩ := hs
    exact ht
  · intro l hl
    exact hs.punctual (h.punctual l hl)

theorem turn_exchanged (h : m.Standing) (hs : m.settings.ActsLike s') :
    (m.withSettings s').turn = m.turn.map (exchanged s') := by
  cases hr : m.runner with
  | live l =>
    have hl : (m.withSettings s').runner = .live l := hr
    have hfits := h.fits
    rw [hr] at hfits
    have hstep : l.step s' m.now m.world = l.step m.settings m.now m.world :=
      hs.step_eq hfits m.world
    simp only [turn, hr, hl, Option.map_map]
    change (l.step s' m.now m.world).map _ = _
    rw [hstep]
    rfl
  | severed l =>
    have hl : (m.withSettings s').runner = .severed l := hr
    simp only [turn, hr, hl]
    rfl
  | idle =>
    have hl : (m.withSettings s').runner = .idle := hr
    simp only [turn, hr, hl, Option.map_none]
  | ended panicked =>
    have hl : (m.withSettings s').runner = .ended panicked := hr
    simp only [turn, hr, hl, Option.map_none]

def exchangedView (s' : Settings) : View where
  see m := m.withSettings s'
  hear := id
  hear_nil := rfl
  hear_append _ _ := rfl
  see_now _ := rfl
  see_wakeAt _ := rfl
  see_at _ _ := rfl

theorem turns_exchanged (fuel : Nat) (h : m.Paced) (hs : m.settings.ActsLike s') :
    turns fuel (m.withSettings s') = exchanged s' (turns fuel m) :=
  (exchangedView s').turns (P := fun m => m.Paced ∧ m.settings.ActsLike s')
    (fun h => turn_exchanged h.1.standing h.2)
    (fun h ht => ⟨(h.1.turn ht).1, turn_settings ht ▸ h.2⟩) fuel ⟨h, hs⟩

/-- More fuel than is needed makes no difference. -/
theorem turns_eq_of_le {fuel more : Nat} (hz : (turns fuel m).1.turn = none)
    (hle : fuel ≤ more) : turns more m = turns fuel m := by
  induction fuel generalizing m more with
  | zero =>
    have hm : m.turn = none := hz
    cases more with
    | zero => rfl
    | succ more => simp only [turns, hm]
  | succ fuel ih =>
    obtain ⟨more, rfl⟩ : ∃ n, more = n + 1 := ⟨more - 1, by omega⟩
    cases ht : m.turn with
    | none => simp only [turns, ht]
    | some p =>
      simp only [turns, ht] at hz ⊢
      rw [ih hz (by omega)]

theorem turns_eq {fuel other : Nat} (hf : (turns fuel m).1.turn = none)
    (ho : (turns other m).1.turn = none) : turns fuel m = turns other m := by
  rcases Nat.le_total fuel other with hle | hle
  · exact (turns_eq_of_le hf hle).symm
  · exact turns_eq_of_le ho hle

theorem turns_settings (fuel : Nat) (m : Monitor) :
    (turns fuel m).1.settings = m.settings :=
  turns_keeps (fun hs ht => (turn_settings ht).trans hs) fuel rfl

theorem poll_exchanged (h : m.Paced) (hs : m.settings.ActsLike s') :
    (m.withSettings s').poll = exchanged s' m.poll := by
  let other := (m.withSettings s').turnFuel
  obtain ⟨-, -, hz⟩ := h.turns m.turnFuel
  obtain ⟨hstanding, -⟩ := (h.turns other).1
  obtain ⟨-, -, hz'⟩ := (h.withSettings hs).turns other
  have hsame : turns other (m.withSettings s') = exchanged s' (turns other m) :=
    turns_exchanged other h hs
  have hturn := turn_exchanged hstanding (turns_settings other m ▸ hs)
  have hwaits : (turns other m).1.turn = none := by
    have hnone := hz' (m.withSettings s').rank_le_turnFuel
    rw [hsame] at hnone
    exact Option.map_eq_none_iff.mp (hturn.symm.trans hnone)
  have hfuel : turns other m = turns m.turnFuel m := turns_eq hwaits (hz m.rank_le_turnFuel)
  rw [hfuel] at hsame
  exact hsame

theorem advanceTo_exchanged {target : Nat} (h : m.Paced) (hs : m.settings.ActsLike s') :
    (m.withSettings s').advanceTo target = exchanged s' (m.advanceTo target) ∧
      (m.advanceTo target).1.settings = m.settings := by
  refine ⟨(exchangedView s').advanceTo (P := fun m => m.Paced ∧ m.settings.ActsLike s')
      (fun h => poll_exchanged h.1 h.2) ?_ target ⟨h, hs⟩,
    advanceTo_keeps (fun hs ht => (turn_settings ht).trans hs) (fun _ hs => hs) target rfl⟩
  rintro m polled journal wake ⟨h, hs⟩ hp hw hlater
  obtain ⟨hpaced, hnow, hz⟩ := h.poll hp
  have hsettings := turns_settings m.turnFuel m
  unfold poll at hp
  rw [hp] at hsettings
  refine ⟨hpaced.pass hz (by omega) (by simp [hw]), ?_⟩
  have hpassed : polled.settings.ActsLike s' := hsettings ▸ hs
  exact hpassed

theorem start_exchanged (hs : m.settings.ActsLike s') :
    (m.withSettings s').start = (m.start.1, exchanged s' m.start.2) := by
  have hinterval : s'.interval = m.settings.interval := by
    obtain ⟨policy, bands, rfl, -⟩ := hs
    rfl
  cases hr : m.runner with
  | live l =>
    have hl : (m.withSettings s').runner = .live l := hr
    simp only [start, hr, hl]
    rfl
  | severed l =>
    have hl : (m.withSettings s').runner = .severed l := hr
    simp only [start, hr, hl]
    rfl
  | idle =>
    simp only [start, hr, withSettings, hinterval]
    rfl
  | ended panicked =>
    simp only [start, hr, withSettings, hinterval]
    rfl

theorem stop_exchanged (m : Monitor) (s' : Settings) :
    (m.withSettings s').stop = (m.stop.1, exchanged s' m.stop.2) := by
  cases hr : m.runner with
  | _ =>
    have hl : (m.withSettings s').runner = _ := hr
    simp only [stop, hr, hl]
    rfl

theorem call_exchanged {move : Move} (hs : m.settings.ActsLike s') (hc : move.isCall = true) :
    (m.withSettings s').next move = exchanged s' (m.next move) := by
  cases move with
  | turn => cases hc
  | pass time => cases hc
  | start => exact congrArg Prod.snd (start_exchanged hs)
  | stop => exact congrArg Prod.snd (stop_exchanged m s')
  | _ => rfl

def Request.isOutside : Request → Bool
  | .call move => move.isCall
  | .advance _ => true

theorem serve_exchanged {r : Request} (h : m.Paced) (hm : m.atRest = true)
    (hs : m.settings.ActsLike s') (hr : r.isOutside = true) :
    (m.withSettings s').serve r = exchanged s' (m.serve r) ∧
      (m.withSettings s').answer? r = m.answer? r ∧
      (m.serve r).1.settings = m.settings ∧ (m.serve r).1.Paced ∧
      (m.serve r).1.atRest = true := by
  cases r with
  | call move =>
    refine ⟨call_exchanged hs hr, ?_, next_settings m move, h.call hm hr⟩
    cases move with
    | start => exact congrArg (some ·.1) (start_exchanged hs)
    | stop => exact congrArg (some ·.1) (stop_exchanged m s')
    | _ => rfl
  | advance ms =>
    have hn : m.now ≤ m.now + ms := Nat.le_add_right ..
    obtain ⟨hsame, hsettings⟩ := advanceTo_exchanged h hs
    exact ⟨hsame, rfl, hsettings, h.advanceTo hn⟩

/-- A run with other settings is the same run. -/
theorem run_exchanged {requests : List Request} (h : m.Paced) (hm : m.atRest = true)
    (hs : m.settings.ActsLike s') (hr : ∀ r ∈ requests, r.isOutside = true) :
    (m.withSettings s').run requests =
      ((m.run requests).1.withSettings s', (m.run requests).2) := by
  induction requests generalizing m with
  | nil => rfl
  | cons r requests ih =>
    obtain ⟨hfirst, hrest⟩ := List.forall_mem_cons.mp hr
    obtain ⟨hserve, hanswer, hsettings, hp, hrests⟩ := serve_exchanged h hm hs hfirst
    have hrec := ih hp hrests (hsettings ▸ hs) hrest
    simp only [run, hserve, hanswer, exchanged, hrec]

end Exchange

end Monitor

section NoEpisode

variable {s : Settings} {now : Nat} {t u : Tracker} {event : Option Event}

theorem Tracker.reconnecting_of_check {result : CheckResult} {i : Instant} {c : Transition}
    (hr : t.recordCheck result i = .ok (u, c)) (ht : t.status.reconnecting = false) :
    u.status.reconnecting = false := by
  obtain ⟨tally, hc⟩ := recordCheck_eq_ok hr
  cases hc with
  | rises => rfl
  | succeeds => simpa using ht
  | falls => simpa [becomeUnhealthy] using ht
  | fails => simpa using ht

/-- A periodic check neither enters an episode nor announces one. -/
theorem ControlLoop.Progress.no_episode {l : ControlLoop} {next : Next}
    (hl : ∀ e, l ≠ .reconnecting e) (ht : t.status.reconnecting = false)
    (h : Progress s now l t u event next) :
    u.status.reconnecting = false ∧ ∀ e, event = some e → e.kind.isReconnect = false := by
  cases h with
  | begins | ticks | checks | dies | overflows => exact ⟨ht, nofun⟩
  | keeps _ _ hr => exact ⟨Tracker.reconnecting_of_check hr ht, nofun⟩
  | rises _ _ hr | falls _ _ hr =>
    refine ⟨Tracker.reconnecting_of_check hr ht, ?_⟩
    rintro e ⟨⟩
    rfl
  | continues | leaves | breaks => exact absurd rfl (hl _)

def Journal.ShowsNoEpisode (j : Journal) : Prop :=
  ∀ p ∈ j, ∀ e t, p.2.shown? = some (e, t) →
    e.kind.isReconnect = false ∧ t.status.reconnecting = false

namespace Monitor

variable {m m' : Monitor} {j : Journal}

theorem Enacted.showsNoEpisode {told : List Mark} {runner : Runner}
    (h : Enacted m t told runner m' j) (ht : t.status.reconnecting = false)
    (he : ∀ e, .announced e ∈ told → e.kind.isReconnect = false) :
    m'.isReconnecting = false ∧ Journal.ShowsNoEpisode j := by
  refine ⟨?_, ?_⟩
  · unfold isReconnecting
    rw [h.tracker.status_eq]
    exact ht
  · intro p hp e u hshown
    obtain ⟨htold, hreset⟩ := h.shown p hp e u hshown
    exact ⟨he e htold, hreset.status_eq ▸ ht⟩

theorem Moved.showsNoEpisode (hm : m.Standing) (ha : m.settings.autoReconnect = false)
    (hr : m.isReconnecting = false) (h : Moved m m' j) :
    m'.isReconnecting = false ∧ Journal.ShowsNoEpisode j := by
  cases h with
  | keeps _ _ ht =>
    refine ⟨?_, by simp [Journal.ShowsNoEpisode]⟩
    unfold isReconnecting
    rw [ht.status_eq]
    exact hr
  | begins _ he => exact he.showsNoEpisode hr (by simp)
  | @progresses l t event next _ hl hp he =>
    have hfits := hm.fits
    rw [hl] at hfits
    -- a loop in an episode would be one that may reconnect
    have hout : ∀ e, l ≠ .reconnecting e := by
      rintro e rfl
      rw [hfits.1] at ha
      cases ha
    obtain ⟨ht, hevent⟩ := hp.no_episode hout hr
    refine he.showsNoEpisode ht ?_
    intro e htold
    cases event with
    | none => cases htold
    | some told =>
      cases List.mem_singleton.mp htold
      exact hevent e rfl
  | ends _ _ ht he =>
    refine he.showsNoEpisode ?_ nofun
    rcases ht with rfl | rfl
    · exact hr
    · rfl

theorem Life.showsNoEpisode (h : Life s j m) (ha : s.autoReconnect = false) :
    m.isReconnecting = false ∧ Journal.ShowsNoEpisode j := by
  induction h with
  | new hn =>
    obtain ⟨-, -, -, -, ht⟩ := new_eq_ok hn
    refine ⟨?_, by simp [Journal.ShowsNoEpisode]⟩
    unfold isReconnecting
    rw [ht]
    rfl
  | @move j m move hlife he ih =>
    obtain ⟨hr, hj⟩ := ih
    obtain ⟨hr', hmoved⟩ :=
      (moved he).showsNoEpisode hlife.standing (hlife.settings_eq ▸ ha) hr
    exact ⟨hr', List.forall_mem_append.mpr ⟨hj, hmoved⟩⟩

theorem History.run {requests : List Request} (h : History s j m)
    (hr : ∀ r ∈ requests, r.isOutside = true) :
    History s (j ++ (m.run requests).2.1) (m.run requests).1 := by
  induction requests generalizing j m with
  | nil => simpa [Monitor.run] using h
  | cons r requests ih =>
    obtain ⟨hfirst, hrest⟩ := List.forall_mem_cons.mp hr
    have hserve : History s (j ++ (m.serve r).2) (m.serve r).1 := by
      cases r with
      | call move => exact h.call move hfirst
      | advance ms => exact h.advance ms
    simpa [Monitor.run] using ih hserve hrest

/-- Whatever can be asked but the settings and the class that the bands tell has the same answer. -/
structure AnswersLike (m m' : Monitor) : Prop where
  status : m'.tracker.status = m.tracker.status
  tally : m'.tracker.tally = m.tracker.tally
  isRunning : m'.isRunning = m.isRunning
  isReconnecting : m'.isReconnecting = m.isReconnecting
  occupancy : m'.occupancy = m.occupancy
  driver : m'.driver = m.driver
  start : m'.start.1 = m.start.1
  stop : m'.stop.1 = m.stop.1
  register : ∀ h, (m'.register h).2 = (m.register h).2
  unregister : ∀ id, (m'.unregister id).2 = (m.unregister id).2

theorem answersLike_exchanged {s' : Settings} (hs : m.settings.ActsLike s') :
    m.AnswersLike (m.withSettings s') := by
  have hstart := congrArg Prod.fst (start_exchanged hs)
  have hstop := congrArg Prod.fst (stop_exchanged m s')
  exact ⟨rfl, rfl, rfl, rfl, rfl, rfl, hstart, hstop, fun _ => rfl, fun _ => rfl⟩

/-- Settings that differ only in the bands, or in a policy that is not in use and need not be valid,
make the same monitor: what it does, calls, tells and answers is the same at the same times, whoever
uses it and however its target and its subscribers behave. Without reconnecting there is no sign of
an episode. -/
theorem settings_do_not_act {s' : Settings} (hs : s.ActsLike s') {b : Backend} {e : Entropy}
    {levels : Nat} (hm : Monitor.new s b e levels = .ok m) {requests : List Request}
    (hr : ∀ r ∈ requests, r.isOutside = true) :
    ∃ m', Monitor.new s' b e levels = .ok m' ∧
      (m'.run requests).2 = (m.run requests).2 ∧
      (m'.run requests).1 = { (m.run requests).1 with settings := s' } ∧
      (m.run requests).1.AnswersLike (m'.run requests).1 ∧
      (s.autoReconnect = false → (m.run requests).1.isReconnecting = false ∧
        Journal.ShowsNoEpisode (m.run requests).2.1) := by
  obtain ⟨hcheck, hsettings, -⟩ := new_eq_ok hm
  obtain ⟨hp, hrest⟩ := paced_new hm
  obtain ⟨⟨steps, hcourse, -⟩, -⟩ := ((History.new hm).run hr).course
  have hlife := hcourse.life
  have hrun := run_exchanged hp hrest (hsettings ▸ hs) hr
  have hnew : Monitor.new s' b e levels = .ok (m.withSettings s') := by
    have hvalid := hs.check_eq
    obtain ⟨policy, bands, rfl, -⟩ := hs
    unfold Monitor.new at hm ⊢
    rw [hcheck] at hm
    rw [hvalid, hcheck]
    cases hm
    rfl
  refine ⟨m.withSettings s', hnew, by rw [hrun], by rw [hrun]; rfl, ?_, ?_⟩
  · rw [hrun]
    exact answersLike_exchanged (hlife.settings_eq ▸ hs)
  · intro ha
    simpa using hlife.showsNoEpisode ha

def patientSettings : Settings := { eagerSettings with autoReconnect := false }

/-- A policy that would not pass its check, and bands that tell everything apart. -/
def patientSettingsVaried : Settings :=
  { patientSettings with policy := Policy.new 0 0 0, bands := ⟨0, 1⟩ }

def outageObserved : List Request :=
  [.call (.register heckler), .call .start, .advance 15, .call .reset, .call .start, .advance 10,
    .call .stop, .call .start, .advance 3]

theorem settings_do_not_act_patient : ∃ m m' : Monitor,
    Monitor.new patientSettings failingTwice default 2 = .ok m ∧
    Monitor.new patientSettingsVaried failingTwice default 2 = .ok m' ∧
    patientSettingsVaried.policy.check = .error .noAttempts ∧
    (m'.run outageObserved).2 = (m.run outageObserved).2 ∧
    (m.run outageObserved).1.AnswersLike (m'.run outageObserved).1 ∧
    (m.run outageObserved).1.isReconnecting = false := by
  have hs : patientSettings.ActsLike patientSettingsVaried := ⟨_, _, rfl, by decide⟩
  cases hm : Monitor.new patientSettings failingTwice default 2 with
  | error fault =>
    have hok : (Monitor.new patientSettings failingTwice default 2).toOption.isSome = true := by
      decide +kernel
    rw [hm] at hok
    cases hok
  | ok m =>
    have hr : ∀ r ∈ outageObserved, r.isOutside = true := by
      simp [outageObserved, Request.isOutside, Move.isCall]
    obtain ⟨m', hm', hsame, -, hanswers, hnone⟩ := settings_do_not_act hs hm hr
    exact ⟨m, m', rfl, hm', rfl, hsame, hanswers, (hnone rfl).1⟩

end Monitor

end NoEpisode

end Liveness

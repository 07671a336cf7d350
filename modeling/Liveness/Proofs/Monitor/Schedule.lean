import Liveness.Proofs.Monitor.Calls
import Liveness.Proofs.Monitor.Polling
import Mathlib.Data.List.Chain
/-!
# The schedule of the checks

The beats of a loop are the moments at which its schedule turns: it is started, a periodic check
begins, an episode begins or ends, the loop stops. A check is over by its deadline, so it never
lasts into the next tick; no tick comes late, and a schedule is never missed. So where time passes
only as far as the next thing that is due, each beat tells when the next one comes.
-/
namespace Liveness

inductive Beat where
  | started
  /-- A periodic check begins. -/
  | checks
  /-- A check has led to an episode. -/
  | opens
  /-- The episode is over. -/
  | closes
  | stopped
deriving DecidableEq

def Runner.beat? : Runner → Runner → Option Beat
  | .live (.awaiting _), .live (.checking ..) => some .checks
  | .live (.checking ..), .live (.reconnecting _) => some .opens
  | .live (.reconnecting _), .live (.awaiting _) => some .closes
  | .live _, .live _ => none
  | .live _, _ => some .stopped
  | _, .live _ => some .started
  | _, _ => none

theorem Runner.beat?_self (r : Runner) : r.beat? r = none := by
  cases r with
  | live l => cases l <;> rfl
  | _ => rfl

inductive Beat.Follows (s : Settings) : Nat × Beat → Nat × Beat → Prop where
  | first {t} : Follows s (t, .started) (t, .checks)
  | next {t} : Follows s (t, .checks) (t + s.intervalMs.toNat, .checks)
  | opens {t u} : t ≤ u → u ≤ t + s.timeoutMs.toNat → Follows s (t, .checks) (u, .opens)
  | closes {t u} : t ≤ u → Follows s (t, .opens) (u, .closes)
  | anew {t} : Follows s (t, .closes) (t + s.intervalMs.toNat, .checks)
  | stops {t u beat} : beat ≠ .stopped → t ≤ u → Follows s (t, beat) (u, .stopped)
  | starts {t u} : t ≤ u → Follows s (t, .stopped) (u, .started)

/-- Where a loop may be when the last beat was this one, and how long at most. -/
inductive ControlLoop.After (s : Settings) (now : Nat) : Nat × Beat → ControlLoop → Prop where
  | unstarted : After s now (now, .started) .unstarted
  | begun : After s now (now, .started) (.awaiting now)
  | checking {t check} : t ≤ now → now ≤ check.deadline →
      check.deadline = t + s.timeoutMs.toNat →
      After s now (t, .checks) (.checking (t + s.intervalMs.toNat) check)
  | checked {t} : t ≤ now → now ≤ t + s.intervalMs.toNat →
      After s now (t, .checks) (.awaiting (t + s.intervalMs.toNat))
  | reconnecting {t e} : t ≤ now → After s now (t, .opens) (.reconnecting e)
  | left {t} : t ≤ now → now ≤ t + s.intervalMs.toNat →
      After s now (t, .closes) (.awaiting (t + s.intervalMs.toNat))

def Runner.After (s : Settings) (now : Nat) (last : Nat × Beat) : Runner → Prop
  | .live l => l.After s now last
  | _ => last.2 = .stopped ∧ last.1 ≤ now

/-- The runner fits the beat that has come now, or the last one if there is none now. -/
def Runner.Keeps (s : Settings) (now : Nat) (last : Nat × Beat) (beat : Option Beat)
    (r : Runner) : Prop :=
  match beat with
  | none => r.After s now last
  | some b => Beat.Follows s last (now, b) ∧ r.After s now (now, b)

variable {s : Settings} {now : Nat} {last : Nat × Beat}

theorem Settings.timeout_millisUp (s : Settings) : s.timeout.millisUp = s.timeoutMs.toNat := by
  simp only [Settings.timeout, Duration.millisUp, Duration.ofMillis]
  omega

namespace ControlLoop

variable {l l' : ControlLoop} {t u : Tracker} {event : Option Event}

theorem After.not_stopped (h : l.After s now last) : last.2 ≠ .stopped := by
  cases h <;> exact nofun

theorem After.since (h : l.After s now last) : last.1 ≤ now := by
  cases h with
  | unstarted => exact Nat.le_refl _
  | begun => exact Nat.le_refl _
  | checking hn _ _ => exact hn
  | checked hn _ => exact hn
  | reconnecting hn => exact hn
  | left hn _ => exact hn

theorem After.stops (h : l.After s now last) : Beat.Follows s last (now, .stopped) := by
  obtain ⟨time, beat⟩ := last
  exact .stops h.not_stopped h.since

/-- A tick that is not late begins the check that is due, and the next tick is one interval on. -/
theorem After.ticks {due : Nat} (h : (ControlLoop.awaiting due).After s now last) (hd : due ≤ now) :
    now = due ∧ Beat.Follows s last (now, .checks) := by
  cases h with
  | begun => exact ⟨rfl, .first⟩
  | checked _ hn =>
    obtain rfl := Nat.le_antisymm hn hd
    exact ⟨rfl, .next⟩
  | left _ hn =>
    obtain rfl := Nat.le_antisymm hn hd
    exact ⟨rfl, .anew⟩

theorem After.concludes {nextTick : Nat} {check : Check} (hs : s.Valid)
    (h : (ControlLoop.checking nextTick check).After s now last) :
    (ControlLoop.awaiting nextTick).After s now last ∧ Beat.Follows s last (now, .opens) := by
  cases h with
  | checking hn hdeadline he =>
    have hle := hs.timeout_le
    exact ⟨.checked hn (by omega), .opens hn (by omega)⟩

theorem After.progress (hs : s.Valid) (hticks : s.period = s.intervalMs.toNat)
    (ha : l.After s now last) (h : Progress s now l t u event (.going l')) :
    Runner.Keeps s now last ((Runner.live l).beat? (.live l')) (.live l') := by
  cases h with
  | begins =>
    cases ha
    exact .begun
  | @ticks _ due b hd =>
    obtain ⟨rfl, hfollows⟩ := ha.ticks hd
    refine ⟨hfollows, ?_⟩
    have hnext : tickAfter s.period now now = now + s.intervalMs.toNat := by
      unfold tickAfter
      rw [if_neg (by omega), hticks]
    have hdeadline : (Check.start s.checkRule now b).1.deadline = now + s.timeoutMs.toNat :=
      Check.start_deadline.trans (congrArg (now + ·) s.timeout_millisUp)
    rw [hnext]
    exact .checking (Nat.le_refl _) (by omega) hdeadline
  | checks hc hn =>
    have hsame := (Check.step_going hc hn).2
    cases ha with
    | checking ht hdeadline he => exact .checking ht (hsame ▸ hdeadline) (hsame.trans he)
  | keeps => exact (ha.concludes hs).1
  | rises => exact (ha.concludes hs).1
  | falls =>
    obtain ⟨hafter, hfollows⟩ := ha.concludes hs
    by_cases hauto : s.autoReconnect = true
    · rw [if_pos hauto]
      exact ⟨hfollows, .reconnecting (Nat.le_refl _)⟩
    · rw [if_neg hauto]
      exact hafter
  | continues =>
    cases ha with
    | reconnecting ht => exact .reconnecting ht
  | leaves =>
    cases ha with
    | reconnecting ht =>
      rw [hticks]
      exact ⟨.closes ht, .left (Nat.le_refl _) (Nat.le_add_right ..)⟩

theorem After.pass {w : World} {time : Nat} (ha : l.After s now last)
    (hz : l.step s now w = none) (hn : now ≤ time) (ht : time ≤ l.wakeAt now) :
    l.After s time last := by
  cases ha with
  | unstarted => cases hz
  | begun => simp [step] at hz
  | checking hsince hdeadline he =>
    exact .checking (by omega) (Nat.le_trans ht (Check.wakeAt_le _)) he
  | checked hsince _ => exact .checked (by omega) ht
  | reconnecting hsince => exact .reconnecting (by omega)
  | left hsince _ => exact .left (by omega) ht

end ControlLoop

namespace Monitor

variable {m : Monitor} {move : Move} {steps : List (Monitor × Move)} {j : Journal}

def beat? (m : Monitor) (move : Move) : Option Beat := m.runner.beat? (m.next move).1.runner

def beats (steps : List (Monitor × Move)) : List (Nat × Beat) :=
  steps.filterMap fun p => (p.1.beat? p.2).map (p.1.now, ·)

theorem beats_append_singleton (steps : List (Monitor × Move)) (m : Monitor) (move : Move) :
    beats (steps ++ [(m, move)]) = beats steps ++ ((m.beat? move).map (m.now, ·)).toList := by
  cases h : m.beat? move <;> simp [beats, h]

/-- Before anything else the loop stands still. -/
def lastBeat (steps : List (Monitor × Move)) : Nat × Beat :=
  (beats steps).getLast?.getD (0, .stopped)

theorem lastBeat_append_singleton (steps : List (Monitor × Move)) (m : Monitor) (move : Move) :
    lastBeat (steps ++ [(m, move)]) =
      ((m.beat? move).map (m.now, ·)).getD (lastBeat steps) := by
  unfold lastBeat
  rw [beats_append_singleton]
  cases m.beat? move with
  | none => simp
  | some b => simp

theorem keeps_of_ended {r r' : Runner} (ha : r.After s now last) (hr : ∀ l, r' ≠ .live l) :
    r'.Keeps s now last (r.beat? r') := by
  cases r' with
  | live l => exact absurd rfl (hr l)
  | _ =>
    cases r with
    | live l => cases l <;> exact ⟨ha.stops, rfl, Nat.le_refl _⟩
    | _ => exact ha

theorem keeps_of_begun {r : Runner} (ha : r.After s now last)
    (hr : r = .idle ∨ ∃ panicked, r = .ended panicked) :
    Runner.Keeps s now last (r.beat? (.live .unstarted)) (.live .unstarted) := by
  obtain ⟨time, beat⟩ := last
  rcases hr with rfl | ⟨panicked, rfl⟩
  all_goals
    obtain ⟨rfl, hsince⟩ := ha
    exact ⟨.starts hsince, .unstarted⟩

theorem keeps_of_moved {m' : Monitor} (hs : m.settings.Valid)
    (hticks : m.settings.period = m.settings.intervalMs.toNat)
    (ha : m.runner.After m.settings m.now last) (h : Moved m m' j) :
    m'.runner.Keeps m.settings m.now last (m.runner.beat? m'.runner) := by
  cases h with
  | keeps hr _ _ =>
    rw [hr, Runner.beat?_self]
    exact ha
  | begins hr he =>
    rw [he.runner]
    exact keeps_of_begun ha hr
  | @progresses l t event next _ hl hp he =>
    rw [he.runner]
    cases next with
    | going l' =>
      rw [hl] at ha ⊢
      exact ControlLoop.After.progress hs hticks ha hp
    | _ => exact keeps_of_ended ha nofun
  | ends _ hr _ he =>
    rw [he.runner]
    exact keeps_of_ended ha hr

theorem pass_keeps {time : Nat} (he : m.Enabled (.pass time)) (hp : m.Prompt (.pass time))
    (ha : m.runner.After m.settings m.now last) : m.runner.After m.settings time last := by
  obtain ⟨hz, hw⟩ := hp
  cases hr : m.runner with
  | live l =>
    rw [hr] at ha
    simp only [turn, hr, Option.isNone_map, Option.isNone_iff_eq_none] at hz
    simp only [wakeAt, hr, Option.all_some, decide_eq_true_eq] at hw
    exact ControlLoop.After.pass ha hz he.2 hw
  | _ =>
    rw [hr] at ha
    exact ⟨ha.1, Nat.le_trans ha.2 he.2⟩

theorem next_now_eq (hm : ∀ time, move ≠ .pass time) : (m.next move).1.now = m.now := by
  cases move with
  | turn =>
    cases ht : m.turn with
    | none => simp only [next, ht, Option.getD_none]
    | some p =>
      simp only [next, ht, Option.getD_some]
      exact turn_now ht
  | pass time => exact absurd rfl (hm time)
  | start =>
    simp only [next, start]
    split <;> rfl
  | stop =>
    simp only [next, stop]
    split <;> rfl
  | _ => rfl

/-- One move keeps the schedule, if time does not pass by what is due. -/
theorem next_keeps (hs : m.settings.Valid)
    (hticks : m.settings.period = m.settings.intervalMs.toNat) (he : m.Enabled move)
    (hp : m.Prompt move) (ha : m.runner.After m.settings m.now last) :
    (m.next move).1.runner.Keeps m.settings (m.next move).1.now last (m.beat? move) := by
  by_cases hpass : ∃ time, move = .pass time
  · obtain ⟨time, rfl⟩ := hpass
    have hnone : m.beat? (.pass time) = none := Runner.beat?_self _
    rw [hnone]
    have hafter : m.runner.After m.settings time last := pass_keeps he hp ha
    exact hafter
  · have hnow : (m.next move).1.now = m.now :=
      next_now_eq fun time heq => hpass ⟨time, heq⟩
    rw [hnow]
    exact keeps_of_moved hs hticks ha (moved he)

theorem now_of_beat {b : Beat} (h : m.beat? move = some b) : (m.next move).1.now = m.now := by
  apply next_now_eq
  rintro time rfl
  have hnone : m.beat? (.pass time) = none := Runner.beat?_self _
  rw [hnone] at h
  cases h

/-- The beats of a course follow on one another, and the loop is where the last one says. -/
theorem Course.scheduled (h : Course s steps j m) (hticks : s.period = s.intervalMs.toNat)
    (hp : ∀ p ∈ steps, p.1.Prompt p.2) :
    List.IsChain (Beat.Follows s) ((0, .stopped) :: beats steps) ∧
      m.runner.After s m.now (lastBeat steps) := by
  induction h with
  | new hn =>
    obtain ⟨-, -, -, hr, -⟩ := new_eq_ok hn
    rw [hr]
    exact ⟨.singleton _, rfl, Nat.zero_le _⟩
  | @move steps j m move hc he ih =>
    obtain ⟨hbefore, hlast⟩ := List.forall_mem_append.mp hp
    obtain ⟨hchain, hafter⟩ := ih hbefore
    have hsettings := hc.life.settings_eq
    have hkeeps := next_keeps hc.life.standing.valid (hsettings ▸ hticks) he
      (hlast _ (List.mem_singleton_self _)) (hsettings ▸ hafter)
    rw [hsettings] at hkeeps
    rw [beats_append_singleton, lastBeat_append_singleton]
    cases hb : m.beat? move with
    | none =>
      rw [hb] at hkeeps
      simpa using ⟨hchain, hkeeps⟩
    | some b =>
      rw [hb, now_of_beat hb] at hkeeps
      obtain ⟨hfollows, hwhere⟩ := hkeeps
      refine ⟨?_, by simpa [now_of_beat hb] using hwhere⟩
      rw [← List.cons_append, List.isChain_append]
      refine ⟨hchain, .singleton _, ?_⟩
      intro x hx y hy
      obtain rfl : (m.now, b) = y := by simpa using hy
      have hx : lastBeat steps = x := by
        simpa [lastBeat, List.getLast?_cons] using hx
      rw [← hx]
      exact hfollows

/-- A loop comes to an end of its own only by a panic of its target. -/
theorem Course.stopped_from_outside (h : Course s steps j m)
    (hb : ∀ p ∈ steps, p.1.world.backend.NeverPanics) :
    ∀ p ∈ steps, p.1.beat? p.2 = some .stopped → p.2 = .stop ∨ p.2 = .drop := by
  induction h with
  | new hn => simp
  | @move steps j m move hc he ih =>
    obtain ⟨hbefore, -⟩ := List.forall_mem_append.mp hb
    refine List.forall_mem_append.mpr ⟨ih hbefore, ?_⟩
    intro p hp hstopped
    cases List.mem_singleton.mp hp
    by_contra hn
    obtain ⟨hstop, hdrop⟩ := not_or.mp hn
    have hrunning : m.isRunning = true ∧ (m.next move).1.isRunning = false := by
      unfold beat? Runner.beat? at hstopped
      unfold isRunning
      split at hstopped <;> simp_all
    have hgoes := next_running (hc.safe hbefore) hc.life.onTime hrunning.1 hstop hdrop
    rw [hrunning.2] at hgoes
    cases hgoes

theorem begun_by_turn (h : m.checkTurn? move = some .begun) :
    ∃ l, move = .turn ∧ m.runner = .live l ∧
      l.checkTurn? m.settings m.now m.world = some .begun := by
  have not_cut {check : Option Check} :
      (check.map fun _ => CheckTurn.cut) ≠ some .begun := by
    cases check <;> exact nofun
  cases move with
  | turn =>
    cases hr : m.runner with
    | live l =>
      simp only [checkTurn?, hr] at h
      exact ⟨l, rfl, rfl, h⟩
    | severed l =>
      simp only [checkTurn?, hr] at h
      exact absurd h not_cut
    | _ => simp [checkTurn?, hr] at h
  | stop =>
    cases hr : m.runner with
    | live l =>
      simp only [checkTurn?, hr] at h
      exact absurd h not_cut
    | _ => simp [checkTurn?, hr] at h
  | _ => cases h

/-- The checks that are no beat are attempts of an episode. -/
theorem checks_of_begun (h : m.checkTurn? move = some .begun) :
    m.beat? move = some .checks ∨ ∃ e, m.runner = .live (.reconnecting e) := by
  obtain ⟨l, rfl, hl, hturn⟩ := begun_by_turn h
  cases l with
  | unstarted => cases hturn
  | awaiting due =>
    refine Or.inl ?_
    simp only [ControlLoop.checkTurn?] at hturn
    split at hturn
    · cases hturn
    · rename_i hd
      simp [beat?, next, turn, hl, ControlLoop.step, if_neg hd, enact, Runner.beat?]
  | checking nextTick check =>
    obtain ⟨st, -, hn⟩ := Option.bind_eq_some_iff.mp hturn
    cases hnext : st.next with
    | _ => simp [hnext, Check.Next.turn?] at hn
  | reconnecting e => exact Or.inr ⟨e, hl⟩

/-- If ticks come a period apart, however long that is, then the first check comes with the start,
and every other one interval after the beginning of the last or the end of an episode. There is
none in an episode but its attempts, and never more than one in flight: a call to the target begins
only when the last one has ended. -/
theorem Course.schedule_kept (h : Course s steps j m)
    (hticks : s.period = s.intervalMs.toNat) (hp : ∀ p ∈ steps, p.1.Prompt p.2)
    (hb : ∀ p ∈ steps, p.1.world.backend.NeverPanics) :
    List.IsChain (Beat.Follows s) ((0, .stopped) :: beats steps) ∧
      m.runner.After s m.now (lastBeat steps) ∧
      (∀ p ∈ steps, p.1.beat? p.2 = some .stopped → p.2 = .stop ∨ p.2 = .drop) ∧
      (∀ p ∈ steps, p.1.checkTurn? p.2 = some .begun → p.1.inFlight = 0 ∧
        (p.1.beat? p.2 = some .checks ∨ ∃ e, p.1.runner = .live (.reconnecting e))) ∧
      (checkTurns steps).count .begun =
        (checkResults steps).length + (checkTurns steps).count .cut + m.inFlight ∧
      m.inFlight ≤ 1 ∧
      (Journal.calls j).foldlM Engagement.next .idle = some m.engagement := by
  obtain ⟨hchain, hafter⟩ := h.scheduled hticks hp
  have hone : m.inFlight ≤ 1 := by
    unfold inFlight
    cases m.runner.check? <;> simp
  refine ⟨hchain, hafter, h.stopped_from_outside hb, ?_, ?_, hone, h.life.calls_in_turn⟩
  · intro p _ hbegun
    have hleads := next_leads p.1 p.2
    rw [hbegun] at hleads
    exact ⟨by simp [inFlight, hleads.1], checks_of_begun hbegun⟩
  · have hbalance := h.balance
    rw [List.count_eq_zero.mpr (h.none_crashed hb)] at hbalance
    exact hbalance

/-- A check may last as long as it is until the next tick. -/
def tightSettings : Settings :=
  { Settings.new 10 10 with
    failureThreshold := 2
    successThreshold := 1
    policy := Policy.new 1 1 1 }

def hangingTwice : Backend :=
  { failingTwice with pings := ⟨[.ok, .never, .never], .ok⟩ }

/-- Two checks use all of their time, and an attempt ends the outage. -/
def hangingOutage : List Move :=
  [.pass 3, .start, .turn, .turn, .turn, .pass 13, .turn, .pass 23, .turn, .turn, .pass 33, .turn,
    .turn, .turn, .pass 34, .turn, .turn, .turn, .pass 44, .turn, .turn, .pass 50]

theorem Course.schedule_kept_hanging : ∃ steps j m, Course tightSettings steps j m ∧
    beats steps = [(3, .started), (3, .checks), (13, .checks), (23, .checks), (33, .opens),
      (34, .closes), (44, .checks)] ∧
    List.IsChain (Beat.Follows tightSettings) ((0, .stopped) :: beats steps) ∧
    m.runner.After tightSettings 50 (44, .checks) ∧
    (checkTurns steps).count .begun = 5 ∧
    (Journal.calls j).map Call.name = ["ping", "ping_done", "ping", "ping_dropped", "ping",
      "ping_dropped", "ping", "ping_done", "ping", "ping_done"] := by
  obtain ⟨steps, j, m, hc, -, hp, hb, hbeats, hnow, hbegun, hcalls⟩ :=
    Course.of_follow tightSettings hangingTwice default 1 hangingOutage
      (fun steps j m => (∀ p ∈ steps, p.1.Prompt p.2) ∧
        (∀ p ∈ steps, p.1.world.backend.NeverPanics) ∧
        beats steps = [(3, .started), (3, .checks), (13, .checks), (23, .checks), (33, .opens),
          (34, .closes), (44, .checks)] ∧ m.now = 50 ∧ (checkTurns steps).count .begun = 5 ∧
        (Journal.calls j).map Call.name = ["ping", "ping_done", "ping", "ping_dropped", "ping",
          "ping_dropped", "ping", "ping_done", "ping", "ping_done"])
      (by decide +kernel)
  obtain ⟨hchain, hafter, -⟩ := hc.schedule_kept (by decide) hp hb
  have hlast : lastBeat steps = (44, .checks) := by
    unfold lastBeat
    rw [hbeats]
    rfl
  rw [hlast, hnow] at hafter
  exact ⟨steps, j, m, hc, hbeats, hchain, hafter, hbegun, hcalls⟩

end Monitor

end Liveness

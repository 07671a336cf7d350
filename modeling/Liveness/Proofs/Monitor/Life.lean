import Liveness.Proofs.Monitor.Progress
/-!
# Lives of monitors

A life is all that can happen to one monitor, in any order: its loop makes steps and is stopped,
started again or given up wherever it waits, time passes, the target changes and so do the
subscribers. `moved` says what a single move can do. Invariants of lives are proved from it.
-/
namespace Liveness

open Tracker (ResetAt)

def ControlLoop.isCancellable : ControlLoop → Bool
  | .reconnecting e => e.isCancellable
  | _ => true

def Runner.atRest : Runner → Bool
  | .live l => l.isCancellable
  | _ => true

def Journal.marks (j : Journal) : List (Nat × Mark) :=
  j.filterMap fun (time, o) => o.mark?.map (time, ·)

@[simp] theorem Journal.marks_nil : Journal.marks [] = [] := rfl

@[simp] theorem Journal.marks_append (j k : Journal) :
    Journal.marks (j ++ k) = Journal.marks j ++ Journal.marks k := List.filterMap_append

theorem Effect.announced_of_emit {e : Event} {effects : List Effect} (h : .emit e ∈ effects) :
    .announced e ∈ effects.filterMap Effect.mark? :=
  List.mem_filterMap.mpr ⟨.emit e, h, rfl⟩

theorem ControlLoop.cut_tracker (l : ControlLoop) (w : World) :
    (l.cut w).1.tracker = w.tracker.interruptEpisode.1 := by
  cases l <;> rfl

theorem Episode.cut_marks (e : Episode) (w : World) :
    (e.cut w).2.filterMap Effect.mark? = [] := by
  have interrupted : (if w.tracker.interruptEpisode.2 then
      [Effect.log .episodeInterrupted] else []).filterMap Effect.mark? = [] := by
    split <;> rfl
  cases e with
  | attempting attempts check =>
    -- what the target sees of a check that is cut off is no mark
    exact (marks_after_calls check.abandon _).trans interrupted
  | _ => exact interrupted

theorem ControlLoop.cut_marks (l : ControlLoop) (w : World) :
    (l.cut w).2.filterMap Effect.mark? = [] := by
  cases l with
  | unstarted => rfl
  | awaiting due => rfl
  | checking nextTick check => exact marks_after_calls check.abandon _
  | reconnecting e =>
    simp only [cut, leave, List.filterMap_append, e.cut_marks]
    rfl

namespace Monitor

def atRest (m : Monitor) : Bool := m.runner.atRest

inductive Move where
  /-- The loop does the next thing, if there is anything to do. -/
  | turn
  | pass (time : Nat)
  | start
  | stop
  | drop
  | reset
  | register (h : Handler)
  | unregister (id : HandlerId)
  | change (f : Backend → Backend)

/-- Time passes, and a loop is cancelled, only where it waits. It may wait longer than it has to. -/
def Enabled (m : Monitor) : Move → Prop
  | .pass time => m.atRest = true ∧ m.now ≤ time
  | .stop | .drop => m.atRest = true
  | _ => True

instance (m : Monitor) (move : Move) : Decidable (m.Enabled move) := by
  cases move <;> unfold Enabled <;> infer_instance

def next (m : Monitor) : Move → Monitor × Journal
  | .turn => m.turn.getD (m, [])
  | .pass time => ({ m with now := time }, [])
  | .start => m.start.2
  | .stop => m.stop.2
  | .drop => (m.drop, [])
  | .reset => (m.resetTally, [])
  | .register h => ((m.register h).1, [])
  | .unregister id => ((m.unregister id).1, [])
  | .change f => (m.changeBackend f, [])

/-- What a monitor of these settings can go through, with the journal of it all. -/
inductive Life (s : Settings) : Journal → Monitor → Prop where
  | new {b e levels m} : Monitor.new s b e levels = .ok m → Life s [] m
  | move {journal m} (move : Move) : Life s journal m → m.Enabled move →
      Life s (journal ++ (m.next move).2) (m.next move).1

def follow : Monitor → List Move → Option (Monitor × Journal)
  | m, [] => some (m, [])
  | m, move :: moves =>
    if m.Enabled move then
      (follow (m.next move).1 moves).map fun (m', rest) => (m', (m.next move).2 ++ rest)
    else none

theorem Life.follow {s : Settings} {journal rest : Journal} {m m' : Monitor} {moves : List Move}
    (h : Life s journal m) (hf : m.follow moves = some (m', rest)) :
    Life s (journal ++ rest) m' := by
  induction moves generalizing journal m rest with
  | nil =>
    cases hf
    simpa using h
  | cons move moves ih =>
    unfold Monitor.follow at hf
    split at hf
    · rename_i he
      obtain ⟨⟨m₁, rest₁⟩, hr, heq⟩ := Option.map_eq_some_iff.mp hf
      cases heq
      simpa using ih (h.move move he) hr
    · cases hf

/-- A life from its moves, with what is to be known about its end. -/
theorem Life.of_follow {α : Type} {s : Settings} {b : Backend} {e : Entropy} {levels : Nat}
    {moves : List Move} {f : Monitor × Journal → α} {a : α}
    (h : ((Monitor.new s b e levels).toOption.bind fun m => (m.follow moves).map f) = some a) :
    ∃ j m, Life s j m ∧ f (m, j) = a := by
  obtain ⟨m₀, hm, h⟩ := Option.bind_eq_some_iff.mp h
  obtain ⟨⟨m, j⟩, hf, ha⟩ := Option.map_eq_some_iff.mp h
  have hn : Monitor.new s b e levels = .ok m₀ := by
    cases hn : Monitor.new s b e levels with
    | error fault => simp [hn, Except.toOption] at hm
    | ok m₁ =>
      simp only [hn, Except.toOption, Option.some.injEq] at hm
      rw [hm]
  exact ⟨j, m, by simpa using (Life.new hn).follow hf, ha⟩

structure Enacted (m : Monitor) (t : Tracker) (told : List Mark) (runner : Runner)
    (m' : Monitor) (j : Journal) : Prop where
  now : m'.now = m.now
  runner : m'.runner = runner
  tracker : ResetAt (instantAt m.now) t m'.tracker
  marks : j.marks = told.map (m.now, ·)
  shown : ∀ p ∈ j, ∀ e u, p.2.shown? = some (e, u) →
    .announced e ∈ told ∧ ResetAt (instantAt m.now) t u

theorem enacted (m : Monitor) (w : World) (effects : List Effect) (runner : Runner) :
    Enacted m w.tracker (effects.filterMap Effect.mark?) runner (m.enact w effects runner).1
      (m.enact w effects runner).2 := by
  have h := perform_performed m.now effects w m.hub
  refine ⟨rfl, rfl, h.tracker, ?_, ?_⟩
  · rw [← h.marks, List.map_filterMap]
    exact List.filterMap_map
  · intro p hp e u hs
    obtain ⟨o, ho, rfl⟩ := List.mem_map.mp hp
    obtain ⟨he, hr⟩ := h.shown o ho e u hs
    exact ⟨Effect.announced_of_emit he, hr⟩

/-- The one mark is before the cut or behind it. -/
theorem Enacted.split {m m' : Monitor} {t : Tracker} {e : Event} {runner : Runner}
    {j before after : Journal} (h : Enacted m t (announcing (some e)) runner m' j)
    (hj : j = before ++ after) :
    Journal.marks before = [] ∧ Journal.marks after = [(m.now, .announced e)] ∨
      Journal.marks before = [(m.now, .announced e)] ∧ Journal.marks after = [] := by
  have hmarks : Journal.marks before ++ Journal.marks after = [(m.now, .announced e)] := by
    rw [← Journal.marks_append, ← hj, h.marks]
    rfl
  exact List.append_eq_singleton_iff.mp hmarks

theorem farewell_marks (panicked : Bool) : (farewell panicked).filterMap Effect.mark? = [] := by
  cases panicked <;> rfl

def runnerAfter : ControlLoop.Next → Runner
  | .going l => .live l
  | .left => .ended false
  | .crashed _ => .ended true

/-- What a move can do, as far as the course of events goes. -/
inductive Moved (m m' : Monitor) : Journal → Prop where
  | keeps : m'.runner = m.runner → m'.now = m.now ∨ m.atRest = true →
      ResetAt (instantAt m.now) m.tracker m'.tracker → Moved m m' []
  | begins {j} : m.runner = .idle ∨ (∃ panicked, m.runner = .ended panicked) →
      Enacted m m.tracker [.started] (.live .unstarted) m' j → Moved m m' j
  | progresses {l t event next j} : m.runner = .live l →
      l.Progress m.settings m.now m.tracker t event next →
      Enacted m t (announcing event) (runnerAfter next) m' j → Moved m m' j
  | ends {t runner j} : m.atRest = true → (∀ l, runner ≠ .live l) →
      t = m.tracker ∨ t = m.tracker.interruptEpisode.1 →
      Enacted m t [] runner m' j → Moved m m' j

theorem turn_eq_some {m m' : Monitor} {j : Journal} (h : m.turn = some (m', j)) :
    (∃ l t event next, m.runner = .live l ∧ l.Progress m.settings m.now m.tracker t event next ∧
      Enacted m t (announcing event) (runnerAfter next) m' j) ∨
    ∃ l, m.runner = .severed l ∧ Enacted m m.tracker.interruptEpisode.1 [] .idle m' j := by
  unfold turn at h
  split at h
  · rename_i l hl
    obtain ⟨t, ht, heq⟩ := Option.map_eq_some_iff.mp h
    cases heq
    obtain ⟨event, hp, hm⟩ := ControlLoop.progress_of_step ht
    have henact := enacted m t.world t.effects (runnerAfter t.next)
    rw [hm] at henact
    exact Or.inl ⟨l, _, event, t.next, hl, hp, henact⟩
  · rename_i l hl
    cases h
    have henact := enacted m (l.cut m.world).1 (l.cut m.world).2 .idle
    rw [ControlLoop.cut_marks, ControlLoop.cut_tracker] at henact
    exact Or.inr ⟨l, hl, henact⟩
  · cases h
  · cases h

theorem turn_moved {m m' : Monitor} {j : Journal} (h : m.turn = some (m', j)) :
    Moved m m' j := by
  rcases turn_eq_some h with ⟨l, t, event, next, hl, hp, he⟩ | ⟨l, hl, he⟩
  · exact .progresses hl hp he
  · exact .ends (by simp [atRest, Runner.atRest, hl]) (by simp) (Or.inr rfl) he

theorem start_moved (m : Monitor) : Moved m m.start.2.1 m.start.2.2 := by
  have henact := enacted m m.world [.log (.monitoringStarted m.settings.interval)]
    (.live .unstarted)
  unfold start
  split
  · exact .keeps rfl (Or.inl rfl) (.refl _ _)
  · exact .keeps rfl (Or.inl rfl) (.refl _ _)
  · rename_i hr
    exact .begins (Or.inl hr) henact
  · rename_i hr
    exact .begins (Or.inr ⟨_, hr⟩) henact

theorem stop_moved {m : Monitor} (h : m.atRest = true) : Moved m m.stop.2.1 m.stop.2.2 := by
  unfold stop
  split
  · exact .keeps rfl (Or.inl rfl) (.refl _ _)
  · exact .keeps rfl (Or.inl rfl) (.refl _ _)
  · rename_i l hl
    have henact := enacted m (l.cut m.world).1
      ((l.cut m.world).2 ++ [.log .monitoringStopped]) .idle
    rw [List.filterMap_append, ControlLoop.cut_marks, ControlLoop.cut_tracker] at henact
    exact .ends h (by simp) (Or.inr rfl) henact
  · rename_i panicked hr
    have henact := enacted m m.world (farewell panicked) .idle
    rw [farewell_marks] at henact
    exact .ends h (by simp) (Or.inl rfl) henact

theorem drop_moved {m : Monitor} (h : m.atRest = true) : Moved m m.drop [] := by
  refine .ends h ?_ (Or.inl rfl) ⟨rfl, rfl, .refl _ _, rfl, by simp⟩
  intro l
  unfold drop
  split <;> simp

theorem moved {m : Monitor} {move : Move} (h : m.Enabled move) :
    Moved m (m.next move).1 (m.next move).2 := by
  cases move with
  | turn =>
    cases ht : m.turn with
    | none =>
      simp only [next, ht, Option.getD_none]
      exact .keeps rfl (Or.inl rfl) (.refl _ _)
    | some p =>
      simp only [next, ht, Option.getD_some]
      exact turn_moved ht
  | pass time => exact .keeps rfl (Or.inr h.1) (.refl _ _)
  | start => exact start_moved m
  | stop => exact stop_moved h
  | drop => exact drop_moved h
  | reset => exact .keeps rfl (Or.inl rfl) (Tracker.ResetAt.refl _ _).reset
  | register handler => exact .keeps rfl (Or.inl rfl) (.refl _ _)
  | unregister id => exact .keeps rfl (Or.inl rfl) (.refl _ _)
  | change f => exact .keeps rfl (Or.inl rfl) (.refl _ _)

theorem turn_settings {m m' : Monitor} {j : Journal} (h : m.turn = some (m', j)) :
    m'.settings = m.settings := by
  unfold turn at h
  split at h
  · obtain ⟨t, -, heq⟩ := Option.map_eq_some_iff.mp h
    cases heq
    rfl
  · cases h
    rfl
  · cases h
  · cases h

theorem next_settings (m : Monitor) (move : Move) : (m.next move).1.settings = m.settings := by
  cases move with
  | turn =>
    cases ht : m.turn with
    | none => simp only [next, ht, Option.getD_none]
    | some p =>
      simp only [next, ht, Option.getD_some]
      exact turn_settings ht
  | start =>
    simp only [next, start]
    split <;> rfl
  | stop =>
    simp only [next, stop]
    split <;> rfl
  | _ => rfl

theorem new_eq_ok {s : Settings} {b : Backend} {e : Entropy} {levels : Nat} {m : Monitor}
    (h : Monitor.new s b e levels = .ok m) : s.check = .ok () ∧ m.settings = s ∧ m.now = 0 ∧
      m.runner = .idle ∧ m.tracker = .new s.failureThreshold s.successThreshold := by
  unfold new at h
  cases hc : s.check with
  | error fault => simp [hc, bind, Except.bind] at h
  | ok _ =>
    simp only [hc, bind, Except.bind, pure, Except.pure, Except.ok.injEq] at h
    subst h
    exact ⟨rfl, rfl, rfl, rfl, rfl⟩

theorem Life.settings_eq {s : Settings} {j : Journal} {m : Monitor} (h : Life s j m) :
    m.settings = s := by
  induction h with
  | new hn => exact (new_eq_ok hn).2.1
  | move move _ _ ih => exact (next_settings _ move).trans ih

def eagerSettings : Settings :=
  { Settings.new 10 5 with
    failureThreshold := 1
    successThreshold := 1
    policy := Policy.new 2 1 1 }

def failingTwice : Backend :=
  { kind := .pool
    driver := "target"
    pings := ⟨[.answer 0 (some .cancelled), .answer 0 (some .cancelled)], .ok⟩
    acquires := ⟨[], .ok⟩
    connections := .always .isOpen
    stats := none }

/-- One attempt fails. The loop is stopped before the next, and started again later. -/
def interruptedOutage : List Move :=
  [.start, .turn, .turn, .turn, .turn, .turn, .pass 1, .turn, .turn, .turn, .stop, .pass 7,
    .start, .turn, .turn, .turn]

end Monitor

end Liveness

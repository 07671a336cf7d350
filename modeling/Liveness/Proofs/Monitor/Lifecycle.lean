import Liveness.Proofs.Monitor.Course
/-!
# Loops that come and go

What a monitor answers when it is started or stopped goes with the loops that there have been. The
loops are counted from outside: one more when a start is granted, one less when a stop is granted or
a panic breaks off a step. A loop that a panic has ended still has to be stopped, or started again,
before a monitor refuses to stop.
-/
namespace Liveness

inductive LoopTurn where
  | started
  | stopped
  /-- The loop has ended by itself. -/
  | left
  | crashed
deriving DecidableEq

/-- How many loops are alive. To stop one that has crashed takes away no other. -/
def LoopTurn.alive (turns : List LoopTurn) : Nat :=
  turns.foldl (fun loops turn => match turn with
    | .started => loops + 1
    | .stopped | .left | .crashed => loops - 1) 0

theorem LoopTurn.alive_append_singleton (turns : List LoopTurn) (turn : LoopTurn) :
    alive (turns ++ [turn]) = match turn with
      | .started => alive turns + 1
      | .stopped | .left | .crashed => alive turns - 1 := by
  simp [alive]

def ControlLoop.Next.loopTurn? : ControlLoop.Next → Option LoopTurn
  | .going _ => none
  | .left => some .left
  | .crashed _ => some .crashed

def Runner.ExpectedAfter (turns : List LoopTurn) : Runner → Prop
  | .idle => LoopTurn.alive turns = 0 ∧ turns.getLast? ≠ some .crashed
  | .live _ => LoopTurn.alive turns = 1
  | .ended true => LoopTurn.alive turns = 0 ∧ turns.getLast? = some .crashed
  | .ended false => False
  | .severed _ => False

/-- A loop ends by itself only in a crash. -/
theorem Runner.ExpectedAfter.of_ended {turns : List LoopTurn} {panicked : Bool}
    (h : (Runner.ended panicked).ExpectedAfter turns) :
    panicked = true ∧ LoopTurn.alive turns = 0 ∧ turns.getLast? = some .crashed := by
  cases panicked with
  | false => exact h.elim
  | true => exact ⟨rfl, h⟩

namespace Monitor

variable {s : Settings} {steps : List (Monitor × Move)} {j : Journal} {m : Monitor} {move : Move}
  {turns : List LoopTurn}

/-- What a move does with a loop. Of starts and stops the answer tells. -/
def loopTurn? (m : Monitor) : Move → Option LoopTurn
  | .start =>
    match m.start.1 with
    | .ok _ => some .started
    | .error _ => none
  | .stop =>
    match m.stop.1 with
    | .ok _ => some .stopped
    | .error _ => none
  | .turn =>
    match m.runner with
    | .live l => (l.step m.settings m.now m.world).bind (·.next.loopTurn?)
    | _ => none
  | _ => none

def loopTurns (steps : List (Monitor × Move)) : List LoopTurn :=
  steps.filterMap fun p => p.1.loopTurn? p.2

theorem loopTurns_append_singleton (steps : List (Monitor × Move)) (m : Monitor) (move : Move) :
    loopTurns (steps ++ [(m, move)]) = loopTurns steps ++ (m.loopTurn? move).toList := by
  cases h : m.loopTurn? move <;> simp [loopTurns, h]

theorem next_expected (h : m.runner.ExpectedAfter turns) (hd : move ≠ .drop) :
    (m.next move).1.runner.ExpectedAfter (turns ++ (m.loopTurn? move).toList) := by
  have same (h : m.runner.ExpectedAfter turns) :
      m.runner.ExpectedAfter (turns ++ (none : Option LoopTurn).toList) := by
    simpa using h
  cases move with
  | start =>
    cases hr : m.runner with
    | live l =>
      simp only [next, start, loopTurn?, hr]
      exact hr ▸ same h
    | severed l =>
      rw [hr] at h
      exact h.elim
    | idle =>
      rw [hr] at h
      simp only [next, start, loopTurn?, hr, enact, Option.toList_some]
      simp [Runner.ExpectedAfter, LoopTurn.alive_append_singleton, h.1]
    | ended panicked =>
      rw [hr] at h
      obtain ⟨rfl, halive, -⟩ := h.of_ended
      simp only [next, start, loopTurn?, hr, enact, Option.toList_some]
      simp [Runner.ExpectedAfter, LoopTurn.alive_append_singleton, halive]
  | stop =>
    cases hr : m.runner with
    | live l =>
      rw [hr] at h
      have halive : LoopTurn.alive turns = 1 := h
      simp only [next, stop, loopTurn?, hr, enact, Option.toList_some]
      simp [Runner.ExpectedAfter, LoopTurn.alive_append_singleton, halive]
    | ended panicked =>
      rw [hr] at h
      obtain ⟨rfl, halive, -⟩ := h.of_ended
      simp only [next, stop, loopTurn?, hr, enact, Option.toList_some]
      simp [Runner.ExpectedAfter, LoopTurn.alive_append_singleton, halive]
    | severed l =>
      rw [hr] at h
      exact h.elim
    | idle =>
      simp only [next, stop, loopTurn?, hr]
      exact hr ▸ same h
  | turn =>
    cases hr : m.runner with
    | live l =>
      rw [hr] at h
      have halive : LoopTurn.alive turns = 1 := h
      cases hs : l.step m.settings m.now m.world with
      | none => simpa [next, turn, loopTurn?, hr, hs] using h
      | some t =>
        cases hn : t.next with
        | going l' =>
          simpa [next, turn, loopTurn?, hr, hs, hn, enact, ControlLoop.Next.loopTurn?,
            Runner.ExpectedAfter] using halive
        | left => exact absurd hn (ControlLoop.step_ne_left hs)
        | crashed c =>
          simp [next, turn, loopTurn?, hr, hs, hn, enact, ControlLoop.Next.loopTurn?,
            Runner.ExpectedAfter, LoopTurn.alive_append_singleton, halive]
    | severed l =>
      rw [hr] at h
      exact h.elim
    | _ => simpa [next, turn, loopTurn?, hr] using hr ▸ h
  | drop => exact (hd rfl).elim
  | _ => exact same h

namespace Course

theorem expected (h : Course s steps j m) (hd : ∀ p ∈ steps, p.2 ≠ .drop) :
    m.runner.ExpectedAfter (loopTurns steps) := by
  induction h with
  | new hn =>
    obtain ⟨-, -, -, hr, -⟩ := new_eq_ok hn
    rw [hr]
    exact ⟨rfl, nofun⟩
  | @move steps j m move _ _ ih =>
    obtain ⟨hbefore, hlast⟩ := List.forall_mem_append.mp hd
    rw [loopTurns_append_singleton]
    exact next_expected (ih hbefore) (hlast _ (List.mem_singleton_self _))

/-- At most one loop is alive, and the answers tell whether one is. A monitor refuses to stop when
none is, unless the last one has crashed and nobody has been told. -/
theorem lifecycle_answers (h : Course s steps j m) (hd : ∀ p ∈ steps, p.2 ≠ .drop) :
    LoopTurn.alive (loopTurns steps) ≤ 1 ∧
    (m.isRunning = true ↔ LoopTurn.alive (loopTurns steps) = 1) ∧
    (m.start.1 = .error .alreadyRunning ↔ LoopTurn.alive (loopTurns steps) = 1) ∧
    (m.start.1 = .error .alreadyRunning → m.start.2 = (m, [])) ∧
    (m.start.1 ≠ .error .alreadyRunning → m.start.1 = .ok () ∧
      m.start.2.1.isRunning = true ∧
      LoopTurn.alive (loopTurns (steps ++ [(m, .start)])) = 1) ∧
    (m.stop.1 = .error .notRunning ↔ LoopTurn.alive (loopTurns steps) = 0 ∧
      (loopTurns steps).getLast? ≠ some .crashed) ∧
    (m.stop.1 ≠ .error .notRunning → m.stop.1 = .ok () ∧ m.stop.2.1.isRunning = false ∧
      LoopTurn.alive (loopTurns (steps ++ [(m, .stop)])) = 0) := by
  have hexpected := h.expected hd
  simp only [loopTurns_append_singleton]
  cases hr : m.runner with
  | severed l =>
    rw [hr] at hexpected
    exact hexpected.elim
  | live l =>
    rw [hr] at hexpected
    have halive : LoopTurn.alive (loopTurns steps) = 1 := hexpected
    simp [isRunning, start, stop, loopTurn?, hr, halive, enact, LoopTurn.alive_append_singleton]
  | ended panicked =>
    rw [hr] at hexpected
    obtain ⟨rfl, halive, hlast⟩ := hexpected.of_ended
    simp [isRunning, start, stop, loopTurn?, hr, halive, hlast, enact,
      LoopTurn.alive_append_singleton]
  | idle =>
    rw [hr] at hexpected
    obtain ⟨halive, hlast⟩ := hexpected
    simp [isRunning, start, stop, loopTurn?, hr, halive, hlast, enact,
      LoopTurn.alive_append_singleton]

end Course

def panickingOnce : Backend := { failingTwice with pings := ⟨[.panic 0], .ok⟩ }

def firstCheck : List Move := [.start, .turn, .turn, .turn]

/-- Another loop is started after the crash, and it is the one that is alive. -/
theorem Course.lifecycle_answers_restarted : ∃ steps j m, Course eagerSettings steps j m ∧
    loopTurns steps = [.started, .crashed, .started] ∧ LoopTurn.alive (loopTurns steps) = 1 ∧
    m.isRunning = true ∧ m.start.1 = .error .alreadyRunning ∧ m.start.2 = (m, []) ∧
    m.stop.1 ≠ .error .notRunning := by
  obtain ⟨steps, j, m, hc, hmoves, hturns⟩ :=
    Course.of_follow eagerSettings panickingOnce default 1 (firstCheck ++ [.pass 3, .start])
      (fun steps _ _ => loopTurns steps = [.started, .crashed, .started]) (by decide +kernel)
  have hd : ∀ move ∈ firstCheck ++ [.pass 3, .start], move ≠ .drop := by simp [firstCheck]
  rw [← hmoves, List.forall_mem_map] at hd
  have halive : LoopTurn.alive (loopTurns steps) = 1 := by
    rw [hturns]
    rfl
  obtain ⟨-, hrunning, hstart, hsame, -, hstop, -⟩ := hc.lifecycle_answers hd
  have hrefused := hstart.mpr halive
  refine ⟨steps, j, m, hc, hturns, halive, hrunning.mpr halive, hrefused, hsame hrefused, ?_⟩
  intro hstopped
  have hnone := (hstop.mp hstopped).1
  omega

/-- No loop is alive after the crash, and yet the monitor does not refuse to stop. -/
theorem Course.stops_after_crash : ∃ steps j m, Course eagerSettings steps j m ∧
    steps.map (·.2) = firstCheck ∧ LoopTurn.alive (loopTurns steps) = 0 ∧
    m.isRunning = false ∧ m.stop.1 = .ok () ∧
    ¬(m.stop.1 = .error .notRunning ↔ LoopTurn.alive (loopTurns steps) = 0) := by
  obtain ⟨steps, j, m, hc, hmoves, halive, hrunning, hstop⟩ :=
    Course.of_follow eagerSettings panickingOnce default 1 firstCheck
      (fun steps _ m => LoopTurn.alive (loopTurns steps) = 0 ∧ m.isRunning = false ∧
        m.stop.1.toOption = some ()) (by decide +kernel)
  have hok : m.stop.1 = .ok () := by
    cases hanswer : m.stop.1 with
    | ok _ => rfl
    | error e =>
      rw [hanswer] at hstop
      cases hstop
  refine ⟨steps, j, m, hc, hmoves, halive, hrunning, hok, ?_⟩
  intro hiff
  have hrefused := hiff.mpr halive
  rw [hok] at hrefused
  cases hrefused

end Monitor

end Liveness

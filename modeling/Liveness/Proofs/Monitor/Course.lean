import Liveness.Proofs.Monitor.Endurance
import Liveness.Proofs.Monitor.Stopping
/-!
# What becomes of the checks

A course is a life together with its steps: each move, and the monitor that made it. From the steps
one can read what became of every check. It ends with a result, is cut off with its loop, or the
target panics, and at most one is in flight.
-/
namespace Liveness

/-- The check in flight. That of a loop whose monitor is gone is so until the loop notices. -/
def Runner.check? : Runner → Option Check
  | .live l | .severed l => l.check?
  | _ => none

def Runner.Safe (r : Runner) : Prop := ∀ l, r = .live l → l.Safe

theorem Runner.safe_of_none {r : Runner} (h : r.loop? = none) : r.Safe := by
  rintro l rfl
  cases h

theorem Runner.safe_live {l : ControlLoop} (h : l.Safe) : (Runner.live l).Safe := by
  rintro l ⟨⟩
  exact h

variable {s : Settings}

namespace Monitor

variable {m : Monitor} {move : Move}

def checkTurn? (m : Monitor) : Move → Option CheckTurn
  | .turn =>
    match m.runner with
    | .live l => l.checkTurn? m.settings m.now m.world
    | .severed l => l.check?.map fun _ => .cut
    | .idle | .ended _ => none
  | .stop =>
    match m.runner with
    | .live l => l.check?.map fun _ => .cut
    | _ => none
  | _ => none

theorem leads_cut (check : Option Check) :
    CheckTurn.Leads (check.map fun _ => .cut) check none := by
  cases check with
  | none => rfl
  | some c => exact ⟨rfl, rfl⟩

theorem next_leads (m : Monitor) (move : Move) :
    CheckTurn.Leads (m.checkTurn? move) m.runner.check? (m.next move).1.runner.check? := by
  cases move with
  | turn =>
    cases hr : m.runner with
    | idle => simp [next, turn, checkTurn?, hr, CheckTurn.Leads]
    | ended panicked => simp [next, turn, checkTurn?, hr, Runner.check?, CheckTurn.Leads]
    | severed l =>
      simp only [next, turn, checkTurn?, hr]
      exact leads_cut l.check?
    | live l =>
      cases hs : l.step m.settings m.now m.world with
      | none =>
        have hwaits := ControlLoop.checkTurn_of_waits hs
        simp [next, turn, checkTurn?, hr, hs, hwaits, CheckTurn.Leads]
      | some t =>
        have hleads := (ControlLoop.step_happens hs).leads
        simp only [next, turn, checkTurn?, hr, hs, Option.map_some, Option.getD_some]
        cases hn : t.next with
        | going l' =>
          rw [hn] at hleads
          exact hleads
        | left => exact absurd hn (ControlLoop.step_ne_left hs)
        | crashed c =>
          rw [hn] at hleads
          exact hleads
  | stop =>
    cases hr : m.runner with
    | live l =>
      simp only [next, stop, checkTurn?, hr]
      exact leads_cut l.check?
    | _ => simp [next, stop, checkTurn?, hr, enact, Runner.check?, CheckTurn.Leads]
  | start =>
    cases hr : m.runner with
    | _ =>
      simp [next, start, checkTurn?, hr, enact, Runner.check?, ControlLoop.check?,
        CheckTurn.Leads]
  | drop =>
    cases hr : m.runner with
    | _ => simp [next, drop, checkTurn?, hr, Runner.check?, CheckTurn.Leads]
  | _ => rfl

theorem checkTurn_eq_some {turn : CheckTurn} (h : m.checkTurn? move = some turn) :
    turn = .cut ∨ turn = .begun ∨ ∃ l check st, m.runner = .live l ∧ l.check? = some check ∧
      check.step m.settings.checkRule m.now m.world.backend = some st ∧
      st.next.turn? = some turn := by
  have of_cut {check : Option Check} (h : (check.map fun _ => CheckTurn.cut) = some turn) :
      turn = .cut := by
    obtain ⟨-, -, hcut⟩ := Option.map_eq_some_iff.mp h
    exact hcut.symm
  cases move with
  | turn =>
    cases hr : m.runner with
    | live l =>
      simp only [checkTurn?, hr] at h
      rcases ControlLoop.checkTurn_eq_some h with hbegun | ⟨check, st, hc, hs, hn⟩
      · exact Or.inr (Or.inl hbegun)
      · exact Or.inr (Or.inr ⟨l, check, st, rfl, hc, hs, hn⟩)
    | severed l =>
      simp only [checkTurn?, hr] at h
      exact Or.inl (of_cut h)
    | _ => simp [checkTurn?, hr] at h
  | stop =>
    cases hr : m.runner with
    | live l =>
      simp only [checkTurn?, hr] at h
      exact Or.inl (of_cut h)
    | _ => simp [checkTurn?, hr] at h
  | _ => cases h

theorem checkTurn_ne_crashed (hs : m.runner.Safe) : m.checkTurn? move ≠ some .crashed := by
  intro h
  rcases checkTurn_eq_some h with hcut | hbegun | ⟨l, check, st, hl, hc, hstep, hn⟩
  · cases hcut
  · cases hbegun
  · exact Check.not_safe_of_crashed hstep (Check.Next.eq_crashed hn) (hs l hl check hc)

theorem checkTurn_ne_cancelled (m : Monitor) (move : Move) :
    m.checkTurn? move ≠ some (.ended (.error .cancelled)) := by
  intro h
  rcases checkTurn_eq_some h with hcut | hbegun | ⟨l, check, st, hl, hc, hstep, hn⟩
  · cases hcut
  · cases hbegun
  · exact Check.step_ne_cancelled hstep (Check.Next.eq_done hn)

theorem next_safe (hs : m.runner.Safe) (hb : m.world.backend.NeverPanics) :
    (m.next move).1.runner.Safe := by
  cases move with
  | turn =>
    cases hr : m.runner with
    | idle =>
      simp only [next, turn, hr]
      exact hs
    | ended panicked =>
      simp only [next, turn, hr]
      exact hs
    | severed l =>
      simp only [next, turn, hr]
      exact Runner.safe_of_none rfl
    | live l =>
      cases hstep : l.step m.settings m.now m.world with
      | none =>
        simp only [next, turn, hr, hstep]
        exact hs
      | some t =>
        obtain ⟨-, hsafe⟩ := ControlLoop.step_safe (hs l hr) hb hstep
        simp only [next, turn, hr, hstep, Option.map_some, Option.getD_some]
        cases hn : t.next with
        | going l' => exact Runner.safe_live (hsafe l' hn)
        | _ => exact Runner.safe_of_none rfl
  | start =>
    have hunstarted : ControlLoop.unstarted.Safe := by
      intro c hc
      cases hc
    simp only [next, start]
    split
    · exact hs
    · exact hs
    all_goals exact Runner.safe_live hunstarted
  | stop =>
    simp only [next, stop]
    split
    · exact hs
    · exact hs
    all_goals exact Runner.safe_of_none rfl
  | drop =>
    simp only [next, drop]
    split
    · exact Runner.safe_of_none rfl
    · exact Runner.safe_of_none rfl
    all_goals exact Runner.safe_of_none rfl
  | _ => exact hs

theorem next_running (hs : m.runner.Safe) (ht : m.OnTime) (hr : m.isRunning = true)
    (hstop : move ≠ .stop) (hdrop : move ≠ .drop) : (m.next move).1.isRunning = true := by
  obtain ⟨l, hl⟩ := runner_of_isRunning hr
  cases move with
  | turn =>
    cases hturn : m.turn with
    | none =>
      simp only [next, hturn, Option.getD_none]
      exact hr
    | some p =>
      simp only [next, hturn, Option.getD_some]
      rcases turn_eq_some hturn with ⟨l', t, event, after, hl', hp, he⟩ | ⟨l', hl', -⟩
      · unfold OnTime at ht
        rw [hl'] at ht
        obtain ⟨-, hcrash⟩ := hp.onTime ht
        cases after with
        | going l'' => simp [isRunning, he.runner, runnerAfter]
        | left => exact absurd rfl hp.ne_left
        | crashed c => exact (hcrash c rfl (hs l' hl')).elim
      · rw [hl] at hl'
        cases hl'
  | start =>
    simp only [next, start, hl]
    exact hr
  | stop => exact (hstop rfl).elim
  | drop => exact (hdrop rfl).elim
  | _ => exact hr

/-- A life with all its steps: each move, and the monitor that made it. -/
inductive Course (s : Settings) : List (Monitor × Move) → Journal → Monitor → Prop where
  | new {b e levels m} : Monitor.new s b e levels = .ok m → Course s [] [] m
  | move {steps journal m} (move : Move) : Course s steps journal m → m.Enabled move →
      Course s (steps ++ [(m, move)]) (journal ++ (m.next move).2) (m.next move).1

def stepsOf : Monitor → List Move → List (Monitor × Move)
  | _, [] => []
  | m, move :: moves => (m, move) :: stepsOf (m.next move).1 moves

theorem stepsOf_moves (m : Monitor) (moves : List Move) : (m.stepsOf moves).map (·.2) = moves := by
  induction moves generalizing m with
  | nil => rfl
  | cons move moves ih => simp [stepsOf, ih]

def checkTurns (steps : List (Monitor × Move)) : List CheckTurn :=
  steps.filterMap fun p => p.1.checkTurn? p.2

def checkResults (steps : List (Monitor × Move)) : List CheckResult :=
  (checkTurns steps).filterMap CheckTurn.result?

theorem checkTurns_append_singleton (steps : List (Monitor × Move)) (m : Monitor) (move : Move) :
    checkTurns (steps ++ [(m, move)]) = checkTurns steps ++ (m.checkTurn? move).toList := by
  cases h : m.checkTurn? move <;> simp [checkTurns, h]

theorem checkResults_append_singleton (steps : List (Monitor × Move)) (m : Monitor)
    (move : Move) : checkResults (steps ++ [(m, move)]) =
      checkResults steps ++ ((m.checkTurn? move).bind CheckTurn.result?).toList := by
  unfold checkResults
  rw [checkTurns_append_singleton, List.filterMap_append]
  cases m.checkTurn? move with
  | none => rfl
  | some turn => cases h : turn.result? <;> simp [h]

def inFlight (m : Monitor) : Nat := m.runner.check?.toList.length

theorem Life.course {j : Journal} (h : Life s j m) : ∃ steps, Course s steps j m := by
  induction h with
  | new hn => exact ⟨[], .new hn⟩
  | @move j m move _ he ih =>
    obtain ⟨steps, hc⟩ := ih
    exact ⟨steps ++ [(m, move)], hc.move move he⟩

namespace Course

variable {steps : List (Monitor × Move)} {j rest : Journal} {m' : Monitor}

theorem life (h : Course s steps j m) : Life s j m := by
  induction h with
  | new hn => exact .new hn
  | move move _ he ih => exact ih.move move he

theorem follow {moves : List Move} (h : Course s steps j m)
    (hf : m.follow moves = some (m', rest)) :
    Course s (steps ++ m.stepsOf moves) (j ++ rest) m' := by
  induction moves generalizing steps j m rest with
  | nil =>
    cases hf
    simpa [stepsOf] using h
  | cons move moves ih =>
    unfold Monitor.follow at hf
    split at hf
    · rename_i he
      obtain ⟨⟨m₁, rest₁⟩, hr, heq⟩ := Option.map_eq_some_iff.mp hf
      cases heq
      simpa [stepsOf] using ih (h.move move he) hr
    · cases hf

/-- A course from its moves, with what is to be known about it. -/
theorem of_follow (s : Settings) (b : Backend) (e : Entropy) (levels : Nat) (moves : List Move)
    (P : List (Monitor × Move) → Journal → Monitor → Prop)
    [∀ steps j m, Decidable (P steps j m)]
    (h : ((Monitor.new s b e levels).toOption.bind fun m => (m.follow moves).map fun p =>
      decide (P (m.stepsOf moves) p.2 p.1)) = some true) :
    ∃ steps j m, Course s steps j m ∧ steps.map (·.2) = moves ∧ P steps j m := by
  obtain ⟨m₀, hm, h⟩ := Option.bind_eq_some_iff.mp h
  obtain ⟨⟨m, j⟩, hf, ha⟩ := Option.map_eq_some_iff.mp h
  have hn : Monitor.new s b e levels = .ok m₀ := by
    cases hn : Monitor.new s b e levels with
    | error fault => simp [hn, Except.toOption] at hm
    | ok m₁ =>
      simp only [hn, Except.toOption, Option.some.injEq] at hm
      rw [hm]
  have hcourse := (Course.new hn).follow hf
  exact ⟨m₀.stepsOf moves, [] ++ j, m, hcourse, stepsOf_moves _ _, of_decide_eq_true ha⟩

theorem safe (h : Course s steps j m) (hb : ∀ p ∈ steps, p.1.world.backend.NeverPanics) :
    m.runner.Safe := by
  induction h with
  | new hn =>
    obtain ⟨-, -, -, hr, -⟩ := new_eq_ok hn
    rw [hr]
    exact Runner.safe_of_none rfl
  | move move _ _ ih =>
    obtain ⟨hbefore, hlast⟩ := List.forall_mem_append.mp hb
    exact next_safe (ih hbefore) (hlast _ (List.mem_singleton_self _))

theorem none_crashed (h : Course s steps j m)
    (hb : ∀ p ∈ steps, p.1.world.backend.NeverPanics) : .crashed ∉ checkTurns steps := by
  induction h with
  | new => simp [checkTurns]
  | @move steps j m move hc _ ih =>
    obtain ⟨hbefore, -⟩ := List.forall_mem_append.mp hb
    rw [checkTurns_append_singleton, List.mem_append]
    rintro (hmem | hmem)
    · exact ih hbefore hmem
    · exact checkTurn_ne_crashed (hc.safe hbefore) (Option.mem_toList.mp hmem)

/-- Every check that has begun has ended, has been cut off, has crashed or is in flight. -/
theorem balance (h : Course s steps j m) : (checkTurns steps).count .begun =
    (checkResults steps).length + (checkTurns steps).count .crashed +
      (checkTurns steps).count .cut + m.inFlight := by
  induction h with
  | new hn =>
    obtain ⟨-, -, -, hr, -⟩ := new_eq_ok hn
    simp [inFlight, hr, checkTurns, checkResults, Runner.check?]
  | @move steps j m move _ _ ih =>
    have hcount := (next_leads m move).count
    rw [checkTurns_append_singleton, checkResults_append_singleton]
    simp only [List.count_append, List.length_append, inFlight] at ih ⊢
    omega

end Course

end Monitor

end Liveness

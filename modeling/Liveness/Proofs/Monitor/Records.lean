import Liveness.Proofs.Monitor.Course
import Liveness.Proofs.Monitor.Listeners
/-!
# What a course records

The tracker of a monitor goes through operations in order. They record the results with which checks
end, each once and no other, and they tell of the same episodes as the events that are announced.
-/
namespace Liveness

open Tracker (Operation Run Orderly ResetAt results told)

namespace Tracker

theorem Run.append {permits : Tracker → Operation → Prop} {t u v : Tracker}
    {ops more : List Operation} (h : Run permits t ops u) (k : Run permits u more v) :
    Run permits t (ops ++ more) v := by
  induction k with
  | nil => simpa using h
  | step _ hp ha ih =>
    rw [← List.append_assoc]
    exact ih.step hp ha

/-- Operations in order lead from one tracker to the other. They record these results and tell of
these events, and if the totals are kept, none of them is a reset. -/
def Records (kept : Prop) (t u : Tracker) (recorded : List CheckResult)
    (tells : List EventKind) : Prop :=
  ∃ ops, Run Orderly t ops u ∧ results ops = recorded ∧ told ops = tells ∧
    (kept → ∀ op ∈ ops, op.isReset = false)

namespace Records

variable {kept : Prop} {t u v : Tracker} {recorded recorded' : List CheckResult}
  {tells tells' : List EventKind}

theorem refl (kept : Prop) (t : Tracker) : Records kept t t [] [] :=
  ⟨[], .nil, rfl, rfl, by simp⟩

theorem trans (h : Records kept t u recorded tells) (k : Records kept u v recorded' tells') :
    Records kept t v (recorded ++ recorded') (tells ++ tells') := by
  obtain ⟨ops, hrun, rfl, rfl, hkept⟩ := h
  obtain ⟨ops', hrun', rfl, rfl, hkept'⟩ := k
  refine ⟨ops ++ ops', hrun.append hrun', ?_, ?_, ?_⟩
  · exact List.filterMap_append
  · exact List.filterMap_append
  · intro hk
    exact List.forall_mem_append.mpr ⟨hkept hk, hkept' hk⟩

theorem mono {kept' : Prop} (h : Records kept t u recorded tells) (hk : kept' → kept) :
    Records kept' t u recorded tells := by
  obtain ⟨ops, hrun, hrec, htold, hkept⟩ := h
  exact ⟨ops, hrun, hrec, htold, fun hyes => hkept (hk hyes)⟩

theorem apply {answer : Answer} (op : Operation) (ho : t.Orderly op)
    (ha : t.apply op = .ok (u, answer)) (hr : op.isReset = false) :
    Records kept t u op.result?.toList op.tells?.toList := by
  refine ⟨[op], Run.nil.step ho ha, ?_, ?_, ?_⟩
  · simpa using results_append_singleton [] op
  · simpa using told_append_singleton [] op
  · simpa using fun _ => hr

/-- Subscribers reset the totals, if anything. -/
theorem of_resetAt {now : Instant} (h : Records kept t u recorded tells)
    (hr : ResetAt now u v) (hk : kept → v = u) : Records kept t v recorded tells := by
  rcases hr with rfl | rfl
  · exact h
  · obtain ⟨ops, hrun, hrec, htold, hkept⟩ := h
    by_cases hkeep : kept
    · rw [hk hkeep]
      exact ⟨ops, hrun, hrec, htold, hkept⟩
    · have ho : u.Orderly (.resetTally now) := trivial
      refine ⟨ops ++ [.resetTally now], hrun.step ho rfl, ?_, ?_, ?_⟩
      · simp [results_append_singleton, hrec, Operation.result?]
      · simp [told_append_singleton, htold, Operation.tells?]
      · intro hyes
        exact absurd hyes hkeep

theorem checked (kept : Prop) {result : CheckResult} {now : Instant} {c : Transition}
    (h : t.recordCheck result now = .ok (u, c)) : Records kept t u [result] [] := by
  have ha : t.apply (.recordCheck result now) = .ok (u, .transition c) := by
    simp [Tracker.apply, h, Except.map]
  exact apply (.recordCheck result now) trivial ha rfl

theorem attempted (kept : Prop) {result : CheckResult} {now : Instant} {c : Transition}
    (hr : t.status.reconnecting = true) (h : t.recordAttempt result now = .ok (u, c)) :
    Records kept t u [result] ((Operation.recordAttempt result now).tells?).toList := by
  have ha : t.apply (.recordAttempt result now) = .ok (u, .transition c) := by
    simp [Tracker.apply, h, Except.map]
  exact apply (.recordAttempt result now) hr ha rfl

end Records

end Tracker

def Mark.kind? : Mark → Option EventKind
  | .started => none
  | .announced e => some e.kind

def ofEpisodes (marks : List Mark) : List EventKind :=
  (marks.filterMap Mark.kind?).filter EventKind.isReconnect

variable {kept : Prop} {s : Settings} {rule : EpisodeRule} {now : Nat}

namespace Episode

variable {e : Episode} {w : World} {turn : Turn Next}

theorem step_records (he : e.Fits rule.policy now w.tracker)
    (ht : w.tracker.OnTime now e.check?) (h : e.step rule now w = some turn) :
    Tracker.Records kept w.tracker turn.world.tracker
      ((e.checkTurn? rule now w).bind CheckTurn.result?).toList
      (ofEpisodes (turn.effects.filterMap Effect.mark?)) := by
  cases e with
  | opening =>
    cases h
    exact .apply (.beginEpisode _) he.1 rfl rfl
  | deciding attempts =>
    simp only [step] at h
    split at h
    · cases h
      exact .refl _ _
    · cases h
      exact .apply .abandonEpisode trivial rfl rfl
  | backingOff attempts until_ =>
    simp only [step] at h
    split at h
    · cases h
    · rename_i hu
      cases h
      simp only [checkTurn?, if_neg hu, marks_of_calls]
      exact .refl _ _
  | attempting attempts check =>
    simp only [step_attempting, Option.map_eq_some_iff] at h
    obtain ⟨st, hs, rfl⟩ := h
    simp only [checkTurn?, hs, Option.bind_some]
    cases hn : st.next with
    | going check' =>
      simp only [marks_of_calls]
      exact .refl _ _
    | crashed =>
      simp only [marks_of_calls]
      exact .refl _ _
    | done result =>
      obtain ⟨u, c, hu, -⟩ := ht.recordAttempt hs hn
      have hrecords := Tracker.Records.attempted kept he.1.reconnecting hu
      unfold conclude
      simp only [hu]
      cases result with
      | ok latency =>
        simp only [marks_after_calls]
        exact hrecords
      | error failure =>
        simp only [marks_after_calls]
        exact hrecords
  | recovered attempts =>
    cases h
    exact .refl _ _

end Episode

namespace ControlLoop

variable {l : ControlLoop} {w : World} {turn : Turn Next}

theorem step_records (hl : l.Fits s now w.tracker) (ht : w.tracker.OnTime now l.check?)
    (h : l.step s now w = some turn) :
    Tracker.Records kept w.tracker turn.world.tracker
      ((l.checkTurn? s now w).bind CheckTurn.result?).toList
      (ofEpisodes (turn.effects.filterMap Effect.mark?)) := by
  cases l with
  | unstarted =>
    cases h
    exact .refl _ _
  | awaiting due =>
    simp only [step] at h
    split at h
    · cases h
    · rename_i hd
      cases h
      simp only [checkTurn?, if_neg hd, marks_of_calls]
      exact .refl _ _
  | checking nextTick check =>
    simp only [step_checking, Option.map_eq_some_iff] at h
    obtain ⟨st, hs, rfl⟩ := h
    simp only [checkTurn?, hs, Option.bind_some]
    cases hn : st.next with
    | going check' =>
      simp only [marks_of_calls]
      exact .refl _ _
    | crashed =>
      simp only [marks_of_calls]
      exact .refl _ _
    | done result =>
      obtain ⟨u, c, hu, -⟩ := ht.recordCheck hs hn
      have hrecords := Tracker.Records.checked kept hu
      unfold conclude
      simp only [hu]
      -- the health that a check commits is announced, but by no event of an episode
      cases result with
      | ok latency =>
        split
        all_goals
          simp only [List.append_assoc, marks_after_calls]
          exact hrecords
      | error failure =>
        split
        all_goals
          simp only [List.append_assoc, marks_after_calls]
          exact hrecords
  | reconnecting e =>
    simp only [step_reconnecting, Option.map_eq_some_iff] at h
    obtain ⟨turn, hs, rfl⟩ := h
    exact Episode.step_records hl.2 ht hs

end ControlLoop

def Journal.announced (j : Journal) : List EventKind :=
  (Journal.marks j).filterMap fun p => p.2.kind?

@[simp] theorem Journal.announced_append (j k : Journal) :
    Journal.announced (j ++ k) = Journal.announced j ++ Journal.announced k := by
  simp [Journal.announced]

def Journal.episodes (j : Journal) : List EventKind :=
  (Journal.announced j).filter EventKind.isReconnect

namespace Monitor

variable {m : Monitor} {move : Move}

theorem Enacted.episodes {m' : Monitor} {t : Tracker} {told : List Mark} {runner : Runner}
    {j : Journal} (h : Enacted m t told runner m' j) : Journal.episodes j = ofEpisodes told := by
  unfold Journal.episodes Journal.announced ofEpisodes
  rw [h.marks, List.filterMap_map]
  rfl

theorem enact_records {w : World} {effects : List Effect} {runner : Runner}
    {recorded : List CheckResult} (hk : kept → m.hub.KeepsTotals)
    (h : Tracker.Records kept m.tracker w.tracker recorded
      (ofEpisodes (effects.filterMap Effect.mark?))) :
    Tracker.Records kept m.tracker (m.enact w effects runner).1.tracker recorded
      (Journal.episodes (m.enact w effects runner).2) := by
  have he := enacted m w effects runner
  rw [he.episodes]
  refine h.of_resetAt he.tracker ?_
  intro hyes
  obtain ⟨hw, -⟩ := enact_listened w effects runner (hk hyes)
  unfold tracker
  rw [hw]

theorem next_records (m : Monitor) (move : Move) (h : m.Standing) (ht : m.OnTime) :
    Tracker.Records (m.hub.KeepsTotals ∧ move.KeepsTotals) m.tracker (m.next move).1.tracker
      ((m.checkTurn? move).bind CheckTurn.result?).toList
      (Journal.episodes (m.next move).2) := by
  have cut_result (check : Option Check) :
      ((check.map fun _ => CheckTurn.cut).bind CheckTurn.result?).toList = [] := by
    cases check <;> rfl
  have hcut (l : ControlLoop) : Tracker.Records (m.hub.KeepsTotals ∧ move.KeepsTotals)
      m.tracker (l.cut m.world).1.tracker [] (ofEpisodes []) := by
    rw [ControlLoop.cut_tracker]
    exact .apply .interruptEpisode trivial rfl rfl
  cases move with
  | turn =>
    cases hr : m.runner with
    | idle =>
      simp only [next, turn, checkTurn?, hr]
      exact .refl _ _
    | ended panicked =>
      simp only [next, turn, checkTurn?, hr]
      exact .refl _ _
    | severed l =>
      simp only [next, turn, checkTurn?, hr, cut_result]
      refine enact_records And.left ?_
      rw [ControlLoop.cut_marks]
      exact hcut l
    | live l =>
      have hf := h.fits
      unfold OnTime at ht
      rw [hr] at hf ht
      cases hs : l.step m.settings m.now m.world with
      | none =>
        simp only [next, turn, checkTurn?, hr, hs, ControlLoop.checkTurn_of_waits hs]
        exact .refl _ _
      | some t =>
        simp only [next, turn, checkTurn?, hr, hs]
        exact enact_records And.left (ControlLoop.step_records hf ht hs)
  | start =>
    simp only [next, start, checkTurn?]
    split
    · exact .refl _ _
    · exact .refl _ _
    all_goals
      dsimp only
      refine enact_records And.left ?_
      exact .refl _ _
  | stop =>
    cases hr : m.runner with
    | live l =>
      simp only [next, stop, checkTurn?, hr, cut_result]
      refine enact_records And.left ?_
      rw [List.filterMap_append, ControlLoop.cut_marks]
      exact hcut l
    | ended panicked =>
      simp only [next, stop, checkTurn?, hr]
      refine enact_records And.left ?_
      rw [farewell_marks]
      exact .refl _ _
    | idle =>
      simp only [next, stop, checkTurn?, hr]
      exact .refl _ _
    | severed l =>
      simp only [next, stop, checkTurn?, hr]
      exact .refl _ _
  | reset =>
    exact Tracker.Records.of_resetAt (.refl _ _) (Tracker.ResetAt.refl _ _).reset (·.2.elim)
  | _ => exact .refl _ _

namespace Course

variable {steps : List (Monitor × Move)} {j : Journal}

theorem listened (h : Course s steps j m) (hk : ∀ p ∈ steps, p.2.KeepsTotals) :
    m.hub.KeepsTotals := by
  induction h with
  | new hn =>
    rw [new_hub hn]
    exact nofun
  | move move _ _ ih =>
    obtain ⟨hbefore, hlast⟩ := List.forall_mem_append.mp hk
    exact next_listened (ih hbefore) (hlast _ (List.mem_singleton_self _))

/-- The tracker has recorded the results of all checks that have ended, in their order. -/
theorem records (h : Course s steps j m) :
    Tracker.Records (∀ p ∈ steps, p.2.KeepsTotals)
      (.new s.failureThreshold s.successThreshold) m.tracker (checkResults steps)
      (Journal.episodes j) := by
  induction h with
  | new hn =>
    obtain ⟨-, -, -, -, ht⟩ := new_eq_ok hn
    rw [ht]
    exact .refl _ _
  | @move steps j m move hc he ih =>
    have hnext := next_records m move hc.life.standing hc.life.onTime
    rw [checkResults_append_singleton]
    have hj : Journal.episodes (j ++ (m.next move).2) =
        Journal.episodes j ++ Journal.episodes (m.next move).2 := by
      simp [Journal.episodes]
    rw [hj]
    refine (ih.mono ?_).trans (hnext.mono ?_)
    · intro hk
      exact (List.forall_mem_append.mp hk).1
    · intro hk
      obtain ⟨hbefore, hlast⟩ := List.forall_mem_append.mp hk
      exact ⟨hc.listened hbefore, hlast _ (List.mem_singleton_self _)⟩

end Course

end Monitor

end Liveness

import Liveness.Proofs.Monitor.Course
/-!
# The calls of a monitor

Its checks take turns at the target, and so do their calls: whatever happens to the monitor, its
journal shows no call that begins before the last one has ended. Where the journal ends, the target
is engaged in what the check in flight waits for. That of a loop whose monitor is gone is still
under way until the loop notices, and no other loop can be started before.
-/
namespace Liveness

def Journal.calls (j : Journal) : List Call := (Journal.effects j).filterMap fun p => p.2.call?

@[simp] theorem Journal.calls_nil : Journal.calls [] = [] := rfl

@[simp] theorem Journal.calls_append (j k : Journal) :
    Journal.calls (j ++ k) = Journal.calls j ++ Journal.calls k := by
  simp [Journal.calls]

def Engagement.of : Option Check → Engagement
  | some c => c.engagement
  | none => .idle

def Check.abandoned (check : Option Check) : List Call := check.elim [] Check.abandon

theorem Check.abandoned_calls (check : Option Check) :
    (abandoned check).foldlM Engagement.next (.of check) = some .idle := by
  cases check with
  | none => rfl
  | some c => exact c.abandon_settles

/-- Whatever happens to checks, the target is asked for one thing at a time. -/
theorem CheckTurn.Happens.calls {rule : CheckRule} {now : Nat} {b b' : Backend}
    {told : Option CheckTurn} {before after : Option Check} {calls : List Call}
    (h : Happens rule now b told before after calls b') :
    calls.foldlM Engagement.next (.of before) = some (.of after) := by
  cases h with
  | nothing => rfl
  | begins => exact Check.start_calls rule now b
  | @steps c st hs =>
    have hcalls := Check.step_calls hs
    cases hn : st.next with
    | _ =>
      rw [hn] at hcalls
      exact hcalls

namespace Episode

theorem cut_calls (e : Episode) (w : World) :
    (e.cut w).2.filterMap Effect.call? = Check.abandoned e.check? := by
  have interrupted : (interrupt w).2.filterMap Effect.call? = [] := by
    unfold interrupt
    simp only
    split <;> rfl
  cases e with
  | attempting attempts check =>
    simp only [cut, List.filterMap_append, calls_of_calls, interrupted]
    exact List.append_nil check.abandon
  | _ => exact interrupted

end Episode

namespace ControlLoop

theorem cut_calls (l : ControlLoop) (w : World) :
    (l.cut w).2.filterMap Effect.call? = Check.abandoned l.check? := by
  cases l with
  | unstarted => rfl
  | awaiting due => rfl
  | checking nextTick check =>
    simp only [cut, leave, List.filterMap_append, calls_of_calls]
    exact List.append_nil check.abandon
  | reconnecting e =>
    simp only [cut, leave, List.filterMap_append, e.cut_calls]
    exact List.append_nil _

end ControlLoop

namespace Monitor

variable {s : Settings} {m : Monitor} {j : Journal}

def engagement (m : Monitor) : Engagement := .of m.runner.check?

theorem enact_calls (m : Monitor) (w : World) (effects : List Effect) (runner : Runner) :
    Journal.calls (m.enact w effects runner).2 = effects.filterMap Effect.call? := by
  have heffects : Journal.effects (m.enact w effects runner).2 = effects.map (m.now, ·) :=
    Journal.effects_performed m.now effects w m.hub
  unfold Journal.calls
  rw [heffects, List.filterMap_map]
  rfl

theorem next_calls (m : Monitor) (move : Move) :
    (Journal.calls (m.next move).2).foldlM Engagement.next m.engagement =
      some (m.next move).1.engagement := by
  cases move with
  | turn =>
    cases hr : m.runner with
    | idle => simp [next, turn, hr]
    | ended panicked => simp [next, turn, hr]
    | severed l =>
      simp only [next, turn, hr, engagement, Option.getD_some, enact_calls, l.cut_calls]
      exact Check.abandoned_calls l.check?
    | live l =>
      cases hs : l.step m.settings m.now m.world with
      | none => simp [next, turn, hr, hs]
      | some t =>
        have hcalls := (ControlLoop.step_happens hs).calls
        simp only [next, turn, hr, hs, engagement, Option.map_some, Option.getD_some, enact_calls]
        cases hn : t.next with
        | going l' =>
          rw [hn] at hcalls
          exact hcalls
        | left => exact absurd hn (ControlLoop.step_ne_left hs)
        | crashed c =>
          rw [hn] at hcalls
          exact hcalls
  | stop =>
    cases hr : m.runner with
    | live l =>
      have hlog : [Effect.log .monitoringStopped].filterMap Effect.call? = [] := rfl
      simp only [next, stop, hr, engagement, enact_calls, List.filterMap_append, l.cut_calls, hlog,
        List.append_nil]
      exact Check.abandoned_calls l.check?
    | ended panicked =>
      simp only [next, stop, hr, engagement, enact_calls]
      cases panicked <;> rfl
    | _ => simp [next, stop, hr]
  | start =>
    cases hr : m.runner with
    | live l => simp [next, start, hr]
    | severed l => simp [next, start, hr]
    | _ =>
      simp only [next, start, hr, engagement, enact_calls]
      rfl
  | drop =>
    cases hr : m.runner with
    | _ =>
      simp only [next, drop, hr, engagement]
      rfl
  | _ => rfl

/-- The calls in the journal of a life come one at a time. -/
theorem Life.calls_in_turn {j : Journal} (h : Life s j m) :
    (Journal.calls j).foldlM Engagement.next .idle = some m.engagement := by
  induction h with
  | new hn =>
    obtain ⟨-, -, -, hr, -⟩ := new_eq_ok hn
    simp [engagement, hr, Runner.check?, Engagement.of]
  | @move j m move _ _ ih =>
    rw [Journal.calls_append, List.foldlM_append, ih]
    exact next_calls m move

end Monitor

end Liveness

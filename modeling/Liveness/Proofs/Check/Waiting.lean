import Liveness.Check
/-!
# Checks that wait

A check makes one call or two before its deadline, and where it does nothing it knows until when.
-/
namespace Liveness

def Pending.After (time : Nat) (p : Pending) : Prop :=
  ∀ due, p.due = some due → time < due

theorem Pending.After.earlier {p : Pending} {time sooner : Nat} (h : p.After time)
    (hle : sooner ≤ time) : p.After sooner :=
  fun due hdue => Nat.lt_of_le_of_lt hle (h due hdue)

theorem Pending.exists_due {p : Pending} {time : Nat} (h : ¬p.After time) :
    ∃ due, p.due = some due ∧ due ≤ time := by
  simpa [After] using h

namespace Check

variable {rule : CheckRule} {now : Nat} {c : Check} {b : Backend}

/-- How many calls the check makes from here, at most. -/
def rank (c : Check) : Nat :=
  match c.stage with
  | .acquiring .. => 2
  | .pinging .. => 1

theorem rank_pos (c : Check) : 0 < c.rank := by
  unfold rank
  split <;> decide

theorem rank_le (c : Check) : c.rank ≤ 2 := by
  unfold rank
  split <;> decide

theorem start_deadline :
    (start rule now b).1.deadline = now + rule.budget.millisUp := by
  unfold start
  split <;> rfl

theorem expire_eq_none (h : c.expire rule now b = none) : now < c.deadline := by
  unfold expire at h
  split at h
  · cases h
  · omega

def awaited (c : Check) : PendingCall :=
  match c.stage with
  | .acquiring call _ | .pinging call _ => call

/-- A reply that is due is taken. -/
theorem step_due {time : Nat} (hdue : c.awaited.reply.due = some time) (ht : time ≤ now) :
    (c.step rule now b).isSome := by
  have hnow := Nat.not_lt_of_le ht
  cases hs : c.stage with
  | acquiring call said =>
    simp only [awaited, hs] at hdue
    cases hr : call.reply with
    | never => simp [hr, Pending.due] at hdue
    | panics due =>
      simp only [hr, Pending.due, Option.some.injEq] at hdue
      simp [step, hs, hr, hdue, hnow]
    | answers due error =>
      simp only [hr, Pending.due, Option.some.injEq] at hdue
      cases error <;> simp [step, hs, hr, hdue, hnow]
  | pinging call borrowed =>
    simp only [awaited, hs] at hdue
    cases hr : call.reply with
    | never => simp [hr, Pending.due] at hdue
    | panics due | answers due =>
      simp only [hr, Pending.due, Option.some.injEq] at hdue
      simp [step, hs, hr, hdue, hnow]

theorem step_eq_expire (h : c.awaited.reply.After now) :
    c.step rule now b = c.expire rule now b := by
  cases hs : c.stage with
  | acquiring call said =>
    simp only [awaited, hs] at h
    cases hr : call.reply with
    | never => simp only [step, hs, hr]
    | answers time | panics time =>
      rw [hr] at h
      simp only [step, hs, hr, if_pos (h time rfl)]
  | pinging call borrowed =>
    simp only [awaited, hs] at h
    cases hr : call.reply with
    | never => simp only [step, hs, hr]
    | answers time | panics time =>
      rw [hr] at h
      simp only [step, hs, hr, if_pos (h time rfl)]

theorem step_eq_none (h : c.step rule now b = none) :
    now < c.deadline ∧ c.awaited.reply.After now := by
  by_cases hafter : c.awaited.reply.After now
  · rw [step_eq_expire hafter] at h
    exact ⟨expire_eq_none h, hafter⟩
  · obtain ⟨time, hdue, ht⟩ := Pending.exists_due hafter
    have hsome : (c.step rule now b).isSome := step_due hdue ht
    rw [h] at hsome
    cases hsome

section Answers

variable {call : PendingCall} {said : Openness} {borrowed : Bool} {time : Nat}

theorem step_alive (hs : c.stage = .pinging call borrowed) (hr : call.reply = .answers time none)
    (ht : time ≤ now) :
    c.step rule now b = some ⟨.done (.ok (c.latency now)),
      call.traced [.pingDone] ++ giveBack borrowed, b⟩ := by
  simp only [step, hs, hr, if_neg (Nat.not_lt_of_le ht)]

theorem step_refused {e : BackendError} (hs : c.stage = .pinging call borrowed)
    (hr : call.reply = .answers time (some e))
    (ht : time ≤ now) :
    c.step rule now b = some ⟨.done (.error (.ofError rule.budget e)),
      call.traced [.pingDone] ++ giveBack borrowed, b⟩ := by
  simp only [step, hs, hr, if_neg (Nat.not_lt_of_le ht)]

theorem step_ping_panics (hs : c.stage = .pinging call borrowed) (hr : call.reply = .panics time)
    (ht : time ≤ now) :
    c.step rule now b =
      some ⟨.crashed, call.traced [.pingPanicked] ++ giveBack borrowed, b⟩ := by
  simp only [step, hs, hr, if_neg (Nat.not_lt_of_le ht)]

theorem step_acquire_refused {e : BackendError} (hs : c.stage = .acquiring call said)
    (hr : call.reply = .answers time (some e))
    (ht : time ≤ now) :
    c.step rule now b =
      some ⟨.done (.error (.ofError rule.budget e)), call.traced [.acquireDone], b⟩ := by
  simp only [step, hs, hr, if_neg (Nat.not_lt_of_le ht)]

theorem step_acquire_panics (hs : c.stage = .acquiring call said)
    (hr : call.reply = .panics time)
    (ht : time ≤ now) :
    c.step rule now b = some ⟨.crashed, call.traced [.acquirePanicked], b⟩ := by
  simp only [step, hs, hr, if_neg (Nat.not_lt_of_le ht)]

theorem step_closed (hs : c.stage = .acquiring call .isClosed)
    (hr : call.reply = .answers time none)
    (ht : time ≤ now) :
    c.step rule now b = some ⟨.done (.error .connectionClosed),
      call.traced [.acquireDone] ++ giveBack b.lends, b⟩ := by
  simp only [step, hs, hr, if_neg (Nat.not_lt_of_le ht), pingAcquired]

theorem step_open (hs : c.stage = .acquiring call .isOpen) (hr : call.reply = .answers time none)
    (ht : time ≤ now) :
    c.step rule now b =
      some ⟨.going { c with stage := .pinging (b.pingConnection now).1 b.lends },
        call.traced [.acquireDone] ++ (b.pingConnection now).1.traced [.ping rule.budget],
        (b.pingConnection now).2⟩ := by
  simp only [step, hs, hr, if_neg (Nat.not_lt_of_le ht), pingAcquired]
  rfl

/-- The connection is given back although it panics when it is asked whether it is closed. -/
theorem step_query_panics (hs : c.stage = .acquiring call .panics)
    (hr : call.reply = .answers time none)
    (ht : time ≤ now) :
    c.step rule now b =
      some ⟨.crashed, call.traced [.acquireDone] ++ giveBack b.lends, b⟩ := by
  simp only [step, hs, hr, if_neg (Nat.not_lt_of_le ht), pingAcquired]

end Answers

theorem wakeAt_eq (c : Check) : c.wakeAt =
    match c.awaited.reply.due with
    | some time => min time c.deadline
    | none => c.deadline := by
  unfold wakeAt awaited
  cases c.stage <;> rfl

theorem wakeAt_le (c : Check) : c.wakeAt ≤ c.deadline := by
  rw [wakeAt_eq]
  split
  · exact Nat.min_le_right ..
  · exact Nat.le_refl _

theorem waits (h : c.step rule now b = none) : now < c.wakeAt := by
  obtain ⟨hd, ht⟩ := step_eq_none h
  rw [wakeAt_eq]
  split
  · rename_i time hr
    exact Nat.lt_min.mpr ⟨ht time hr, hd⟩
  · exact hd

end Check

end Liveness

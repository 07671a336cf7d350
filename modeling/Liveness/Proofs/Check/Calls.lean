import Liveness.Proofs.Check.Waiting
/-!
# Calls one at a time

The calls of a check, read by an automaton that knows what the target is engaged in. A call begins
only when no other one is under way, and it is that call which ends next. A check that is cut off
leaves the target at rest.
-/
namespace Liveness

inductive Engagement where
  | idle
  | pinging
  | acquiring
deriving DecidableEq

def Engagement.next : Engagement → Call → Option Engagement
  | .idle, .ping _ => some .pinging
  | .idle, .acquire => some .acquiring
  | .idle, .release | .idle, .close => some .idle
  | .pinging, .pingDone | .pinging, .pingDropped | .pinging, .pingPanicked => some .idle
  | .acquiring, .acquireDone | .acquiring, .acquireDropped | .acquiring, .acquirePanicked =>
    some .idle
  | _, _ => none

namespace Check

variable {rule : CheckRule} {now : Nat} {c : Check} {b : Backend} {call : PendingCall}
  {borrowed : Bool} {said : Openness}

/-- What the target is engaged in while it owes the check an answer. -/
def engagement (c : Check) : Engagement :=
  match c.stage with
  | .acquiring call _ => if call.visible then .acquiring else .idle
  | .pinging call _ => if call.visible then .pinging else .idle

def Next.engagement : Next → Engagement
  | .going c => c.engagement
  | _ => .idle

theorem start_calls (rule : CheckRule) (now : Nat) (b : Backend) :
    (start rule now b).2.1.foldlM Engagement.next .idle =
      some (start rule now b).1.engagement := by
  unfold start
  cases rule.mode with
  | ping =>
    simp only [engagement, PendingCall.traced]
    split <;> rfl
  | deep =>
    simp only [engagement, PendingCall.traced]
    split <;> rfl

def Settles (c : Check) (calls : List Call) : Prop :=
  calls.foldlM Engagement.next c.engagement = some .idle

/-- A connection is given back when nothing is under way. -/
theorem Settles.giveBack {calls : List Call} (h : c.Settles calls) (borrowed : Bool) :
    c.Settles (calls ++ giveBack borrowed) := by
  unfold Settles at h ⊢
  rw [List.foldlM_append, h]
  cases borrowed <;> rfl

theorem settles_acquiring {ending : Call} (hs : c.stage = .acquiring call said)
    (h : Engagement.acquiring.next ending = some .idle) : c.Settles (call.traced [ending]) := by
  simp only [Settles, engagement, hs, PendingCall.traced]
  cases call.visible with
  | false => rfl
  | true => simpa using h

theorem settles_pinging {ending : Call} (hs : c.stage = .pinging call borrowed)
    (h : Engagement.pinging.next ending = some .idle) :
    c.Settles (call.traced [ending] ++ Check.giveBack borrowed) := by
  have hcall : c.Settles (call.traced [ending]) := by
    simp only [Settles, engagement, hs, PendingCall.traced]
    cases call.visible with
    | false => rfl
    | true => simpa using h
  exact hcall.giveBack borrowed

theorem abandon_settles (c : Check) : c.Settles c.abandon := by
  cases hs : c.stage with
  | acquiring call said =>
    simp only [abandon, hs]
    exact settles_acquiring hs rfl
  | pinging call borrowed =>
    simp only [abandon, hs]
    exact settles_pinging hs rfl

end Check

end Liveness

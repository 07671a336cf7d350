import Liveness.Proofs.Monitor.Progress
import Mathlib.Control.Monad.Basic
/-!
# The check in flight

Checks are made by the loop itself and by its episodes, but a step does the same with them in both:
it begins a check, lets the one in flight make its step, or leaves checks alone. `Happens` says all
that comes of it, to the target too.
-/
namespace Liveness

inductive CheckTurn where
  | begun
  | ended (result : CheckResult)
  | crashed
  /-- It was still in flight when its loop was cancelled. -/
  | cut
deriving DecidableEq

def CheckTurn.result? : CheckTurn → Option CheckResult
  | .ended result => some result
  | _ => none

def Check.Next.turn? : Check.Next → Option CheckTurn
  | .going _ => none
  | .done result => some (.ended result)
  | .crashed => some .crashed

def Check.Next.check? : Check.Next → Option Check
  | .going c => some c
  | _ => none

theorem Check.Next.eq_crashed {n : Check.Next} (h : n.turn? = some .crashed) : n = .crashed := by
  cases n with
  | crashed => rfl
  | _ => cases h

theorem Check.Next.eq_done {n : Check.Next} {result : CheckResult}
    (h : n.turn? = some (.ended result)) : n = .done result := by
  cases n with
  | done result =>
    cases h
    rfl
  | _ => cases h

def Effect.call? : Effect → Option Call
  | .call c => some c
  | _ => none

theorem calls_of_calls (calls : List Call) :
    (calls.map Effect.call).filterMap Effect.call? = calls := by
  rw [List.filterMap_map]
  exact List.filterMap_some

/-- What happens to checks in a step: what can be told of it, the check in flight before and after,
the calls that are made and what they leave of the target. -/
inductive CheckTurn.Happens (rule : CheckRule) (now : Nat) (b : Backend) :
    Option CheckTurn → Option Check → Option Check → List Call → Backend → Prop where
  | nothing : Happens rule now b none none none [] b
  | begins : Happens rule now b (some .begun) none (some (Check.start rule now b).1)
      (Check.start rule now b).2.1 (Check.start rule now b).2.2
  | steps {c st} : c.step rule now b = some st →
      Happens rule now b st.next.turn? (some c) st.next.check? st.calls st.backend

namespace Episode

variable {rule : EpisodeRule} {now : Nat} {e : Episode} {w : World} {turn : Turn Next}

def check? : Episode → Option Check
  | .attempting _ check => some check
  | _ => none

def Next.check? : Next → Option Check
  | .going e => e.check?
  | _ => none

def checkTurn? (rule : EpisodeRule) (now : Nat) (w : World) : Episode → Option CheckTurn
  | .backingOff _ until_ => if now < until_ then none else some .begun
  | .attempting _ check => (check.step rule.check now w.backend).bind (·.next.turn?)
  | _ => none

/-- A result is recorded without a further call, and leaves no check in flight. -/
theorem conclude_idle (now attempts : Nat) (result : CheckResult) (calls : List Call)
    (w : World) :
    (conclude now attempts result (calls.map .call) w).world.backend = w.backend ∧
      (conclude now attempts result (calls.map .call) w).next.check? = none ∧
      (conclude now attempts result (calls.map .call) w).effects.filterMap Effect.call? =
        calls := by
  unfold conclude
  split
  · exact ⟨rfl, rfl, calls_of_calls calls⟩
  · cases result with
    | _ =>
      refine ⟨rfl, rfl, ?_⟩
      simp only [List.filterMap_append, calls_of_calls]
      exact List.append_nil calls

theorem step_happens (h : e.step rule now w = some turn) :
    CheckTurn.Happens rule.check now w.backend (e.checkTurn? rule now w) e.check?
      turn.next.check? (turn.effects.filterMap Effect.call?) turn.world.backend := by
  cases e with
  | opening =>
    cases h
    exact .nothing
  | deciding attempts =>
    simp only [step] at h
    split at h
    all_goals
      cases h
      exact .nothing
  | backingOff attempts until_ =>
    simp only [step] at h
    split at h
    · cases h
    · rename_i hu
      cases h
      simp only [checkTurn?, if_neg hu, calls_of_calls]
      exact .begins
  | attempting attempts check =>
    simp only [step_attempting, Option.map_eq_some_iff] at h
    obtain ⟨st, hs, rfl⟩ := h
    have hsteps := CheckTurn.Happens.steps hs
    simp only [checkTurn?, hs, Option.bind_some]
    cases hn : st.next with
    | done result =>
      obtain ⟨hbackend, hidle, hcalls⟩ := conclude_idle now attempts result st.calls
        { w with backend := st.backend }
      rw [hn] at hsteps
      rw [hbackend, hidle, hcalls]
      exact hsteps
    | _ =>
      rw [hn] at hsteps
      simp only [calls_of_calls]
      exact hsteps
  | recovered attempts =>
    cases h
    exact .nothing

theorem checkTurn_of_waits (h : e.step rule now w = none) : e.checkTurn? rule now w = none := by
  cases e with
  | backingOff attempts until_ =>
    simp only [step] at h
    split at h
    · rename_i hu
      simp [checkTurn?, hu]
    · cases h
  | attempting attempts check =>
    simp only [step, Option.map_eq_none_iff] at h
    simp [checkTurn?, h]
  | _ => rfl

end Episode

namespace ControlLoop

variable {s : Settings} {now : Nat} {l : ControlLoop} {w : World} {turn : Turn Next}

def check? : ControlLoop → Option Check
  | .checking _ check => some check
  | .reconnecting e => e.check?
  | _ => none

def Next.check? : Next → Option Check
  | .going l => l.check?
  | .left | .crashed _ => none

def checkTurn? (s : Settings) (now : Nat) (w : World) : ControlLoop → Option CheckTurn
  | .unstarted => none
  | .awaiting due => if now < due then none else some .begun
  | .checking _ check => (check.step s.checkRule now w.backend).bind (·.next.turn?)
  | .reconnecting e => e.checkTurn? s.episodeRule now w

/-- The same of a periodic check, also if an episode begins with its result. -/
theorem conclude_idle (s : Settings) (now nextTick : Nat) (result : CheckResult)
    (calls : List Call) (w : World) :
    (conclude s now nextTick result (calls.map .call) w).world.backend = w.backend ∧
      (conclude s now nextTick result (calls.map .call) w).next.check? = none ∧
      (conclude s now nextTick result (calls.map .call) w).effects.filterMap Effect.call? =
        calls := by
  unfold conclude
  split
  · exact ⟨rfl, rfl, calls_of_calls calls⟩
  · dsimp only
    split
    all_goals
      simp only [List.filterMap_append, calls_of_calls]
    · simp [Effect.call?, Next.check?, check?]
    · by_cases ha : s.autoReconnect = true
      · simp [Effect.call?, Next.check?, check?, Episode.check?, ha]
      · simp [Effect.call?, Next.check?, check?, ha]
    · simp [Effect.call?, Next.check?, check?]

theorem step_happens (h : l.step s now w = some turn) :
    CheckTurn.Happens s.checkRule now w.backend (l.checkTurn? s now w) l.check?
      turn.next.check? (turn.effects.filterMap Effect.call?) turn.world.backend := by
  cases l with
  | unstarted =>
    cases h
    exact .nothing
  | awaiting due =>
    simp only [step] at h
    split at h
    · cases h
    · rename_i hd
      cases h
      simp only [checkTurn?, if_neg hd, calls_of_calls]
      exact .begins
  | checking nextTick check =>
    simp only [step_checking, Option.map_eq_some_iff] at h
    obtain ⟨st, hs, rfl⟩ := h
    have hsteps := CheckTurn.Happens.steps hs
    simp only [checkTurn?, hs, Option.bind_some]
    cases hn : st.next with
    | done result =>
      obtain ⟨hbackend, hidle, hcalls⟩ := conclude_idle s now nextTick result st.calls
        { w with backend := st.backend }
      rw [hn] at hsteps
      rw [hbackend, hidle, hcalls]
      exact hsteps
    | _ =>
      rw [hn] at hsteps
      simp only [calls_of_calls]
      exact hsteps
  | reconnecting e =>
    simp only [step_reconnecting, Option.map_eq_some_iff] at h
    obtain ⟨⟨world, effects, next⟩, hs, rfl⟩ := h
    have hsteps := Episode.step_happens hs
    cases next with
    | going e' => exact hsteps
    | ended o => exact hsteps
    | crashed c => exact hsteps

theorem checkTurn_of_waits (h : l.step s now w = none) : l.checkTurn? s now w = none := by
  cases l with
  | unstarted => rfl
  | awaiting due =>
    simp only [step] at h
    split at h
    · rename_i hd
      simp [checkTurn?, hd]
    · cases h
  | checking nextTick check =>
    simp only [step, Option.map_eq_none_iff] at h
    simp [checkTurn?, h]
  | reconnecting e =>
    simp only [step, Option.map_eq_none_iff] at h
    exact Episode.checkTurn_of_waits h

end ControlLoop

namespace CheckTurn

variable {rule : CheckRule} {now : Nat} {b b' : Backend} {told : Option CheckTurn}
  {before after : Option Check} {calls : List Call}

/-- A turn takes the check in flight from one to the other. -/
def Leads : Option CheckTurn → Option Check → Option Check → Prop
  | none, before, after => after.isSome = before.isSome
  | some .begun, before, after => before = none ∧ after.isSome = true
  | some _, before, after => before.isSome = true ∧ after = none

/-- A turn that begins a check adds one in flight, and one that is the end of it takes it away. -/
theorem Leads.count {turn : Option CheckTurn} (h : Leads turn before after) :
    turn.toList.count .begun + before.toList.length =
      (turn.bind result?).toList.length + turn.toList.count .crashed + turn.toList.count .cut +
        after.toList.length := by
  cases turn with
  | none => cases before <;> cases after <;> simp_all [Leads]
  | some turn => cases turn <;> cases before <;> cases after <;> simp_all [Leads, result?]

theorem Happens.leads (h : Happens rule now b told before after calls b') :
    Leads told before after := by
  cases h with
  | nothing => rfl
  | begins => exact ⟨rfl, rfl⟩
  | @steps c st hs =>
    cases hn : st.next with
    | going c' => rfl
    | done result => exact ⟨rfl, rfl⟩
    | crashed => exact ⟨rfl, rfl⟩

/-- Against a target that never panics no check can crash. -/
theorem Happens.safe (h : Happens rule now b told before after calls b')
    (hc : ∀ c, before = some c → c.Safe) (hb : b.NeverPanics) :
    b'.NeverPanics ∧ ∀ c, after = some c → c.Safe := by
  cases h with
  | nothing => exact ⟨hb, hc⟩
  | begins =>
    obtain ⟨hsafe, hbackend⟩ := Check.start_safe rule now hb
    refine ⟨hbackend, ?_⟩
    rintro c ⟨⟩
    exact hsafe
  | @steps c st hs =>
    obtain ⟨-, hbackend, hsafe⟩ := Check.step_safe (hc c rfl) hb hs
    refine ⟨hbackend, ?_⟩
    intro c' hc'
    cases hn : st.next with
    | going c'' =>
      rw [hn] at hc'
      cases hc'
      exact hsafe c' hn
    | _ =>
      rw [hn] at hc'
      cases hc'

/-- A check that does not begin makes the turn itself. -/
theorem Happens.turn {turn : CheckTurn} (h : Happens rule now b told before after calls b')
    (ht : told = some turn) : turn = .begun ∨ ∃ c st, before = some c ∧
      c.step rule now b = some st ∧ st.next.turn? = some turn := by
  cases h with
  | nothing => cases ht
  | begins =>
    cases ht
    exact Or.inl rfl
  | @steps c st hs => exact Or.inr ⟨c, st, rfl, hs, ht⟩

end CheckTurn

theorem ControlLoop.checkTurn_eq_some {s : Settings} {now : Nat} {w : World} {l : ControlLoop}
    {turn : CheckTurn} (h : l.checkTurn? s now w = some turn) :
    turn = .begun ∨ ∃ c st, l.check? = some c ∧ c.step s.checkRule now w.backend = some st ∧
      st.next.turn? = some turn := by
  cases hs : l.step s now w with
  | none =>
    rw [checkTurn_of_waits hs] at h
    cases h
  | some t => exact (step_happens hs).turn h

end Liveness

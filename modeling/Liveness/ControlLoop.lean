import Liveness.Episode
/-!
# The control loop

Periodic checks, and an episode whenever a check has made the target unhealthy. A tick is due one
period after the one before it was due; after an episode, one period after its end.
-/
namespace Liveness

inductive ControlLoop where
  | unstarted
  | awaiting (due : Nat)
  | checking (nextTick : Nat) (check : Check)
  | reconnecting (e : Episode)
deriving DecidableEq

def Settings.checkRule (s : Settings) : CheckRule := ⟨s.checkMode, s.timeout⟩

/-- Milliseconds between two ticks: the interval, as far as a wait can last. -/
def Settings.period (s : Settings) : Nat := Clock.wait s.intervalMs.toNat

def Settings.episodeRule (s : Settings) : EpisodeRule := ⟨s.policy, s.checkRule⟩

namespace ControlLoop

inductive Next where
  | going (l : ControlLoop)
  /-- The loop has left by itself. -/
  | left
  | crashed (c : Crash)
deriving DecidableEq

/-- Milliseconds by which a tick may be late without moving the schedule. -/
def tickTolerance : Nat := 5

/-- The tick after one that was due at `due` and comes now: a schedule missed by more than the
tolerance starts anew. -/
def tickAfter (period due now : Nat) : Nat :=
  if due + tickTolerance < now then now + period else due + period

def conclude (s : Settings) (now nextTick : Nat) (result : CheckResult) (calls : List Effect)
    (w : World) : Turn Next :=
  match w.tracker.recordCheck result (instantAt now) with
  | .error c => ⟨w, calls, .crashed c⟩
  | .ok (tracker, transition) =>
    let w := { w with tracker }
    let driver := w.backend.driver
    let notice := match result with
      | .ok latency => Notice.checkSucceeded latency
      | .error failure => .checkFailed failure
    let seen := calls ++ [.log notice]
    match transition, result with
    | .becameHealthy, _ =>
      ⟨w, seen ++ [.log .targetHealthy, .emit (.healthy driver)], .going (.awaiting nextTick)⟩
    | .becameUnhealthy, .error failure =>
      ⟨w, seen ++ [.log (.targetUnhealthy failure), .emit (.unhealthy driver failure)],
        .going (if s.autoReconnect then .reconnecting .opening else .awaiting nextTick)⟩
    | _, _ => ⟨w, seen, .going (.awaiting nextTick)⟩

def leave (w : World) (effects : List Effect) : World × List Effect :=
  ({ w with tracker := w.tracker.interruptEpisode.1 }, effects ++ [.log .loopStopped])

def settle (s : Settings) (now nextTick : Nat) (result : CheckResult) (calls : List Effect)
    (w : World) : Turn Next :=
  match result with
  | .error .cancelled =>
    let (w, effects) := leave w calls
    ⟨w, effects, .left⟩
  | _ => conclude s now nextTick result calls w

def afterEpisode (s : Settings) (now : Nat) : Episode.Next → Next
  | .going e => .going (.reconnecting e)
  | .ended _ => .going (.awaiting (now + s.period))
  | .crashed c => .crashed c

def resume (s : Settings) (now : Nat) (turn : Turn Episode.Next) : Turn Next :=
  match turn.next with
  | .ended .cancelled =>
    let (w, effects) := leave turn.world turn.effects
    ⟨w, effects, .left⟩
  | _ => turn.map (afterEpisode s now)

def step (s : Settings) (now : Nat) (l : ControlLoop) (w : World) : Option (Turn Next) :=
  match l with
  | .unstarted => some ⟨w, [.log .loopStarting], .going (.awaiting now)⟩
  | .awaiting due =>
    if now < due then none
    else
      let (check, calls, backend) := Check.start s.checkRule now w.backend
      some ⟨{ w with backend }, calls.map .call,
        .going (.checking (tickAfter s.period due now) check)⟩
  | .checking nextTick check =>
    (check.step s.checkRule now w.backend).map fun st =>
      let w := { w with backend := st.backend }
      let calls := st.calls.map .call
      match st.next with
      | .going check => ⟨w, calls, .going (.checking nextTick check)⟩
      | .crashed => ⟨w, calls, .crashed .collaborator⟩
      | .done result => settle s now nextTick result calls w
  | .reconnecting e =>
    (e.step s.episodeRule now w).map (resume s now)

def wakeAt (now : Nat) : ControlLoop → Nat
  | .unstarted => now
  | .awaiting due => due
  | .checking _ check => check.wakeAt
  | .reconnecting e => e.wakeAt now

def cut (l : ControlLoop) (w : World) : World × List Effect :=
  let (w, effects) := match l with
    | .unstarted => (w, [Effect.log .loopStarting])
    | .awaiting _ => (w, [])
    | .checking _ check => (w, check.abandon.map .call)
    | .reconnecting e => e.cut w
  leave w effects

end ControlLoop

end Liveness

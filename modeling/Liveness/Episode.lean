import Liveness.Check
import Liveness.World
/-!
# Reconnect episodes

A bounded sequence of attempts, each after a backoff delay. `step` is the next thing an episode
does; each step emits one event at most, as its last effect, when the tracker already shows it.
-/
namespace Liveness

inductive EpisodeOutcome where
  | recovered (attempts : Nat)
  | abandoned (attempts : Nat)
  | cancelled
deriving DecidableEq

structure EpisodeRule where
  policy : Policy
  check : CheckRule

/-- Where an episode stands. `attempts` counts those that have failed. -/
inductive Episode where
  | opening
  | deciding (attempts : Nat)
  | backingOff (attempts until_ : Nat)
  | attempting (attempts : Nat) (check : Check)
  /-- The recovery has been announced, the health of the target not yet. -/
  | recovered (attempts : Nat)
deriving DecidableEq

namespace Episode

inductive Next where
  | going (e : Episode)
  | ended (o : EpisodeOutcome)
  | crashed (c : Crash)
deriving DecidableEq

def mayTry (p : Policy) (attempts : Nat) (elapsed : Duration) : Bool :=
  attempts < p.maxAttempts.toNat && p.maxElapsed.all (elapsed < ·)

def conclude (now attempts : Nat) (result : CheckResult) (calls : List Effect) (w : World) :
    Turn Next :=
  match w.tracker.recordAttempt result (instantAt now) with
  | .error c => ⟨w, calls, .crashed c⟩
  | .ok (tracker, _) =>
    let w := { w with tracker }
    let driver := w.backend.driver
    match result with
    | .ok latency =>
      ⟨w, calls ++ [.log (.reconnected (attempts + 1) latency),
          .emit (.reconnectSuccess driver (attempts + 1))],
        .going (.recovered (attempts + 1))⟩
    | .error failure =>
      ⟨w, calls ++ [.log (.attemptFailed (attempts + 1) failure),
          .emit (.reconnectFailed (attempts + 1) failure)],
        .going (.deciding (attempts + 1))⟩

def interrupt (w : World) : World × List Effect :=
  let (tracker, interrupted) := w.tracker.interruptEpisode
  ({ w with tracker }, if interrupted then [.log .episodeInterrupted] else [])

def settle (now attempts : Nat) (result : CheckResult) (calls : List Effect) (w : World) :
    Turn Next :=
  match result with
  | .error .cancelled =>
    let (w, effects) := interrupt w
    ⟨w, calls ++ effects, .ended .cancelled⟩
  | _ => conclude now attempts result calls w

def step (rule : EpisodeRule) (now : Nat) (e : Episode) (w : World) : Option (Turn Next) :=
  let driver := w.backend.driver
  match e with
  | .opening =>
    some ⟨{ w with tracker := w.tracker.beginEpisode (instantAt now) },
      [.log (.episodeStarting rule.policy.maxAttempts.toNat), .emit (.reconnectStarted driver)],
      .going (.deciding 0)⟩
  | .deciding attempts =>
    if mayTry rule.policy attempts (w.tracker.episodeElapsed (instantAt now)) then
      let (delay, entropy) := rule.policy.delay attempts w.entropy
      some ⟨{ w with entropy }, [.log (.attemptWaiting (attempts + 1) delay)],
        .going (.backingOff attempts (now + Clock.wait delay.millisUp))⟩
    else
      some ⟨{ w with tracker := w.tracker.abandonEpisode },
        [.log (.episodeAbandoned attempts), .emit (.reconnectAbandoned driver attempts)],
        .ended (.abandoned attempts)⟩
  | .backingOff attempts until_ =>
    if now < until_ then none
    else
      let (check, calls, backend) := Check.start rule.check now w.backend
      some ⟨{ w with backend }, calls.map .call, .going (.attempting attempts check)⟩
  | .attempting attempts check =>
    (check.step rule.check now w.backend).map fun s =>
      let w := { w with backend := s.backend }
      let calls := s.calls.map .call
      match s.next with
      | .going check => ⟨w, calls, .going (.attempting attempts check)⟩
      | .crashed => ⟨w, calls, .crashed .collaborator⟩
      | .done result => settle now attempts result calls w
  | .recovered attempts => some ⟨w, [.emit (.healthy driver)], .ended (.recovered attempts)⟩

def wakeAt (now : Nat) : Episode → Nat
  | .backingOff _ until_ => until_
  | .attempting _ check => check.wakeAt
  | _ => now

def isCancellable : Episode → Bool
  | .backingOff .. | .attempting .. => true
  | _ => false

def cut (e : Episode) (w : World) : World × List Effect :=
  let calls := match e with
    | .attempting _ check => check.abandon.map Effect.call
    | _ => []
  let (w, effects) := interrupt w
  (w, calls ++ effects)

structure Run where
  finishedAt : Nat
  world : World
  hub : Hub
  journal : Journal
  outcome : Except Crash EpisodeOutcome

/-- Lets an episode run on its own until it ends or is cancelled. One that is cancelled beforehand
(`cancelled`) stops where it would first wait, and one that is cancelled later where it waits then.
The first argument bounds the steps and waits. -/
def runFrom (rule : EpisodeRule) (cancelled : Bool) (cancel : Option Cancellation) :
    Nat → Nat → Episode → World → Hub → Journal → Run
  | 0, now, _, w, hub, journal => ⟨now, w, hub, journal, .ok .cancelled⟩
  | fuel + 1, now, e, w, hub, journal =>
    let finish (time : Nat) : Run :=
      let (w, effects) := e.cut w
      let (w, hub, out) := perform time effects w hub
      ⟨time, w, hub, journal ++ out.map (time, ·), .ok .cancelled⟩
    if cancelled && e.isCancellable then finish now
    else match e.step rule now w with
      | some turn =>
        let (w, hub, out) := perform now turn.effects turn.world hub
        let journal := journal ++ out.map (now, ·)
        match turn.next with
        | .going e => runFrom rule cancelled cancel fuel now e w hub journal
        | .ended outcome => ⟨now, w, hub, journal, .ok outcome⟩
        | .crashed c => ⟨now, w, hub, journal, .error c⟩
      | none =>
        match cancel.filter (·.before (e.wakeAt now)) with
        | some cut => finish cut.time
        | none => runFrom rule cancelled cancel fuel (e.wakeAt now) e w hub journal

/-- An attempt takes at most four steps, each of which may be waited for. -/
def runFuel (rule : EpisodeRule) : Nat := 8 * (rule.policy.maxAttempts.toNat + 2)

def run (rule : EpisodeRule) (cancel : Option Cancellation) (now : Nat) (w : World) (hub : Hub) :
    Run :=
  runFrom rule (cancel.any (·.before now)) cancel (runFuel rule) now .opening w hub []

end Episode

end Liveness

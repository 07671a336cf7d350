import Liveness.Backend
import Liveness.Backoff
import Liveness.Clock
import Liveness.Health.Tracker
import Liveness.Notice
/-!
# The world of a control loop

What the steps of a control loop read and change, the effects they have, and how effects reach the
subscribers. Subscribers see the tracker as the step has left it, and of it they can change the
tally alone, by resetting it.
-/
namespace Liveness

structure World where
  tracker : Tracker
  backend : Backend
  entropy : Entropy

inductive Effect where
  | call (c : Call)
  | log (n : Notice)
  | emit (e : Event)
deriving DecidableEq

structure Turn (α : Type) where
  world : World
  effects : List Effect
  next : α

def Turn.map {α β : Type} (f : α → β) (t : Turn α) : Turn β := ⟨t.world, t.effects, f t.next⟩

inductive Output where
  | call (c : Call)
  | log (n : Notice)
  /-- An event of the loop, with the tracker at that moment. -/
  | emitted (e : Event) (tracker : Tracker)
  /-- Part of the dispatch of that event. -/
  | dispatched (o : Occurrence Tracker)

abbrev Journal := List (Nat × Output)

/-- An event whose handlers go on emitting deeper than the hub has levels reaches nobody. -/
def dispatch (now : Nat) (e : Event) (hub : Hub) (tracker : Tracker) :
    Hub × Tracker × List Output :=
  match hub.emit (fun t => t.resetTally (instantAt now)) hub.levels e tracker with
  | some d => (d.hub, d.context, d.log.map .dispatched)
  | none => (hub, tracker, [])

def perform (now : Nat) : List Effect → World → Hub → World × Hub × List Output
  | [], w, hub => (w, hub, [])
  | .call c :: rest, w, hub =>
    let (w, hub, out) := perform now rest w hub
    (w, hub, .call c :: out)
  | .log n :: rest, w, hub =>
    let (w, hub, out) := perform now rest w hub
    (w, hub, .log n :: out)
  | .emit e :: rest, w, hub =>
    let (hub', tracker, delivered) := dispatch now e hub w.tracker
    let (w', hub', out) := perform now rest { w with tracker } hub'
    (w', hub', .emitted e w.tracker :: delivered ++ out)

end Liveness

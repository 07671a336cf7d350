import Liveness.ControlLoop
/-!
# Monitors

A monitor owns the settings, the world, the subscribers and at most one control loop, and lives in
virtual time: whole milliseconds that jump to the next thing that is due. The loop runs only while
time is given to it.
-/
namespace Liveness

inductive Runner where
  | idle
  | live (l : ControlLoop)
  /-- Ended by a panic or else by itself, which nobody has been told yet. -/
  | ended (panicked : Bool)
  /-- Its monitor is gone; it ends as soon as it runs. -/
  | severed (l : ControlLoop)
deriving DecidableEq

structure Monitor where
  settings : Settings
  world : World
  hub : Hub
  now : Nat
  runner : Runner

inductive ControlError where
  | alreadyRunning
  | notRunning
deriving DecidableEq

def ControlError.message : ControlError → String
  | .alreadyRunning => "Health monitoring is already running"
  | .notRunning => "Health monitoring is not running"

namespace Monitor

/-- A monitor of settings that pass their check, with room for this many levels of emissions. -/
def new (s : Settings) (b : Backend) (e : Entropy) (levels : Nat) :
    Except Settings.Fault Monitor := do
  s.check
  return { settings := s
           world := ⟨.new s.failureThreshold s.successThreshold, b, e⟩
           hub := .empty levels
           now := 0
           runner := .idle }

def tracker (m : Monitor) : Tracker := m.world.tracker

def driver (m : Monitor) : String := m.world.backend.driver

def isRunning (m : Monitor) : Bool :=
  match m.runner with
  | .live _ => true
  | _ => false

def isReconnecting (m : Monitor) : Bool := m.tracker.status.reconnecting

def latencyClass (m : Monitor) : Option LatencyClass :=
  m.tracker.status.lastLatency.map (LatencyClass.classify · m.settings.bands)

def occupancy (m : Monitor) : Option Occupancy := m.world.backend.occupancy

def enact (m : Monitor) (w : World) (effects : List Effect) (runner : Runner) :
    Monitor × Journal :=
  let (world, hub, out) := perform m.now effects w m.hub
  ({ m with world, hub, runner }, out.map (m.now, ·))

def turn (m : Monitor) : Option (Monitor × Journal) :=
  match m.runner with
  | .live l =>
    (l.step m.settings m.now m.world).map fun t =>
      m.enact t.world t.effects (match t.next with
        | .going l => .live l
        | .left => .ended false
        | .crashed _ => .ended true)
  | .severed l =>
    let (w, effects) := l.cut m.world
    some (m.enact w effects .idle)
  | .idle | .ended _ => none

/-- Steps until the loop waits; the first argument bounds their number. -/
def turns : Nat → Monitor → Monitor × Journal
  | 0, m => (m, [])
  | fuel + 1, m =>
    match m.turn with
    | none => (m, [])
    | some (m, journal) =>
      let (m, rest) := turns fuel m
      (m, journal ++ rest)

/-- Steps that a loop can make without time passing: four for each attempt, and a few around. -/
def turnFuel (m : Monitor) : Nat := 4 * m.settings.policy.maxAttempts.toNat + 16

def poll (m : Monitor) : Monitor × Journal := turns m.turnFuel m

def wakeAt (m : Monitor) : Option Nat :=
  match m.runner with
  | .live l => some (l.wakeAt m.now)
  | _ => none

def advanceTo (target : Nat) (m : Monitor) : Monitor × Journal :=
  let (polled, journal) := m.poll
  match polled.wakeAt with
  | none => ({ polled with now := target }, journal)
  | some wake =>
    if m.now < wake ∧ wake < target then
      let (m', rest) := advanceTo target { polled with now := wake }
      (m', journal ++ rest)
    else ({ polled with now := target }, journal)
termination_by target - m.now
decreasing_by omega

def advance (ms : Nat) (m : Monitor) : Monitor × Journal := m.advanceTo (m.now + ms)

/-- Starts the loop; it does nothing before time is given to it. -/
def start (m : Monitor) : Except ControlError Unit × Monitor × Journal :=
  match m.runner with
  | .live _ | .severed _ => (.error .alreadyRunning, m, [])
  | .idle | .ended _ =>
    let (m, journal) :=
      m.enact m.world [.log (.monitoringStarted m.settings.interval)] (.live .unstarted)
    (.ok (), m, journal)

def farewell (panicked : Bool) : List Effect :=
  (if panicked then [.log .loopPanicked] else []) ++ [.log .monitoringStopped]

def stop (m : Monitor) : Except ControlError Unit × Monitor × Journal :=
  match m.runner with
  | .idle | .severed _ => (.error .notRunning, m, [])
  | .live l =>
    let (w, effects) := l.cut m.world
    let (m, journal) := m.enact w (effects ++ [.log .monitoringStopped]) .idle
    (.ok (), m, journal)
  | .ended panicked =>
    let (m, journal) := m.enact m.world (farewell panicked) .idle
    (.ok (), m, journal)

/-- Gives the monitor up: its loop is cancelled, and ends when it next runs. -/
def drop (m : Monitor) : Monitor :=
  { m with runner := match m.runner with
      | .live l => .severed l
      | .severed l => .severed l
      | .idle | .ended _ => .idle }

def resetTally (m : Monitor) : Monitor :=
  { m with world.tracker := m.tracker.resetTally (instantAt m.now) }

def register (m : Monitor) (h : Handler) : Monitor × HandlerId :=
  let (hub, id) := m.hub.register h
  ({ m with hub }, id)

def unregister (m : Monitor) (id : HandlerId) : Monitor × Bool :=
  let (hub, found) := m.hub.unregister id
  ({ m with hub }, found)

def changeBackend (m : Monitor) (f : Backend → Backend) : Monitor :=
  { m with world.backend := f m.world.backend }

end Monitor

end Liveness

import Liveness.Health.Basic
/-!
# The health tracker

Turns a history of check results into committed health. A first result decides at once; after that
a change takes as many consecutive results as the threshold for it says. A successful reconnect
attempt makes the target healthy whatever the threshold. Time passes only by the instants that the
operations are given.
-/
namespace Liveness

structure Tracker where
  failureThreshold : UInt32
  successThreshold : UInt32
  status : Status
  tally : Tally
  /-- Up to here time has been credited. -/
  accountedAt : Option Instant
  episodeStart : Option Instant
  /-- Readings of the wall clock taken so far. -/
  readings : Stamp
deriving DecidableEq

namespace Tracker

/-- A threshold of zero counts as one. -/
def new (failureThreshold successThreshold : UInt32) : Tracker :=
  { failureThreshold := max failureThreshold 1
    successThreshold := max successThreshold 1
    status := .initial
    tally := .empty
    accountedAt := none
    episodeStart := none
    readings := 0 }

instance : Inhabited Tracker := ⟨new 1 1⟩

def creditTo (health : Health) (span : Duration) (t : Tally) : Except Crash Tally :=
  match health with
  | .unknown => .ok t
  | .healthy =>
    match t.uptime.add? span with
    | some uptime => .ok { t with uptime }
    | none => .error .durationOverflow
  | .unhealthy =>
    match t.downtime.add? span with
    | some downtime => .ok { t with downtime }
    | none => .error .durationOverflow

def credit (t : Tracker) (now : Instant) : Except Crash Tracker :=
  match t.accountedAt with
  | none => .ok { t with accountedAt := some now }
  | some since =>
    (creditTo t.status.health (now.since since) t.tally).map fun tally =>
      { t with tally, accountedAt := some now }

def observe (t : Tracker) (result : CheckResult) (now : Instant) : Except Crash Tracker := do
  let t ← t.credit now
  let t := { t with
    tally.probes := t.tally.probes + 1
    status.lastCheckedAt := some t.readings
    readings := t.readings + 1 }
  match result with
  | .ok latency =>
    match t.tally.latencyTotal.add? latency with
    | none => .error .durationOverflow
    | some latencyTotal =>
      .ok { t with
        tally.successes := t.tally.successes + 1
        tally.latencyTotal := latencyTotal
        status.consecutiveSuccesses := min (t.status.consecutiveSuccesses + 1) streakLimit
        status.consecutiveFailures := 0
        status.lastLatency := some latency }
  | .error failure =>
    .ok { t with
      tally.failures := t.tally.failures + 1
      status.consecutiveFailures := min (t.status.consecutiveFailures + 1) streakLimit
      status.consecutiveSuccesses := 0
      status.lastError := some failure.message }

def becomeHealthy (t : Tracker) : Tracker :=
  { t with
    status.health := .healthy
    status.reconnecting := false
    status.attempt := 0
    status.lastChangedAt := some t.readings
    episodeStart := none
    readings := t.readings + 1 }

def becomeUnhealthy (t : Tracker) : Tracker :=
  { t with
    status.health := .unhealthy
    status.lastChangedAt := some t.readings
    readings := t.readings + 1 }

def commitsHealthy (t : Tracker) : Bool :=
  match t.status.health with
  | .unknown => true
  | .healthy => false
  | .unhealthy => t.successThreshold.toNat ≤ t.status.consecutiveSuccesses

def commitsUnhealthy (t : Tracker) : Bool :=
  match t.status.health with
  | .unknown => true
  | .unhealthy => false
  | .healthy => t.failureThreshold.toNat ≤ t.status.consecutiveFailures

def recordCheck (t : Tracker) (result : CheckResult) (now : Instant) :
    Except Crash (Tracker × Transition) := do
  let t ← t.observe result now
  match result with
  | .ok _ =>
    if t.commitsHealthy then return (t.becomeHealthy, .becameHealthy) else return (t, .unchanged)
  | .error _ =>
    if t.commitsUnhealthy then return (t.becomeUnhealthy, .becameUnhealthy)
    else return (t, .unchanged)

def beginEpisode (t : Tracker) (now : Instant) : Tracker :=
  { t with
    status.reconnecting := true
    status.attempt := 0
    status.episodeStartedAt := some t.readings
    episodeStart := some now
    tally.episodes := t.tally.episodes + 1
    readings := t.readings + 1 }

def episodeElapsed (t : Tracker) (now : Instant) : Duration :=
  match t.episodeStart with
  | some start => now.since start
  | none => .zero

def recordAttempt (t : Tracker) (result : CheckResult) (now : Instant) :
    Except Crash (Tracker × Transition) := do
  let t ← t.observe result now
  let t := { t with status.attempt := t.status.attempt + 1 }
  match result with
  | .ok _ =>
    return ({ t with tally.recoveries := t.tally.recoveries + 1 }.becomeHealthy, .becameHealthy)
  | .error _ => return (t, .unchanged)

def abandonEpisode (t : Tracker) : Tracker :=
  { t with
    status.reconnecting := false
    episodeStart := none
    tally.abandoned := t.tally.abandoned + 1 }

def interruptEpisode (t : Tracker) : Tracker × Bool :=
  ({ t with status.reconnecting := false, episodeStart := none }, t.status.reconnecting)

/-- Forgets all totals; time is credited from `now` on, if it has been before. -/
def resetTally (t : Tracker) (now : Instant) : Tracker :=
  { t with tally := .empty, accountedAt := t.accountedAt.map fun _ => now }

end Tracker

inductive StampField where
  | episodeStartedAt
  | lastCheckedAt
  | lastChangedAt
deriving DecidableEq

namespace StampField

def all : List StampField := [episodeStartedAt, lastCheckedAt, lastChangedAt]

def name : StampField → String
  | .episodeStartedAt => "episode_started_at"
  | .lastCheckedAt => "last_checked_at"
  | .lastChangedAt => "last_state_change_at"

def get (s : Status) : StampField → Option Stamp
  | .episodeStartedAt => s.episodeStartedAt
  | .lastCheckedAt => s.lastCheckedAt
  | .lastChangedAt => s.lastChangedAt

end StampField

def Tracker.stampedSince (t before : Tracker) : List StampField :=
  StampField.all.filter fun f => (f.get t.status).any (before.readings ≤ ·)

end Liveness

import Liveness.Failure
import Liveness.Fields
/-!
# Health, status and tally

What is known about the target at one moment, and what has been counted on the way there.
-/
namespace Liveness

inductive Health where
  /-- No check has completed yet. -/
  | unknown
  | healthy
  | unhealthy
deriving DecidableEq

namespace Health

instance : Inhabited Health := ⟨unknown⟩

def isHealthy (h : Health) : Bool := h = healthy

def name : Health → String
  | .unknown => "unknown"
  | .healthy => "healthy"
  | .unhealthy => "unhealthy"

def choice : Choice Health := ⟨[unknown, healthy, unhealthy].map fun h => (h.name, h)⟩

end Health

inductive Transition where
  | unchanged
  | becameHealthy
  | becameUnhealthy
deriving DecidableEq

def Transition.name : Transition → String
  | .unchanged => "unchanged"
  | .becameHealthy => "became_healthy"
  | .becameUnhealthy => "became_unhealthy"

/-- A reading of the wall clock: they are numbered in the order in which they were taken. -/
abbrev Stamp := Nat

/-- The largest value of a counter of consecutive results; it stays there. -/
def streakLimit : Nat := Nat.pow 2 32 - 1

structure Status where
  health : Health
  consecutiveFailures : Nat
  consecutiveSuccesses : Nat
  reconnecting : Bool
  /-- Attempts made in the current or last episode. -/
  attempt : Nat
  episodeStartedAt : Option Stamp
  lastCheckedAt : Option Stamp
  lastChangedAt : Option Stamp
  lastError : Option String
  lastLatency : Option Duration
deriving DecidableEq

def Status.initial : Status :=
  { health := .unknown
    consecutiveFailures := 0
    consecutiveSuccesses := 0
    reconnecting := false
    attempt := 0
    episodeStartedAt := none
    lastCheckedAt := none
    lastChangedAt := none
    lastError := none
    lastLatency := none }

instance : Inhabited Status := ⟨.initial⟩

/-- Running totals. Time is credited to the health that was committed while it passed. -/
structure Tally where
  probes : Nat
  successes : Nat
  failures : Nat
  uptime : Duration
  downtime : Duration
  episodes : Nat
  recoveries : Nat
  abandoned : Nat
  latencyTotal : Duration
deriving DecidableEq

namespace Tally

def empty : Tally := ⟨0, 0, 0, .zero, .zero, 0, 0, 0, .zero⟩

instance : Inhabited Tally := ⟨empty⟩

/-- One less the fraction of failures, zero before the first result. -/
def successRate (t : Tally) : Binary64 :=
  if t.probes = 0 then .zero
  else Binary64.one.sub ((Binary64.ofNat t.failures).div (.ofNat t.probes))

/-- The mean latency of the successes in whole nanoseconds, of which the low 64 bits are kept. -/
def averageLatency (t : Tally) : Option Duration :=
  if t.successes = 0 then none
  else some (.clampNanos (t.latencyTotal.nanos / t.successes % Nat.pow 2 64))

end Tally

end Liveness

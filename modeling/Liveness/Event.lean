import Liveness.Failure
import Liveness.Fields
/-!
# Events

What a monitor tells its subscribers.
-/
namespace Liveness

inductive EventKind where
  | healthy
  | unhealthy
  | reconnectStarted
  | reconnectSuccess
  | reconnectFailed
  | reconnectAbandoned
deriving DecidableEq

namespace EventKind

def all : List EventKind :=
  [healthy, unhealthy, reconnectStarted, reconnectSuccess, reconnectFailed, reconnectAbandoned]

/-- The name in documents. -/
def name : EventKind → String
  | .healthy => "healthy"
  | .unhealthy => "unhealthy"
  | .reconnectStarted => "reconnect_started"
  | .reconnectSuccess => "reconnect_success"
  | .reconnectFailed => "reconnect_failed"
  | .reconnectAbandoned => "reconnect_abandoned"

/-- The name in logs. -/
def label : EventKind → String
  | .healthy => "Healthy"
  | .unhealthy => "Unhealthy"
  | .reconnectStarted => "ReconnectStarted"
  | .reconnectSuccess => "ReconnectSuccess"
  | .reconnectFailed => "ReconnectFailed"
  | .reconnectAbandoned => "ReconnectAbandoned"

def isReconnect : EventKind → Bool
  | .healthy | .unhealthy => false
  | _ => true

def choice : Choice EventKind := ⟨all.map fun k => (k.name, k)⟩

end EventKind

structure Event where
  kind : EventKind
  message : String
  /-- The number of the attempt, from one. -/
  attempt : Option Nat
  cause : Option Failure
deriving DecidableEq

namespace Event

def healthy (driver : String) : Event := ⟨.healthy, driver ++ " is healthy", none, none⟩

def unhealthy (driver : String) (cause : Failure) : Event :=
  ⟨.unhealthy, driver ++ " is unhealthy", none, some cause⟩

def reconnectStarted (driver : String) : Event :=
  ⟨.reconnectStarted, "Reconnecting to " ++ driver, none, none⟩

def reconnectSuccess (driver : String) (attempt : Nat) : Event :=
  ⟨.reconnectSuccess, s!"Reconnected to {driver} on attempt {attempt}", some attempt, none⟩

def reconnectFailed (attempt : Nat) (cause : Failure) : Event :=
  ⟨.reconnectFailed, s!"Reconnect attempt {attempt} failed: {cause.message}", some attempt,
    some cause⟩

def reconnectAbandoned (driver : String) (attempts : Nat) : Event :=
  ⟨.reconnectAbandoned, s!"Gave up reconnecting to {driver} after {attempts} attempts", none,
    none⟩

end Event

end Liveness

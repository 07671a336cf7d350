import Liveness.Hub
/-!
# Log notices

What a monitor writes to its log: the notices by cause, and the level, text and fields of each.
-/
namespace Liveness

inductive LogLevel where
  | debug
  | info
  | warn
  | error
deriving DecidableEq

def LogLevel.name : LogLevel → String
  | .debug => "DEBUG"
  | .info => "INFO"
  | .warn => "WARN"
  | .error => "ERROR"

inductive Notice where
  | monitoringStarted (interval : Duration)
  | monitoringStopped
  | loopStarting
  | loopStopped
  | loopPanicked
  | checkSucceeded (latency : Duration)
  | checkFailed (failure : Failure)
  | targetHealthy
  | targetUnhealthy (failure : Failure)
  | episodeStarting (maxAttempts : Nat)
  | attemptWaiting (attempt : Nat) (delay : Duration)
  | reconnected (attempt : Nat) (latency : Duration)
  | attemptFailed (attempt : Nat) (failure : Failure)
  | episodeAbandoned (attempts : Nat)
  | episodeInterrupted
  | handlerPanicked (id : HandlerId) (kind : EventKind) (value : PanicValue)
deriving DecidableEq

namespace Notice

def level : Notice → LogLevel
  | .monitoringStarted _ | .monitoringStopped | .targetHealthy | .targetUnhealthy _
  | .episodeStarting _ | .reconnected .. => .info
  | .loopStarting | .loopStopped | .checkSucceeded _ | .checkFailed _ | .attemptWaiting ..
  | .episodeInterrupted => .debug
  | .attemptFailed .. | .episodeAbandoned _ | .handlerPanicked .. => .warn
  | .loopPanicked => .error

def message : Notice → String
  | .monitoringStarted _ => "health monitoring started"
  | .monitoringStopped => "health monitoring stopped"
  | .loopStarting => "health loop starting"
  | .loopStopped => "health loop stopped"
  | .loopPanicked => "health loop panicked"
  | .checkSucceeded _ => "check succeeded"
  | .checkFailed _ => "check failed"
  | .targetHealthy => "target is healthy"
  | .targetUnhealthy _ => "target is unhealthy"
  | .episodeStarting _ => "starting reconnect episode"
  | .attemptWaiting .. => "waiting before reconnect attempt"
  | .reconnected .. => "reconnected"
  | .attemptFailed .. => "reconnect attempt failed"
  | .episodeAbandoned _ => "reconnect episode abandoned"
  | .episodeInterrupted => "reconnect episode interrupted"
  | .handlerPanicked .. => "probe event handler panicked"

def fields (driver : String) : Notice → List (String × Json)
  | .monitoringStarted interval =>
    [("driver", .str driver), ("interval_ms", .nat interval.wholeMillis)]
  | .checkSucceeded latency =>
    [("driver", .str driver), ("latency_ms", .nat latency.wholeMillis)]
  | .checkFailed failure | .targetUnhealthy failure =>
    [("driver", .str driver), ("error", .str failure.message)]
  | .episodeStarting maxAttempts =>
    [("driver", .str driver), ("max_attempts", .nat maxAttempts)]
  | .attemptWaiting attempt delay =>
    [("driver", .str driver), ("attempt", .nat attempt), ("delay_ms", .nat delay.wholeMillis)]
  | .reconnected attempt latency =>
    [("driver", .str driver), ("attempt", .nat attempt), ("latency_ms", .nat latency.wholeMillis)]
  | .attemptFailed attempt failure =>
    [("driver", .str driver), ("attempt", .nat attempt), ("error", .str failure.message)]
  | .episodeAbandoned attempts => [("driver", .str driver), ("attempts", .nat attempts)]
  | .handlerPanicked id kind value =>
    [ ("handler", .str s!"HandlerId({id})"), ("event", .str kind.label),
      ("panic", .str value.message) ]
  | _ => [("driver", .str driver)]

def toJson (driver : String) (n : Notice) : Json :=
  .record
    [ ("fields", .record (n.fields driver)),
      ("level", .str n.level.name),
      ("message", .str n.message) ]

end Notice

end Liveness

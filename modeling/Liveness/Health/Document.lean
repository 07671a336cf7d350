import Liveness.Health.Tracker
/-!
# Health as JSON

The documents of status and tally. What stands for a reading of the wall clock is the caller's
choice.
-/
namespace Liveness

def Duration.toJson (d : Duration) : Json :=
  .record [("secs", .nat d.secs), ("nanos", .nat d.subsecNanos)]

def Health.toJson (h : Health) : Json := .str h.name

def Json.optional {α : Type} (toJson : α → Json) : Option α → Json
  | some a => toJson a
  | none => .null

def Status.toJson (stamp : Option Stamp → Json) (s : Status) : Json :=
  .record
    [ ("current_health", s.health.toJson),
      ("consecutive_failures", .nat s.consecutiveFailures),
      ("consecutive_successes", .nat s.consecutiveSuccesses),
      ("is_reconnecting", .bool s.reconnecting),
      ("reconnect_attempt", .nat s.attempt),
      ("episode_started_at", stamp s.episodeStartedAt),
      ("last_checked_at", stamp s.lastCheckedAt),
      ("last_state_change_at", stamp s.lastChangedAt),
      ("last_error", .optional .str s.lastError),
      ("last_latency", .optional Duration.toJson s.lastLatency) ]

/-- The sum of the latencies is left out. -/
def Tally.toJson (t : Tally) : Json :=
  .record
    [ ("total_probes", .nat t.probes),
      ("total_successes", .nat t.successes),
      ("total_failures", .nat t.failures),
      ("uptime", t.uptime.toJson),
      ("downtime", t.downtime.toJson),
      ("reconnect_episodes", .nat t.episodes),
      ("reconnect_successes", .nat t.recoveries),
      ("reconnect_abandoned", .nat t.abandoned) ]

end Liveness

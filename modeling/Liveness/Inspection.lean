import Liveness.Monitor
import Liveness.Text.Visible
/-!
# Inspection

The text that shows a monitor, its settings and whether it runs on one line.
-/
namespace Liveness

def recordText (name : String) (members : List (String × String)) : String :=
  let shown := members.map fun (key, value) => key ++ ": " ++ value
  name ++ " \x7b " ++ ", ".intercalate shown ++ " \x7d"

def CheckMode.inspect : CheckMode → String
  | .ping => "Ping"
  | .deep => "Deep"

def Policy.inspect (p : Policy) : String :=
  recordText "ReconnectPolicy"
    [ ("max_attempts", toString p.maxAttempts.toNat),
      ("initial_backoff_ms", toString p.initialBackoffMs.toNat),
      ("max_backoff_ms", toString p.maxBackoffMs.toNat),
      ("backoff_multiplier", FloatLayout.inspection.text p.multiplier),
      ("jitter", toString p.jitter),
      ("max_elapsed_ms", toString p.maxElapsedMs.toNat) ]

def LatencyBands.inspect (b : LatencyBands) : String :=
  recordText "LatencyThresholds"
    [ ("fast_ms", toString b.fastMs.toNat), ("elevated_ms", toString b.elevatedMs.toNat) ]

def Settings.inspect (s : Settings) : String :=
  recordText "ProbeConfig"
    [ ("interval_ms", toString s.intervalMs.toNat),
      ("timeout_ms", toString s.timeoutMs.toNat),
      ("failure_threshold", toString s.failureThreshold.toNat),
      ("success_threshold", toString s.successThreshold.toNat),
      ("enable_auto_reconnect", toString s.autoReconnect),
      ("check_mode", s.checkMode.inspect),
      ("reconnect_policy", s.policy.inspect),
      ("latency_thresholds", s.bands.inspect) ]

def Monitor.inspect (m : Monitor) : String :=
  recordText "HealthProbe"
    [ ("driver", Text.quoted m.driver),
      ("config", m.settings.inspect),
      ("running", toString m.isRunning) ]

end Liveness

import Liveness.Latency
import Liveness.Settings.Policy
import Liveness.Toml.Document
/-!
# Settings of a monitor

Plain data with standard values, readable from JSON and TOML. Nothing is checked on the way in;
`check` names the first fault. The policy counts only if reconnecting is enabled.
-/
namespace Liveness

inductive CheckMode where
  /-- The pool as a whole is pinged. -/
  | ping
  /-- A connection is borrowed and pinged. -/
  | deep
deriving DecidableEq

namespace CheckMode

def name : CheckMode → String
  | .ping => "ping"
  | .deep => "deep"

def choice : Choice CheckMode := ⟨[ping, deep].map fun m => (m.name, m)⟩

def toJson (m : CheckMode) : Json := .str m.name

end CheckMode

structure Settings where
  intervalMs : UInt64
  timeoutMs : UInt64
  failureThreshold : UInt32
  successThreshold : UInt32
  autoReconnect : Bool
  checkMode : CheckMode
  policy : Policy
  bands : LatencyBands
deriving DecidableEq

inductive Settings.Fault where
  | noInterval
  | noTimeout
  | timeoutAboveInterval (timeout interval : UInt64)
  | noFailureThreshold
  | noSuccessThreshold
  | policy (f : Policy.Fault)
deriving DecidableEq

def Settings.Fault.message : Fault → String
  | .noInterval => "interval must be greater than zero"
  | .noTimeout => "timeout must be greater than zero"
  | .timeoutAboveInterval timeout interval =>
    s!"timeout ({timeout.toNat}ms) cannot exceed interval ({interval.toNat}ms)"
  | .noFailureThreshold => "failure_threshold must be at least 1"
  | .noSuccessThreshold => "success_threshold must be at least 1"
  | .policy f => f.message

namespace Settings

def new (intervalMs timeoutMs : UInt64) : Settings :=
  { intervalMs, timeoutMs
    failureThreshold := 3
    successThreshold := 2
    autoReconnect := true
    checkMode := .ping
    policy := .standard
    bands := .standard }

def standard : Settings := new 30000 5000

instance : Inhabited Settings := ⟨standard⟩

def interval (s : Settings) : Duration := .ofMillis s.intervalMs

def timeout (s : Settings) : Duration := .ofMillis s.timeoutMs

def check (s : Settings) : Except Fault Unit :=
  if s.intervalMs = 0 then .error .noInterval
  else if s.timeoutMs = 0 then .error .noTimeout
  else if s.intervalMs < s.timeoutMs then
    .error (.timeoutAboveInterval s.timeoutMs s.intervalMs)
  else if s.failureThreshold < 1 then .error .noFailureThreshold
  else if s.successThreshold < 1 then .error .noSuccessThreshold
  else if s.autoReconnect then s.policy.check.mapError .policy
  else .ok ()

def sameNumbers (s t : Settings) : Bool :=
  s.intervalMs == t.intervalMs && s.timeoutMs == t.timeoutMs &&
    s.failureThreshold == t.failureThreshold && s.successThreshold == t.successThreshold &&
    s.autoReconnect == t.autoReconnect && s.checkMode == t.checkMode &&
    s.policy.sameNumbers t.policy && s.bands == t.bands

def fields (read : Numeral → Binary64) : List (Field Settings) :=
  [ .uint64 "interval_ms" intervalMs fun n s => { s with intervalMs := n },
    .uint64 "timeout_ms" timeoutMs fun n s => { s with timeoutMs := n },
    .uint32 "failure_threshold" failureThreshold fun n s => { s with failureThreshold := n },
    .uint32 "success_threshold" successThreshold fun n s => { s with successThreshold := n },
    .bool "enable_auto_reconnect" autoReconnect fun b s => { s with autoReconnect := b },
    .ofLens "check_mode" checkMode (fun m s => { s with checkMode := m })
      CheckMode.toJson CheckMode.choice.ofJson? CheckMode.choice.ofToml?,
    .ofLens "reconnect_policy" policy (fun p s => { s with policy := p })
      Policy.toJson (Policy.ofJson? read) Policy.ofToml?,
    .ofLens "latency_thresholds" bands (fun b s => { s with bands := b })
      LatencyBands.toJson LatencyBands.ofJson? LatencyBands.ofToml? ]

def toJson (s : Settings) : Json := Fields.toJson (fields Numeral.toBinary64) s

def ofJson? (read : Numeral → Binary64) (j : Json) : Option Settings :=
  Fields.ofJson? (fields read) standard j

def ofToml? (t : Toml) : Option Settings := Fields.ofToml? (fields Numeral.toBinary64) standard t

def parseToml? (text : String) : Option Settings := (Toml.parse? text).bind ofToml?

end Settings

end Liveness

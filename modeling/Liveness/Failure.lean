import Liveness.Duration
/-!
# Errors and failures

What a connection or pool reports as an error, and why a liveness check failed. A collaborator that
reports a timeout makes the check time out; any other error of it, even a cancellation, is a
failure of the collaborator.
-/
namespace Liveness

inductive IoKind where
  | connectionRefused
  | connectionReset
  | brokenPipe
  | timedOut
  | unexpectedEof
  | other
deriving DecidableEq

def IoKind.text : IoKind → String
  | .connectionRefused => "connection refused"
  | .connectionReset => "connection reset"
  | .brokenPipe => "broken pipe"
  | .timedOut => "timed out"
  | .unexpectedEof => "unexpected end of file"
  | .other => "other error"

inductive BackendError where
  | connection (detail : String)
  | pool (detail : String)
  | timeout (detail : String)
  | io (kind : IoKind) (detail : Option String)
  | notSupported (detail : String)
  | cancelled
  | other (detail : String)
deriving DecidableEq

namespace BackendError

def message : BackendError → String
  | .connection detail => "Connection error: " ++ detail
  | .pool detail => "Pool error: " ++ detail
  | .timeout detail => "Timeout: " ++ detail
  | .io kind detail => "IO error: " ++ detail.getD kind.text
  | .notSupported detail => "Not supported: " ++ detail
  | .cancelled => "Cancelled"
  | .other detail => detail

/-- The link to the server is broken, as opposed to a refusal on a working link. -/
def isConnectionLevel : BackendError → Bool
  | .connection _ | .timeout _ | .io .. => true
  | _ => false

def closed : BackendError := .connection "Connection is closed"

end BackendError

inductive Failure where
  | connectionClosed
  | timeout (after : Duration)
  | collaborator (detail : String)
  | cancelled
deriving DecidableEq

namespace Failure

def message : Failure → String
  | .connectionClosed => "Connection is closed"
  | .timeout after => "Liveness check timed out after " ++ after.text
  | .collaborator detail => "Liveness check failed: " ++ detail
  | .cancelled => "Liveness check cancelled"

def ofError (budget : Duration) : BackendError → Failure
  | .timeout _ => .timeout budget
  | e => .collaborator e.message

end Failure

inductive Crash where
  | collaborator
  /-- A total of durations became too long. -/
  | durationOverflow
deriving DecidableEq

def Crash.message : Crash → String
  | .collaborator => "collaborator panicked"
  | .durationOverflow => "overflow when adding durations"

abbrev CheckResult := Except Failure Duration

end Liveness

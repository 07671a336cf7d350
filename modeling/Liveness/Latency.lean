import Liveness.Duration
import Liveness.Fields
/-!
# Latency classes

How fast a successful check was, by two thresholds. The class informs only: a slow check has
still succeeded.
-/
namespace Liveness

structure LatencyBands where
  fastMs : UInt64
  elevatedMs : UInt64
deriving DecidableEq

namespace LatencyBands

/-- `elevatedMs` is raised to `fastMs` if it is lower. -/
def new (fastMs elevatedMs : UInt64) : LatencyBands := ⟨fastMs, max elevatedMs fastMs⟩

def standard : LatencyBands := new 100 500

instance : Inhabited LatencyBands := ⟨standard⟩

def fast (b : LatencyBands) : Duration := .ofMillis b.fastMs

def elevated (b : LatencyBands) : Duration := .ofMillis b.elevatedMs

def fields : List (Field LatencyBands) :=
  [ .uint64 "fast_ms" fastMs fun n b => { b with fastMs := n },
    .uint64 "elevated_ms" elevatedMs fun n b => { b with elevatedMs := n } ]

def toJson (b : LatencyBands) : Json := Fields.toJson fields b

/-- Written thresholds stay as they are, in either order. -/
def ofJson? (j : Json) : Option LatencyBands := Fields.ofJson? fields standard j

def ofToml? (t : Toml) : Option LatencyBands := Fields.ofToml? fields standard t

end LatencyBands

inductive LatencyClass where
  | fast
  | elevated
  | slow
deriving DecidableEq

namespace LatencyClass

def classify (latency : Duration) (b : LatencyBands) : LatencyClass :=
  if latency ≤ b.fast then .fast
  else if latency ≤ b.elevated then .elevated
  else .slow

def isAcceptable : LatencyClass → Bool
  | .fast | .elevated => true
  | .slow => false

def name : LatencyClass → String
  | .fast => "fast"
  | .elevated => "elevated"
  | .slow => "slow"

def choice : Choice LatencyClass := ⟨[fast, elevated, slow].map fun c => (c.name, c)⟩

end LatencyClass

end Liveness

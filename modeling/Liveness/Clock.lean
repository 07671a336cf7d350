import Liveness.Duration
/-!
# Virtual time

The clock counts whole milliseconds from zero. A wait on it is over after thirty years at the
latest; the budget of a check is no wait and may be longer.
-/
namespace Liveness

def instantAt (now : Nat) : Instant := .clampMillis now

namespace Clock

/-- Thirty years of 365 days, in milliseconds. -/
def longestWait : Nat := 30 * 365 * 24 * 60 * 60 * 1000

def wait (ms : Nat) : Nat := min ms longestWait

end Clock

end Liveness

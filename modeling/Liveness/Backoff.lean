import Liveness.Settings.Policy
/-!
# Backoff delays

The delay before an attempt grows by the policy's multiplier and is capped. With jitter it is drawn
evenly between half and one and a half times that, from a stream of random 64-bit words, and capped
once more.
-/
namespace Liveness

/-- The delay in milliseconds before the attempt with this index from zero, as a double: NaN is
ignored by the cap. -/
def Policy.scaledDelay (p : Policy) (attempt : Nat) : Binary64 :=
  ((Binary64.ofNat p.initialBackoffMs.toNat).mul
    (p.multiplier.pow (min attempt (Nat.pow 2 31 - 1)))).minNumber
    (.ofNat p.maxBackoffMs.toNat)

def Policy.baseDelay (p : Policy) (attempt : Nat) : Duration :=
  .ofMillis (p.scaledDelay attempt).truncate

/-- A stream of random words: those given, then zeros. -/
structure Entropy where
  words : List UInt64
  used : Nat
deriving DecidableEq

namespace Entropy

def ofWords (words : List UInt64) : Entropy := ⟨words, 0⟩

instance : Inhabited Entropy := ⟨ofWords []⟩

def leadingZeros (n : Nat) : Nat := 127 - n.log2

/-- The largest low half of a product that is accepted: the products above it would favour some
results. -/
def zone (range : Nat) : Nat := range * Nat.pow 2 (leadingZeros range) - 1

def accept? (range v : Nat) : Option Nat :=
  if v * range % Nat.pow 2 128 ≤ zone range then some (v * range / Nat.pow 2 128) else none

/-- The number of two words, the low one first. -/
def pair (low high : UInt64) : Nat := high.toNat * Nat.pow 2 64 + low.toNat

/-- What the first pair of words stands for that is accepted, the words being followed by zeros: a
pair of zeros is accepted always and stands for zero. -/
def firstAccepted (accept : Nat → Option Nat) : List UInt64 → Nat → Nat × Entropy
  | low :: high :: rest, used =>
    match accept (pair low high) with
    | some n => (n, ⟨rest, used + 2⟩)
    | none => firstAccepted accept rest (used + 2)
  | [low], used =>
    match accept (pair low 0) with
    | some n => (n, ⟨[], used + 2⟩)
    | none => (0, ⟨[], used + 4⟩)
  | [], used => (0, ⟨[], used + 2⟩)

def draw (range : Nat) (e : Entropy) : Nat × Entropy :=
  firstAccepted (accept? range) e.words e.used

end Entropy

/-- The delay before an attempt. Without jitter, or if the base delay is zero, no word is used. -/
def Policy.delay (p : Policy) (attempt : Nat) (e : Entropy) : Duration × Entropy :=
  let base := p.baseDelay attempt
  if !p.jitter || base.nanos = 0 then (base, e)
  else
    let (offset, e) := e.draw base.nanos
    let nanos := min (base.nanos / 2 + offset) p.maxBackoff.nanos
    (.clampNanos (min nanos (Nat.pow 2 64 - 1)), e)

end Liveness

import Liveness.Duration
import Liveness.Fields
import Liveness.Numeric.Shortest
/-!
# Reconnect policies

How often and how fast an episode of reconnect attempts tries. A policy is plain data; `check` says
what is wrong with it, the first fault only.
-/
namespace Liveness

structure Policy where
  maxAttempts : UInt32
  initialBackoffMs : UInt64
  maxBackoffMs : UInt64
  multiplier : Binary64
  jitter : Bool
  /-- Ceiling on a whole episode; zero is none. -/
  maxElapsedMs : UInt64
deriving DecidableEq

inductive Policy.Fault where
  | noAttempts
  | noInitialBackoff
  | capBelowInitial (cap initial : UInt64)
  | multiplier (x : Binary64)
deriving DecidableEq

def Policy.Fault.message : Fault → String
  | .noAttempts => "reconnect max_attempts must be at least 1"
  | .noInitialBackoff => "reconnect initial_backoff must be greater than zero"
  | .capBelowInitial cap initial =>
    s!"reconnect max_backoff ({cap.toNat}ms) cannot be less than initial_backoff ({initial.toNat}ms)"
  | .multiplier x =>
    "reconnect backoff_multiplier must be a finite value >= 1.0, got " ++ FloatLayout.plain.text x

namespace Policy

/-- Doubling, without jitter and without a ceiling. -/
def new (maxAttempts : UInt32) (initialBackoffMs maxBackoffMs : UInt64) : Policy :=
  { maxAttempts, initialBackoffMs, maxBackoffMs
    multiplier := Binary64.ofNat 2
    jitter := false
    maxElapsedMs := 0 }

/-- Five attempts from 100 ms up to 30 s, with jitter. -/
def standard : Policy := { Policy.new 5 100 30000 with jitter := true }

instance : Inhabited Policy := ⟨standard⟩

def initialBackoff (p : Policy) : Duration := .ofMillis p.initialBackoffMs

def maxBackoff (p : Policy) : Duration := .ofMillis p.maxBackoffMs

def maxElapsed (p : Policy) : Option Duration :=
  if p.maxElapsedMs = 0 then none else some (.ofMillis p.maxElapsedMs)

def check (p : Policy) : Except Fault Unit :=
  if p.maxAttempts < 1 then .error .noAttempts
  else if p.initialBackoffMs = 0 then .error .noInitialBackoff
  else if p.maxBackoffMs < p.initialBackoffMs then
    .error (.capBelowInitial p.maxBackoffMs p.initialBackoffMs)
  else if !p.multiplier.isFinite || p.multiplier.lt Binary64.one then
    .error (.multiplier p.multiplier)
  else .ok ()

/-- Equality of the numbers: a NaN multiplier makes a policy differ from itself. -/
def sameNumbers (p q : Policy) : Bool :=
  p.maxAttempts == q.maxAttempts && p.initialBackoffMs == q.initialBackoffMs &&
    p.maxBackoffMs == q.maxBackoffMs && p.multiplier.numEq q.multiplier &&
    p.jitter == q.jitter && p.maxElapsedMs == q.maxElapsedMs

def doubleToJson (x : Binary64) : Json :=
  match FloatLayout.document.numeral? x with
  | some n => .number n
  | none => .null

/-- The fields in documents. Nothing but the numbers of JSON is left to `read`. -/
def fields (read : Numeral → Binary64) : List (Field Policy) :=
  [ .uint32 "max_attempts" maxAttempts fun n p => { p with maxAttempts := n },
    .uint64 "initial_backoff_ms" initialBackoffMs fun n p => { p with initialBackoffMs := n },
    .uint64 "max_backoff_ms" maxBackoffMs fun n p => { p with maxBackoffMs := n },
    .ofLens "backoff_multiplier" multiplier (fun x p => { p with multiplier := x })
      doubleToJson (Json.double? read) Toml.double?,
    .bool "jitter" jitter fun b p => { p with jitter := b },
    .uint64 "max_elapsed_ms" maxElapsedMs fun n p => { p with maxElapsedMs := n } ]

def toJson (p : Policy) : Json := Fields.toJson (fields Numeral.toBinary64) p

def ofJson? (read : Numeral → Binary64) (j : Json) : Option Policy :=
  Fields.ofJson? (fields read) standard j

def ofToml? (t : Toml) : Option Policy := Fields.ofToml? (fields Numeral.toBinary64) standard t

end Policy

end Liveness

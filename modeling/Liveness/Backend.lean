import Liveness.Failure
import Liveness.Occupancy
/-!
# The target's side

A pool, or a single connection behind the interface of a pool, with scripted behaviour: each call
takes the next reply of its script, and the last reply of all once the script has run out. Replies
take whole milliseconds of virtual time or never come. Each request for a connection gets one that
speaks for itself when it is asked whether it is closed.
-/
namespace Liveness

inductive Reply where
  /-- After a delay in milliseconds, with an error or without one. -/
  | answer (delay : Nat) (error : Option BackendError)
  | never
  | panic (delay : Nat)
deriving DecidableEq

namespace Reply

def ok : Reply := answer 0 none

instance : Inhabited Reply := ⟨ok⟩

end Reply

/-- What a connection says when it is asked whether it is closed. -/
inductive Openness where
  | isOpen
  | isClosed
  | panics
deriving DecidableEq

/-- What comes in turn, and then the same for ever. -/
structure Script (α : Type) where
  steps : List α
  fallback : α
deriving DecidableEq

namespace Script

variable {α : Type}

def always (a : α) : Script α := ⟨[], a⟩

def next (s : Script α) : α × Script α :=
  match s.steps with
  | [] => (s.fallback, s)
  | a :: rest => (a, { s with steps := rest })

def push (s : Script α) (steps : List α) : Script α := { s with steps := s.steps ++ steps }

end Script

inductive Call where
  | ping (budget : Duration)
  | pingDone
  | pingDropped
  | pingPanicked
  | acquire
  | acquireDone
  | acquireDropped
  | acquirePanicked
  /-- A borrowed connection is given back. -/
  | release
  | close
deriving DecidableEq

def Call.name : Call → String
  | .ping _ => "ping"
  | .pingDone => "ping_done"
  | .pingDropped => "ping_dropped"
  | .pingPanicked => "ping_panic"
  | .acquire => "acquire"
  | .acquireDone => "acquire_done"
  | .acquireDropped => "acquire_dropped"
  | .acquirePanicked => "acquire_panic"
  | .release => "release"
  | .close => "close"

inductive BackendKind where
  | pool
  /-- One connection, handed out to everybody. -/
  | direct
deriving DecidableEq

structure Backend where
  kind : BackendKind
  driver : String
  pings : Script Reply
  acquires : Script Reply
  /-- The connections that the requests get. A single connection is as it is when it is requested. -/
  connections : Script Openness
  stats : Option Occupancy
deriving DecidableEq

inductive Pending where
  | answers (time : Nat) (error : Option BackendError)
  | never
  | panics (time : Nat)
deriving DecidableEq

def Reply.pendingFrom (now : Nat) : Reply → Pending
  | .answer delay error => .answers (now + delay) error
  | .never => .never
  | .panic delay => .panics (now + delay)

def Pending.due : Pending → Option Nat
  | .answers time _ => some time
  | .never => none
  | .panics time => some time

/-- A call under way. One that the interface answers by itself is not visible to the target. -/
structure PendingCall where
  reply : Pending
  visible : Bool
deriving DecidableEq

namespace PendingCall

def traced (c : PendingCall) (calls : List Call) : List Call := if c.visible then calls else []

def immediate (now : Nat) : Openness → PendingCall
  | .isOpen => ⟨.answers now none, false⟩
  | .isClosed => ⟨.answers now (some .closed), false⟩
  | .panics => ⟨.panics now, false⟩

end PendingCall

namespace Backend

def pingConnection (b : Backend) (now : Nat) : PendingCall × Backend :=
  let (reply, pings) := b.pings.next
  (⟨reply.pendingFrom now, true⟩, { b with pings })

def connect (b : Backend) : Openness × Backend :=
  let (said, connections) := b.connections.next
  (said, { b with connections })

/-- A ping of the pool. A single connection is pinged only if it is open. -/
def ping (b : Backend) (now : Nat) : PendingCall × Backend :=
  match b.kind with
  | .pool => b.pingConnection now
  | .direct =>
    let (said, b) := b.connect
    if said = .isOpen then b.pingConnection now else (.immediate now said, b)

def acquire (b : Backend) (now : Nat) : PendingCall × Openness × Backend :=
  let (said, connected) := b.connect
  match b.kind with
  | .direct => (.immediate now said, said, connected)
  | .pool =>
    let (reply, acquires) := b.acquires.next
    (⟨reply.pendingFrom now, true⟩, said, { connected with acquires })

def lends (b : Backend) : Bool := b.kind = .pool

def occupancy (b : Backend) : Option Occupancy :=
  match b.kind with
  | .pool => b.stats
  | .direct => none

def close (b : Backend) : Backend := { b with connections := .always .isClosed }

/-- A call made and awaited with no limit: when it ends, what the target sees of it with the times,
and its answer. No result if the answer never comes. -/
def awaitPing (b : Backend) (now : Nat) (budget : Duration) :
    Option (Nat × List (Nat × Call) × Except Crash (Except BackendError Unit) × Backend) :=
  let (call, b) := b.ping now
  let traced (time : Nat) (calls : List Call) := (call.traced calls).map (time, ·)
  let begun := traced now [.ping budget]
  match call.reply with
  | .answers time error =>
    let answer := match error with
      | some e => .error e
      | none => .ok ()
    some (time, begun ++ traced time [.pingDone], .ok answer, b)
  | .never => none
  | .panics time => some (time, begun ++ traced time [.pingPanicked], .error .collaborator, b)

end Backend

end Liveness

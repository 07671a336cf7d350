import Liveness.Backend
import Liveness.Settings.Basic
/-!
# Liveness checks in flight

A check pings the pool, or borrows a connection and pings that, within one budget. `step` is the
next thing that happens to it at a given time, if anything does; the target's answer comes before
the end of the budget when both are due.
-/
namespace Liveness

structure CheckRule where
  mode : CheckMode
  budget : Duration
deriving DecidableEq

/-- A cancellation that takes effect at this time, be it before what is due then (`first`) or after. -/
structure Cancellation where
  time : Nat
  first : Bool

def Cancellation.before (c : Cancellation) (due : Nat) : Bool :=
  c.time < due || c.first && c.time = due

inductive CheckStage where
  /-- `said`: what the connection will say when it is asked whether it is closed. -/
  | acquiring (call : PendingCall) (said : Openness)
  /-- `borrowed`: the connection has to be given back. -/
  | pinging (call : PendingCall) (borrowed : Bool)
deriving DecidableEq

structure Check where
  startedAt : Nat
  deadline : Nat
  stage : CheckStage
deriving DecidableEq

namespace Check

inductive Next where
  | going (c : Check)
  | done (result : CheckResult)
  | crashed

structure Step where
  next : Next
  calls : List Call
  backend : Backend

def start (rule : CheckRule) (now : Nat) (b : Backend) : Check × List Call × Backend :=
  let deadline := now + rule.budget.millisUp
  match rule.mode with
  | .ping =>
    let (call, b) := b.ping now
    (⟨now, deadline, .pinging call false⟩, call.traced [.ping rule.budget], b)
  | .deep =>
    let (call, said, b) := b.acquire now
    (⟨now, deadline, .acquiring call said⟩, call.traced [.acquire], b)

def giveBack (borrowed : Bool) : List Call := if borrowed then [.release] else []

def abandon (c : Check) : List Call :=
  match c.stage with
  | .acquiring call _ => call.traced [.acquireDropped]
  | .pinging call borrowed => call.traced [.pingDropped] ++ giveBack borrowed

def latency (c : Check) (now : Nat) : Duration :=
  (Duration.clampMillis now).since (.clampMillis c.startedAt)

def expire (rule : CheckRule) (now : Nat) (c : Check) (b : Backend) : Option Step :=
  if c.deadline ≤ now then some ⟨.done (.error (.timeout rule.budget)), c.abandon, b⟩ else none

def pingAcquired (rule : CheckRule) (now : Nat) (c : Check) (said : Openness) (b : Backend) : Step :=
  match said with
  | .panics => ⟨.crashed, giveBack b.lends, b⟩
  | .isClosed => ⟨.done (.error .connectionClosed), giveBack b.lends, b⟩
  | .isOpen =>
    let (call, b) := b.pingConnection now
    ⟨.going { c with stage := .pinging call b.lends }, call.traced [.ping rule.budget], b⟩

def step (rule : CheckRule) (now : Nat) (c : Check) (b : Backend) : Option Step :=
  match c.stage with
  | .acquiring call said =>
    match call.reply with
    | .panics time =>
      if now < time then expire rule now c b
      else some ⟨.crashed, call.traced [.acquirePanicked], b⟩
    | .never => expire rule now c b
    | .answers time error =>
      if now < time then expire rule now c b
      else
        let seen := call.traced [.acquireDone]
        match error with
        | some e => some ⟨.done (.error (.ofError rule.budget e)), seen, b⟩
        | none =>
          let s := pingAcquired rule now c said b
          some { s with calls := seen ++ s.calls }
  | .pinging call borrowed =>
    match call.reply with
    | .panics time =>
      if now < time then expire rule now c b
      else some ⟨.crashed, call.traced [.pingPanicked] ++ giveBack borrowed, b⟩
    | .never => expire rule now c b
    | .answers time error =>
      if now < time then expire rule now c b
      else
        let result := match error with
          | some e => .error (.ofError rule.budget e)
          | none => .ok (c.latency now)
        some ⟨.done result, call.traced [.pingDone] ++ giveBack borrowed, b⟩

def wakeAt (c : Check) : Nat :=
  let call := match c.stage with
    | .acquiring call _ => call
    | .pinging call _ => call
  match call.reply.due with
  | some time => min time c.deadline
  | none => c.deadline

structure Run where
  finishedAt : Nat
  calls : List (Nat × Call)
  result : Except Crash CheckResult
  backend : Backend

/-- Lets a check run on its own from the given time, until it ends or is cut off. The first argument
bounds the steps and waits. -/
def runFrom (rule : CheckRule) (cancel : Option Cancellation) :
    Nat → Nat → Check → Backend → List (Nat × Call) → Run
  | 0, now, _, b, calls => ⟨now, calls, .ok (.error .cancelled), b⟩
  | fuel + 1, now, c, b, calls =>
    match c.step rule now b with
    | some s =>
      let calls := calls ++ s.calls.map (now, ·)
      match s.next with
      | .going c => runFrom rule cancel fuel now c s.backend calls
      | .done result => ⟨now, calls, .ok result, s.backend⟩
      | .crashed => ⟨now, calls, .error .collaborator, s.backend⟩
    | none =>
      match cancel.filter (·.before c.wakeAt) with
      | some cut =>
        ⟨cut.time, calls ++ c.abandon.map (cut.time, ·), .ok (.error .cancelled), b⟩
      | none => runFrom rule cancel fuel c.wakeAt c b calls

/-- At most two calls are waited for and answered. -/
def runFuel : Nat := 6

def run (rule : CheckRule) (cancel : Option Cancellation) (now : Nat) (b : Backend) : Run :=
  if cancel.any (·.before now) then ⟨now, [], .ok (.error .cancelled), b⟩
  else
    let (c, calls, b) := start rule now b
    runFrom rule cancel runFuel now c b (calls.map (now, ·))

end Check

end Liveness

import Liveness.Event
/-!
# Subscribers and dispatch

Handlers are registered under ids that are never used twice. An event goes to the handlers that
are registered when its dispatch begins, in the order of their registration. A handler may register
and unregister others, emit further events and panic while it is called; none of that changes who
gets the event it was called for. What it does can depend on the answers that it gets, and on what
handlers have kept from the calls before.

A dispatch is recorded as a forest: what happens inside a call stands below that call.
-/
namespace Liveness

abbrev HandlerId := Nat

inductive PanicValue where
  | text (s : String)
  | other
deriving DecidableEq

def PanicValue.message : PanicValue → String
  | .text s => s
  | .other => "non-string panic payload"

/-- What a handler does when it is called. It goes on from the answer to each thing that it does. -/
inductive Reaction where
  | done
  /-- The new handler: its tag, whether it looks at the state, and its reaction to each event. -/
  | register (tag : String) (observes : Bool) (react : Event → Reaction)
      (next : HandlerId → Reaction)
  | unregister (id : HandlerId) (next : Bool → Reaction)
  | count (next : Nat → Reaction)
  | emit (e : Event) (next : Reaction)
  | load (cell : Nat) (next : Nat → Reaction)
  | store (cell value : Nat) (next : Reaction)
  | reset (next : Reaction)
  | panic (value : PanicValue)

structure Handler where
  tag : String
  /-- It looks at the state that is current when it is called. -/
  observes : Bool
  react : Event → Reaction

structure Hub where
  entries : List (HandlerId × Handler)
  nextId : HandlerId
  /-- What handlers keep from one call to the next, each for itself or all together. -/
  cells : Nat → Nat
  /-- How many dispatches can be under way inside one another. -/
  levels : Nat

namespace Hub

def empty (levels : Nat) : Hub := ⟨[], 1, fun _ => 0, levels⟩

def count (h : Hub) : Nat := h.entries.length

def register (h : Hub) (handler : Handler) : Hub × HandlerId :=
  ({ h with entries := h.entries ++ [(h.nextId, handler)], nextId := h.nextId + 1 }, h.nextId)

def unregister (h : Hub) (id : HandlerId) : Hub × Bool :=
  let kept := h.entries.filter (·.1 ≠ id)
  ({ h with entries := kept }, decide (kept.length ≠ h.entries.length))

def store (h : Hub) (cell value : Nat) : Hub :=
  { h with cells := fun c => if c = cell then value else h.cells c }

def issued (h : Hub) (id : HandlerId) : Bool := decide (0 < id ∧ id < h.nextId)

def idAt? (h : Hub) (registration : Nat) : Option HandlerId :=
  if registration + 1 < h.nextId then some (registration + 1) else none

def text (h : Hub) : String := s!"EventHub \x7b handlers: {h.count} \x7d"

end Hub

/-- What happens during a dispatch. `context` is the state of the world around the hub. -/
inductive Occurrence (σ : Type) where
  /-- A handler is called with the event; what it does follows. -/
  | delivered (id : HandlerId) (handler : Handler) (event : Event) (context : σ) (handlers : Nat)
      (inside : List (Occurrence σ))
  | registered (id : HandlerId)
  /-- A handler asked to unregister an id; no answer if the id was never given. -/
  | unregistered (tag : String) (id : HandlerId) (found : Option Bool)
  /-- A handler emitted an event of its own. -/
  | emitted (event : Event) (deliveries : List (Occurrence σ))
  /-- The call ended with a panic, which goes no further. -/
  | panicked (id : HandlerId) (kind : EventKind) (value : PanicValue)

inductive Happening (σ : Type) where
  | called (handler : Handler) (event : Event) (context : σ) (handlers : Nat)
  | unregistered (tag : String) (found : Option Bool)
  | panicked (id : HandlerId) (kind : EventKind) (value : PanicValue)

namespace Occurrence

variable {σ : Type}

mutual

def happenings : Occurrence σ → List (Happening σ)
  | .delivered _ handler event context handlers inside =>
    .called handler event context handlers :: allHappenings inside
  | .registered _ => []
  | .unregistered tag _ found => [.unregistered tag found]
  | .emitted _ deliveries => allHappenings deliveries
  | .panicked id kind value => [.panicked id kind value]

def allHappenings : List (Occurrence σ) → List (Happening σ)
  | [] => []
  | o :: rest => o.happenings ++ allHappenings rest

end

end Occurrence

structure Dispatch (σ : Type) where
  hub : Hub
  context : σ
  log : List (Occurrence σ)

namespace Dispatch

variable {σ : Type}

def record (d : Dispatch σ) (o : Occurrence σ) : Dispatch σ := { d with log := d.log ++ [o] }

/-- Lets a handler react until it is done or panics. `emit` dispatches an event one level deeper. -/
def act (reset : σ → σ) (emit : Event → Hub → σ → Option (Dispatch σ)) (id : HandlerId)
    (tag : String) (kind : EventKind) : Reaction → Dispatch σ → Option (Dispatch σ)
  | .done, d => some d
  | .register name observes react next, d =>
    let (hub, new) := d.hub.register ⟨name, observes, react⟩
    act reset emit id tag kind (next new) ({ d with hub }.record (.registered new))
  | .unregister target next, d =>
    let (hub, found) := d.hub.unregister target
    let answer := if d.hub.issued target then some found else none
    act reset emit id tag kind (next found)
      ({ d with hub }.record (.unregistered tag target answer))
  | .count next, d => act reset emit id tag kind (next d.hub.count) d
  | .emit e next, d => do
    let inner ← emit e d.hub d.context
    act reset emit id tag kind next
      ({ d with hub := inner.hub, context := inner.context }.record (.emitted e inner.log))
  | .load cell next, d => act reset emit id tag kind (next (d.hub.cells cell)) d
  | .store cell value next, d =>
    act reset emit id tag kind next { d with hub := d.hub.store cell value }
  | .reset next, d => act reset emit id tag kind next { d with context := reset d.context }
  | .panic value, d => some (d.record (.panicked id kind value))

def deliver (reset : σ → σ) (emit : Event → Hub → σ → Option (Dispatch σ)) (e : Event) :
    List (HandlerId × Handler) → Dispatch σ → Option (Dispatch σ)
  | [], d => some d
  | (id, handler) :: rest, d => do
    let inner ← act reset emit id handler.tag e.kind (handler.react e) ⟨d.hub, d.context, []⟩
    deliver reset emit e rest
      ({ d with hub := inner.hub, context := inner.context }.record
        (.delivered id handler e d.context d.hub.count inner.log))

end Dispatch

/-- Dispatches an event to the handlers registered now. Handlers that go on emitting deeper than
`depth` levels have no result. -/
def Hub.emit {σ : Type} (reset : σ → σ) : Nat → Event → Hub → σ → Option (Dispatch σ)
  | 0, _, _, _ => none
  | depth + 1, e, hub, context =>
    Dispatch.deliver reset (Hub.emit reset depth) e hub.entries ⟨hub, context, []⟩

end Liveness

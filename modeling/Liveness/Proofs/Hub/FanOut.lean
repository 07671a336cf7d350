import Liveness.Hub
/-!
# Who gets an event

A dispatch goes to the handlers that are registered when it begins, whatever the handlers do to the
registry meanwhile. `Goes` tells step by step how a hub goes through a dispatch: each handler reacts
until it is done or panics, and the dispatches inside it go through in the same way. It holds of
just those dispatches that come to an end, and every one of them is a snapshot of the hub at its own
beginning.
-/
namespace Liveness

variable {σ : Type}

namespace Hub

/-- Hubs as registrations and removals leave them, before a dispatch or in the middle of one. -/
inductive Reachable : Hub → Prop where
  | empty (levels : Nat) : Reachable (empty levels)
  | register {hub} (handler : Handler) : Reachable hub → Reachable (hub.register handler).1
  | unregister {hub} (id : HandlerId) : Reachable hub → Reachable (hub.unregister id).1
  | store {hub} (cell value : Nat) : Reachable hub → Reachable (hub.store cell value)

def ids (hub : Hub) : List HandlerId := hub.entries.map (·.1)

/-- Ids stand in the order in which they were given, and the next one is new. -/
structure Ordered (hub : Hub) : Prop where
  increasing : hub.ids.Pairwise (· < ·)
  below : ∀ id ∈ hub.ids, id < hub.nextId

theorem Ordered.register {hub : Hub} (h : hub.Ordered) (handler : Handler) :
    (hub.register handler).1.Ordered := by
  have hids : (hub.register handler).1.ids = hub.ids ++ [hub.nextId] := by simp [Hub.register, ids]
  have hnext : (hub.register handler).1.nextId = hub.nextId + 1 := rfl
  constructor
  · rw [hids, List.pairwise_append]
    refine ⟨h.increasing, List.pairwise_singleton _ _, ?_⟩
    intro id hid new hnew
    rw [List.mem_singleton.mp hnew]
    exact h.below id hid
  · intro id hid
    rw [hids, List.mem_append, List.mem_singleton] at hid
    rw [hnext]
    rcases hid with hid | rfl
    · exact Nat.lt_succ_of_lt (h.below id hid)
    · exact Nat.lt_succ_self _

theorem Ordered.unregister {hub : Hub} (h : hub.Ordered) (id : HandlerId) :
    (hub.unregister id).1.Ordered := by
  have hsub : (hub.unregister id).1.ids.Sublist hub.ids :=
    List.Sublist.map _ List.filter_sublist
  refine ⟨h.increasing.sublist hsub, ?_⟩
  intro kept hkept
  exact h.below kept (hsub.subset hkept)

theorem Reachable.ordered {hub : Hub} (h : hub.Reachable) : hub.Ordered := by
  induction h with
  | empty levels => exact ⟨List.Pairwise.nil, nofun⟩
  | register handler _ ih => exact ih.register handler
  | unregister id _ ih => exact ih.unregister id
  | store cell value _ ih => exact ⟨ih.increasing, ih.below⟩

end Hub

def Occurrence.call? : Occurrence σ → Option (HandlerId × Handler × Event)
  | .delivered id handler event _ _ _ => some (id, handler, event)
  | _ => none

/-- The event has been delivered to exactly the handlers of the hub, to each of them once and in the
order in which they were registered. -/
structure Hub.Snapshot (hub : Hub) (e : Event) (deliveries : List (Occurrence σ)) : Prop where
  calls : deliveries.map Occurrence.call? = hub.entries.map fun (id, handler) => some (id, handler, e)
  once : hub.ids.Pairwise (· < ·)

/-- What is to be done in a dispatch: to deliver an event to the handlers of a list, or what is left
of the reaction of a handler that has been called for an event of this kind. -/
inductive Hub.Job where
  | deliver (e : Event) (targets : List (HandlerId × Handler))
  | react (id : HandlerId) (tag : String) (kind : EventKind) (left : Reaction)

/-- A hub goes through a job, with these occurrences. A handler goes on from the answers that it
gets. It emits to the handlers that are registered then, and is called again itself if it is one of
them. A panic is the end of its reaction and of nothing else. -/
inductive Hub.Goes (reset : σ → σ) : Job → Hub → σ → List (Occurrence σ) → Hub → σ → Prop where
  | delivered {e hub x} : Goes reset (.deliver e []) hub x [] hub x
  | delivers {e id handler targets hub hub₁ hub₂ x x₁ x₂ inside rest} :
      Goes reset (.react id handler.tag e.kind (handler.react e)) hub x inside hub₁ x₁ →
      Goes reset (.deliver e targets) hub₁ x₁ rest hub₂ x₂ →
      Goes reset (.deliver e ((id, handler) :: targets)) hub x
        (.delivered id handler e x hub.count inside :: rest) hub₂ x₂
  | done {id tag kind hub x} : Goes reset (.react id tag kind .done) hub x [] hub x
  | registers {id tag kind name observes react next hub hub' x x' rest} :
      Goes reset (.react id tag kind (next (hub.register ⟨name, observes, react⟩).2))
        (hub.register ⟨name, observes, react⟩).1 x rest hub' x' →
      Goes reset (.react id tag kind (.register name observes react next)) hub x
        (.registered (hub.register ⟨name, observes, react⟩).2 :: rest) hub' x'
  | unregisters {id tag kind target next hub hub' x x' rest} :
      Goes reset (.react id tag kind (next (hub.unregister target).2)) (hub.unregister target).1 x
        rest hub' x' →
      Goes reset (.react id tag kind (.unregister target next)) hub x
        (.unregistered tag target
          (if hub.issued target then some (hub.unregister target).2 else none) :: rest) hub' x'
  | counts {id tag kind next hub hub' x x' rest} :
      Goes reset (.react id tag kind (next hub.count)) hub x rest hub' x' →
      Goes reset (.react id tag kind (.count next)) hub x rest hub' x'
  | emits {id tag kind e next hub hub₁ hub₂ x x₁ x₂ deliveries rest} :
      Goes reset (.deliver e hub.entries) hub x deliveries hub₁ x₁ →
      Goes reset (.react id tag kind next) hub₁ x₁ rest hub₂ x₂ →
      Goes reset (.react id tag kind (.emit e next)) hub x (.emitted e deliveries :: rest) hub₂ x₂
  | loads {id tag kind cell next hub hub' x x' rest} :
      Goes reset (.react id tag kind (next (hub.cells cell))) hub x rest hub' x' →
      Goes reset (.react id tag kind (.load cell next)) hub x rest hub' x'
  | stores {id tag kind cell value next hub hub' x x' rest} :
      Goes reset (.react id tag kind next) (hub.store cell value) x rest hub' x' →
      Goes reset (.react id tag kind (.store cell value next)) hub x rest hub' x'
  | resets {id tag kind next hub hub' x x' rest} :
      Goes reset (.react id tag kind next) hub (reset x) rest hub' x' →
      Goes reset (.react id tag kind (.reset next)) hub x rest hub' x'
  | panics {id tag kind value hub x} :
      Goes reset (.react id tag kind (.panic value)) hub x [.panicked id kind value] hub x

namespace Hub

variable {reset : σ → σ} {job : Job} {e : Event} {targets : List (HandlerId × Handler)}
  {hub hub' : Hub} {x x' : σ} {log : List (Occurrence σ)}

theorem Goes.reachable (h : Goes reset job hub x log hub' x') (hr : hub.Reachable) :
    hub'.Reachable := by
  induction h with
  | delivered | done | panics => exact hr
  | delivers _ _ ihinside ihrest => exact ihrest (ihinside hr)
  | registers _ ih => exact ih (hr.register _)
  | unregisters _ ih => exact ih (hr.unregister _)
  | emits _ _ ihdeliveries ihrest => exact ihrest (ihdeliveries hr)
  | stores _ ih => exact ih (hr.store _ _)
  | counts _ ih | loads _ ih | resets _ ih => exact ih hr

/-- The handlers of the list are called one after the other, whatever becomes of the hub. -/
theorem Goes.calls (h : Goes reset (.deliver e targets) hub x log hub' x') :
    log.map Occurrence.call? = targets.map fun (id, handler) => some (id, handler, e) := by
  induction targets generalizing hub x log with
  | nil =>
    cases h
    rfl
  | cons entry targets ih =>
    cases h with
    | delivers _ hrest =>
      simp only [List.map_cons, ih hrest]
      rfl

theorem Goes.snapshot (h : Goes reset (.deliver e hub.entries) hub x log hub' x')
    (hr : hub.Reachable) : hub.Snapshot e log := ⟨h.calls, hr.ordered.increasing⟩

end Hub

def Hub.Job.run (reset : σ → σ) (depth : Nat) : Job → Dispatch σ → Option (Dispatch σ)
  | .deliver e targets => Dispatch.deliver reset (Hub.emit reset depth) e targets
  | .react id tag kind left => Dispatch.act reset (Hub.emit reset depth) id tag kind left

section Dispatch

variable {reset : σ → σ} {emit emit' : Event → Hub → σ → Option (Dispatch σ)}

/-- What has happened so far stays in the log, and what follows is what the hub goes through. -/
theorem Dispatch.act_goes
    (he : ∀ e hub x d, emit e hub x = some d →
      Hub.Goes reset (.deliver e hub.entries) hub x d.log d.hub d.context)
    {id : HandlerId} {tag : String} {kind : EventKind} {left : Reaction} {d d' : Dispatch σ}
    (h : act reset emit id tag kind left d = some d') :
    ∃ more, d'.log = d.log ++ more ∧
      Hub.Goes reset (.react id tag kind left) d.hub d.context more d'.hub d'.context := by
  induction left generalizing d with
  | done =>
    cases h
    exact ⟨[], (List.append_nil _).symm, .done⟩
  | register name observes react next _ ih =>
    simp only [act] at h
    obtain ⟨more, hlog, hgoes⟩ := ih _ h
    refine ⟨.registered (d.hub.register ⟨name, observes, react⟩).2 :: more, ?_, .registers hgoes⟩
    simpa [record] using hlog
  | unregister target next ih =>
    simp only [act] at h
    obtain ⟨more, hlog, hgoes⟩ := ih _ h
    refine ⟨.unregistered tag target
      (if d.hub.issued target then some (d.hub.unregister target).2 else none) :: more, ?_,
      .unregisters hgoes⟩
    simpa [record] using hlog
  | count next ih =>
    obtain ⟨more, hlog, hgoes⟩ := ih _ h
    exact ⟨more, hlog, .counts hgoes⟩
  | emit e next ih =>
    simp only [act, Option.bind_eq_bind, Option.bind_eq_some_iff] at h
    obtain ⟨inner, hi, h⟩ := h
    obtain ⟨more, hlog, hgoes⟩ := ih h
    refine ⟨.emitted e inner.log :: more, ?_, .emits (he e d.hub d.context inner hi) hgoes⟩
    simpa [record] using hlog
  | load cell next ih =>
    obtain ⟨more, hlog, hgoes⟩ := ih _ h
    exact ⟨more, hlog, .loads hgoes⟩
  | store cell value next ih =>
    obtain ⟨more, hlog, hgoes⟩ := ih (d := { d with hub := d.hub.store cell value }) h
    exact ⟨more, hlog, .stores hgoes⟩
  | reset next ih =>
    obtain ⟨more, hlog, hgoes⟩ := ih (d := { d with context := reset d.context }) h
    exact ⟨more, hlog, .resets hgoes⟩
  | panic value =>
    cases h
    exact ⟨[.panicked id kind value], rfl, .panics⟩

theorem Dispatch.deliver_goes
    (he : ∀ e hub x d, emit e hub x = some d →
      Hub.Goes reset (.deliver e hub.entries) hub x d.log d.hub d.context)
    {e : Event} {targets : List (HandlerId × Handler)} {d d' : Dispatch σ}
    (h : deliver reset emit e targets d = some d') :
    ∃ more, d'.log = d.log ++ more ∧
      Hub.Goes reset (.deliver e targets) d.hub d.context more d'.hub d'.context := by
  induction targets generalizing d with
  | nil =>
    cases h
    exact ⟨[], (List.append_nil _).symm, .delivered⟩
  | cons entry targets ih =>
    obtain ⟨id, handler⟩ := entry
    simp only [deliver, Option.bind_eq_bind, Option.bind_eq_some_iff] at h
    obtain ⟨inner, hi, h⟩ := h
    obtain ⟨inside, hinside, hcall⟩ := act_goes he hi
    obtain ⟨more, hlog, hgoes⟩ := ih h
    rw [List.nil_append] at hinside
    rw [← hinside] at hcall
    refine ⟨.delivered id handler e d.context d.hub.count inner.log :: more, ?_,
      .delivers hcall hgoes⟩
    simpa [record] using hlog

/-- What a dispatch gives does not depend on the levels that were left to the dispatches inside it. -/
theorem Dispatch.act_levels
    (he : ∀ e hub x d, emit e hub x = some d → emit' e hub x = some d)
    {id : HandlerId} {tag : String} {kind : EventKind} {left : Reaction} {d d' : Dispatch σ}
    (h : act reset emit id tag kind left d = some d') :
    act reset emit' id tag kind left d = some d' := by
  induction left generalizing d with
  | emit e next ih =>
    simp only [act, Option.bind_eq_bind, Option.bind_eq_some_iff] at h ⊢
    obtain ⟨inner, hi, h⟩ := h
    exact ⟨inner, he e d.hub d.context inner hi, ih h⟩
  | done => exact h
  | panic value => exact h
  | register name observes react next _ ih => exact ih _ h
  | unregister target next ih => exact ih _ h
  | count next ih => exact ih _ h
  | load cell next ih => exact ih _ h
  | store cell value next ih => exact ih h
  | reset next ih => exact ih h

theorem Dispatch.deliver_levels
    (he : ∀ e hub x d, emit e hub x = some d → emit' e hub x = some d)
    {e : Event} {targets : List (HandlerId × Handler)} {d d' : Dispatch σ}
    (h : deliver reset emit e targets d = some d') : deliver reset emit' e targets d = some d' := by
  induction targets generalizing d with
  | nil => exact h
  | cons entry targets ih =>
    obtain ⟨id, handler⟩ := entry
    simp only [deliver, Option.bind_eq_bind, Option.bind_eq_some_iff] at h ⊢
    obtain ⟨inner, hi, h⟩ := h
    exact ⟨inner, act_levels he hi, ih h⟩

end Dispatch

namespace Hub

variable {reset : σ → σ} {e : Event} {hub hub' : Hub} {x x' : σ} {d d' : Dispatch σ}
  {job : Job} {log : List (Occurrence σ)}

theorem emit_goes {depth : Nat} (h : Hub.emit reset depth e hub x = some d) :
    Goes reset (.deliver e hub.entries) hub x d.log d.hub d.context := by
  induction depth generalizing e hub x d with
  | zero => cases h
  | succ depth ih =>
    obtain ⟨more, hlog, hgoes⟩ := Dispatch.deliver_goes (fun e hub x d h => ih h) h
    rw [List.nil_append] at hlog
    rw [hlog]
    exact hgoes

theorem emit_levels {depth : Nat} (h : Hub.emit reset depth e hub x = some d) (more : Nat) :
    Hub.emit reset (depth + more) e hub x = some d := by
  induction depth generalizing e hub x d with
  | zero => cases h
  | succ depth ih =>
    rw [Nat.add_right_comm]
    exact Dispatch.deliver_levels (fun e hub x d h => ih h) h

theorem Job.run_levels {depth : Nat} (h : job.run reset depth d = some d') (more : Nat) :
    job.run reset (depth + more) d = some d' := by
  cases job with
  | deliver e targets => exact Dispatch.deliver_levels (fun _ _ _ _ h => emit_levels h more) h
  | react id tag kind left => exact Dispatch.act_levels (fun _ _ _ _ h => emit_levels h more) h

/-- What a hub can go through has a depth at which it does, after whatever has happened before. -/
theorem Goes.runs (h : Goes reset job hub x log hub' x') : ∃ depth, ∀ before,
    job.run reset depth ⟨hub, x, before⟩ = some ⟨hub', x', before ++ log⟩ := by
  induction h with
  | delivered | done => exact ⟨0, fun before => by rw [List.append_nil]; rfl⟩
  | panics => exact ⟨0, fun before => rfl⟩
  | @delivers e id handler targets hub hub₁ hub₂ x x₁ x₂ inside rest _ _ ihinside ihrest =>
    obtain ⟨depth, hinside⟩ := ihinside
    obtain ⟨depth', hrest⟩ := ihrest
    refine ⟨depth + depth', fun before => ?_⟩
    have hcall := Job.run_levels (hinside []) depth'
    have hlast := fun before => Job.run_levels (hrest before) depth
    rw [Nat.add_comm depth' depth] at hlast
    simp only [Job.run, List.nil_append] at hcall hlast ⊢
    simp only [Dispatch.deliver, hcall, Option.bind_eq_bind, Option.bind_some, Dispatch.record,
      hlast, List.append_assoc, List.singleton_append]
  | @emits id tag kind e next hub hub₁ hub₂ x x₁ x₂ deliveries rest _ _ ihdeliveries ihrest =>
    obtain ⟨depth, hdeliveries⟩ := ihdeliveries
    obtain ⟨depth', hrest⟩ := ihrest
    refine ⟨depth + 1 + depth', fun before => ?_⟩
    have hinner : Hub.emit reset (depth + 1) e hub x = some ⟨hub₁, x₁, deliveries⟩ :=
      hdeliveries []
    have hlast := fun before => Job.run_levels (hrest before) (depth + 1)
    rw [Nat.add_comm depth' (depth + 1)] at hlast
    simp only [Job.run] at hlast ⊢
    simp only [Dispatch.act, emit_levels hinner depth', Option.bind_eq_bind, Option.bind_some,
      Dispatch.record, hlast, List.append_assoc, List.singleton_append]
  | registers _ ih | unregisters _ ih =>
    obtain ⟨depth, hrest⟩ := ih
    refine ⟨depth, fun before => ?_⟩
    simp only [Job.run] at hrest ⊢
    simp only [Dispatch.act, Dispatch.record, hrest, List.append_assoc, List.singleton_append]
  | counts _ ih | loads _ ih | stores _ ih | resets _ ih => exact ih

/-- A dispatch comes to an end just if the hub can go through it. -/
theorem emit_iff_goes : (∃ depth, Hub.emit reset depth e hub x = some d) ↔
    Goes reset (.deliver e hub.entries) hub x d.log d.hub d.context := by
  constructor
  · rintro ⟨depth, h⟩
    exact emit_goes h
  · intro h
    obtain ⟨depth, hruns⟩ := h.runs
    exact ⟨depth + 1, hruns []⟩

end Hub

/-- It emits nothing but events below the bound, and what it registers emits, at every event, nothing
but events below that one. -/
inductive Reaction.Descends (rank : Event → Nat) : Nat → Reaction → Prop where
  | done {bound} : Descends rank bound .done
  | register {bound tag observes react next} : (∀ e, Descends rank (rank e) (react e)) →
      (∀ id, Descends rank bound (next id)) →
      Descends rank bound (.register tag observes react next)
  | unregister {bound id next} : (∀ found, Descends rank bound (next found)) →
      Descends rank bound (.unregister id next)
  | count {bound next} : (∀ n, Descends rank bound (next n)) → Descends rank bound (.count next)
  | emit {bound e next} : rank e < bound → Descends rank bound next →
      Descends rank bound (.emit e next)
  | load {bound cell next} : (∀ value, Descends rank bound (next value)) →
      Descends rank bound (.load cell next)
  | store {bound cell value next} : Descends rank bound next →
      Descends rank bound (.store cell value next)
  | reset {bound next} : Descends rank bound next → Descends rank bound (.reset next)
  | panic {bound value} : Descends rank bound (.panic value)

def Hub.Descends (rank : Event → Nat) (hub : Hub) : Prop :=
  ∀ p ∈ hub.entries, ∀ e, (p.2.react e).Descends rank (rank e)

namespace Hub.Descends

variable {rank : Event → Nat} {hub : Hub}

theorem empty (rank : Event → Nat) (levels : Nat) : (Hub.empty levels).Descends rank := nofun

theorem register (h : hub.Descends rank) {handler : Handler}
    (hh : ∀ e, (handler.react e).Descends rank (rank e)) :
    (hub.register handler).1.Descends rank := by
  intro p hp
  rcases List.mem_append.mp hp with hp | hp
  · exact h p hp
  · cases List.mem_singleton.mp hp
    exact hh

theorem unregister (h : hub.Descends rank) (id : HandlerId) :
    (hub.unregister id).1.Descends rank := by
  intro p hp
  exact h p (List.mem_filter.mp hp).1

end Hub.Descends

section Result

variable (reset : σ → σ) {emit : Event → Hub → σ → Option (Dispatch σ)} {rank : Event → Nat}
  {bound : Nat}

theorem Dispatch.act_result
    (he : ∀ e hub x, rank e < bound → hub.Descends rank →
      ∃ d, emit e hub x = some d ∧ d.hub.Descends rank)
    (id : HandlerId) (tag : String) (kind : EventKind) {left : Reaction} {d : Dispatch σ}
    (hl : left.Descends rank bound) (hd : d.hub.Descends rank) :
    ∃ d', act reset emit id tag kind left d = some d' ∧ d'.hub.Descends rank := by
  induction left generalizing d with
  | done => exact ⟨d, rfl, hd⟩
  | register name observes react next _ ih =>
    cases hl with
    | register hreact hnext =>
      exact ih _ (d := { d with hub := (d.hub.register ⟨name, observes, react⟩).1 }.record _)
        (hnext _) (hd.register hreact)
  | unregister target next ih =>
    cases hl with
    | unregister hnext =>
      exact ih _ (d := { d with hub := (d.hub.unregister target).1 }.record _) (hnext _)
        (hd.unregister target)
  | count next ih =>
    cases hl with
    | count hnext => exact ih _ (hnext _) hd
  | emit e next ih =>
    cases hl with
    | emit hlt hnext =>
      obtain ⟨inner, hinner, hhub⟩ := he e d.hub d.context hlt hd
      simp only [act, hinner, Option.bind_eq_bind, Option.bind_some]
      exact ih hnext hhub
  | load cell next ih =>
    cases hl with
    | load hnext => exact ih _ (hnext _) hd
  | store cell value next ih =>
    cases hl with
    | store hnext => exact ih (d := { d with hub := d.hub.store cell value }) hnext hd
  | reset next ih =>
    cases hl with
    | reset hnext => exact ih (d := { d with context := reset d.context }) hnext hd
  | panic value => exact ⟨_, rfl, hd⟩

theorem Dispatch.deliver_result {e : Event} (hb : rank e = bound)
    (he : ∀ e hub x, rank e < bound → hub.Descends rank →
      ∃ d, emit e hub x = some d ∧ d.hub.Descends rank)
    {targets : List (HandlerId × Handler)} {d : Dispatch σ}
    (htargets : ∀ p ∈ targets, (p.2.react e).Descends rank (rank e)) (hd : d.hub.Descends rank) :
    ∃ d', deliver reset emit e targets d = some d' ∧ d'.hub.Descends rank := by
  induction targets generalizing d with
  | nil => exact ⟨d, rfl, hd⟩
  | cons entry targets ih =>
    obtain ⟨id, handler⟩ := entry
    obtain ⟨hfirst, hrest⟩ := List.forall_mem_cons.mp htargets
    have hreaction : (handler.react e).Descends rank bound := hb ▸ hfirst
    obtain ⟨inner, hinner, hhub⟩ :=
      act_result reset he id handler.tag e.kind (d := ⟨d.hub, d.context, []⟩) hreaction hd
    simp only [deliver, hinner, Option.bind_eq_bind, Option.bind_some]
    exact ih hrest hhub

/-- Nothing but circles keeps a dispatch from coming to an end. -/
theorem Hub.emit_result {depth : Nat} {e : Event} {hub : Hub} (hdepth : rank e < depth)
    (h : hub.Descends rank) (x : σ) :
    ∃ d, Hub.emit reset depth e hub x = some d ∧ d.hub.Descends rank := by
  induction depth generalizing e hub x with
  | zero => omega
  | succ depth ih =>
    refine Dispatch.deliver_result reset rfl ?_ (fun p hp => h p hp e) h
    intro e' hub' x' hlt hd
    exact ih (by omega) hd x'

end Result

inductive Occurrence.Within (o : Occurrence σ) : List (Occurrence σ) → Prop where
  | here {log} : o ∈ log → Within o log
  | called {log id handler event context handlers inside} :
      .delivered id handler event context handlers inside ∈ log → Within o inside → Within o log
  | emitted {log event deliveries} :
      .emitted event deliveries ∈ log → Within o deliveries → Within o log

namespace Occurrence

theorem allHappenings_append (log more : List (Occurrence σ)) :
    allHappenings (log ++ more) = allHappenings log ++ allHappenings more := by
  induction log with
  | nil => rfl
  | cons o log ih => simp only [List.cons_append, allHappenings, ih, List.append_assoc]

theorem happenings_contiguous {o : Occurrence σ} {log : List (Occurrence σ)} (h : o ∈ log) :
    o.happenings <:+: allHappenings log := by
  obtain ⟨before, after, rfl⟩ := List.append_of_mem h
  exact ⟨allHappenings before, allHappenings after, by
    simp only [allHappenings_append, allHappenings, List.append_assoc]⟩

/-- What takes place within other occurrences begins after they do and is over before they are. -/
theorem Within.contiguous {o : Occurrence σ} {log : List (Occurrence σ)} (h : o.Within log) :
    o.happenings <:+: allHappenings log := by
  induction h with
  | here ho => exact happenings_contiguous ho
  | called hc _ ih =>
    refine ih.trans (List.IsInfix.trans ?_ (happenings_contiguous hc))
    exact (List.suffix_cons _ _).isInfix
  | emitted he _ ih => exact ih.trans (happenings_contiguous he)

end Occurrence

/-- What happens inside an occurrence is what was to be done then: a handler that is called reacts to
the event, and an event that is emitted goes to the handlers registered at that moment. -/
def Occurrence.Explained (reset : σ → σ) : Occurrence σ → Prop
  | .delivered id handler event context handlers inside =>
    ∃ hub hub' x', hub.Reachable ∧ handlers = hub.count ∧
      Hub.Goes reset (.react id handler.tag event.kind (handler.react event)) hub context inside
        hub' x'
  | .emitted event deliveries =>
    ∃ hub x hub' x', hub.Reachable ∧ hub.Snapshot event deliveries ∧
      Hub.Goes reset (.deliver event hub.entries) hub x deliveries hub' x'
  | _ => True

namespace Hub

variable {reset : σ → σ} {job : Job} {hub hub' : Hub} {x x' : σ} {log : List (Occurrence σ)}
  {o : Occurrence σ}

theorem Goes.explains (h : Goes reset job hub x log hub' x') (hr : hub.Reachable) :
    ∀ o ∈ log, o.Explained reset := by
  induction h with
  | delivered | done => exact nofun
  | panics =>
    intro o ho
    rw [List.mem_singleton.mp ho]
    trivial
  | delivers hinside _ _ ihrest =>
    exact List.forall_mem_cons.mpr
      ⟨⟨_, _, _, hr, rfl, hinside⟩, ihrest (hinside.reachable hr)⟩
  | emits hdeliveries _ _ ihrest =>
    exact List.forall_mem_cons.mpr
      ⟨⟨_, _, _, _, hr, hdeliveries.snapshot hr, hdeliveries⟩,
        ihrest (hdeliveries.reachable hr)⟩
  | registers _ ih => exact List.forall_mem_cons.mpr ⟨trivial, ih (hr.register _)⟩
  | unregisters _ ih => exact List.forall_mem_cons.mpr ⟨trivial, ih (hr.unregister _)⟩
  | stores _ ih => exact ih (hr.store _ _)
  | counts _ ih | loads _ ih | resets _ ih => exact ih hr

theorem explained_of_within (hl : ∀ p ∈ log, p.Explained reset) (h : o.Within log) :
    o.Explained reset := by
  induction h with
  | here ho => exact hl _ ho
  | called hc _ ih =>
    obtain ⟨_, _, _, hr, -, hgoes⟩ := hl _ hc
    exact ih (hgoes.explains hr)
  | emitted he _ ih =>
    obtain ⟨_, _, _, _, hr, -, hgoes⟩ := hl _ he
    exact ih (hgoes.explains hr)

/-- A dispatch that comes to an end has gone to the handlers that were registered when it began, to
each of them once and in the order of their registration, and each has reacted to the event until it
was done or panicked. So it is with every dispatch inside it, at any depth (`Explained`), whoever
registers, unregisters, emits or panics meanwhile, and whatever that depends on. Calls follow one
another in time, and a dispatch from inside a call is over before that call is. A dispatch comes to
an end just if the hub can go through it; it does if no handlers emit in circles: a panic is no
hindrance. -/
theorem Reachable.delivers_to_snapshot {hub : Hub} (hr : hub.Reachable) (reset : σ → σ) (e : Event)
    (x : σ) :
    (∀ depth d, Hub.emit reset depth e hub x = some d →
      hub.Snapshot e d.log ∧ Goes reset (.deliver e hub.entries) hub x d.log d.hub d.context ∧
      d.hub.Reachable ∧ (∀ o : Occurrence σ, o.Within d.log → o.Explained reset) ∧
      (∀ more, Hub.emit reset (depth + more) e hub x = some d) ∧
      ∀ before id handler context handlers inside after,
        d.log = before ++ .delivered id handler e context handlers inside :: after →
        Occurrence.allHappenings d.log = Occurrence.allHappenings before ++
          (.called handler e context handlers :: Occurrence.allHappenings inside) ++
          Occurrence.allHappenings after ∧
        ∀ e' deliveries, (Occurrence.emitted e' deliveries).Within inside →
          Occurrence.allHappenings deliveries <:+: Occurrence.allHappenings inside) ∧
    (∀ d : Dispatch σ, Goes reset (.deliver e hub.entries) hub x d.log d.hub d.context →
      ∃ depth, Hub.emit reset depth e hub x = some d) ∧
    ∀ rank, hub.Descends rank → ∀ depth, rank e < depth →
      ∃ d, Hub.emit reset depth e hub x = some d := by
  refine ⟨?_, fun d => emit_iff_goes.mpr, ?_⟩
  · intro depth d h
    have hgoes := emit_goes h
    refine ⟨hgoes.snapshot hr, hgoes, hgoes.reachable hr,
      fun o => explained_of_within (hgoes.explains hr), emit_levels h, ?_⟩
    intro before id handler context handlers inside after hlog
    constructor
    · rw [hlog, Occurrence.allHappenings_append, List.append_assoc]
      rfl
    · intro e' deliveries hwithin
      exact hwithin.contiguous
  · intro rank hdescends depth hdepth
    obtain ⟨d, hd, -⟩ := emit_result reset hdepth hdescends x
    exact ⟨d, hd⟩

def late : Handler := ⟨"late", false, fun _ => .done⟩

/-- It unregisters itself and the handler after the next, registers another one and keeps its id,
emits an event of its own and panics. -/
def meddler : Handler :=
  ⟨"meddler", false, fun e => if e.kind = .healthy then
    .unregister 1 fun _ => .unregister 3 fun _ => .register "late" false late.react fun new =>
      .store 0 new <| .emit (.reconnectStarted "pg") <| .panic (.text "done") else .done⟩

/-- It unregisters the handler whose id has been kept, and panics at the meddler's event. -/
def quick : Handler :=
  ⟨"quick", false, fun e => if e.kind = .healthy then
    .load 0 fun kept => .unregister kept fun _ => .done else .panic .other⟩

def fragile : Handler := ⟨"fragile", false, fun _ => .panic (.text "down")⟩

def unruly : Hub :=
  ((((empty 2).register meddler).1.register quick).1.register fragile).1

/-- Events of a healthy target come from no handler. -/
def healthyLast (e : Event) : Nat := if e.kind = .healthy then 1 else 0

theorem unruly_descends : unruly.Descends healthyLast := by
  have hmeddler : ∀ e, (meddler.react e).Descends healthyLast (healthyLast e) := by
    intro e
    by_cases he : e.kind = .healthy
    · have hlower : healthyLast (.reconnectStarted "pg") < healthyLast e := by
        simp [healthyLast, he, Event.reconnectStarted]
      simp only [meddler, if_pos he]
      exact .unregister fun _ => .unregister fun _ => .register (fun _ => .done) fun _ =>
        .store (.emit hlower .panic)
    · simp only [meddler, if_neg he]
      exact .done
  have hquick : ∀ e, (quick.react e).Descends healthyLast (healthyLast e) := by
    intro e
    by_cases he : e.kind = .healthy
    · simp only [quick, if_pos he]
      exact .load fun _ => .unregister fun _ => .done
    · simp only [quick, if_neg he]
      exact .panic
  exact (((Descends.empty _ _).register hmeddler).register hquick).register fun _ => .panic

/-- The meddler's event goes to `quick`, which panics, and to the handler that is new. The handler
that the meddler has unregistered is still called, and panics in its turn. -/
theorem Reachable.delivers_to_snapshot_unruly : ∃ d : Dispatch Unit,
    Hub.emit id 2 (.healthy "pg") unruly () = some d ∧
    d.log =
      [.delivered 1 meddler (.healthy "pg") () 3
        [.unregistered "meddler" 1 (some true), .unregistered "meddler" 3 (some true),
          .registered 4,
          .emitted (.reconnectStarted "pg")
            [.delivered 2 quick (.reconnectStarted "pg") () 2
              [.panicked 2 .reconnectStarted .other],
              .delivered 4 late (.reconnectStarted "pg") () 2 []],
          .panicked 1 .healthy (.text "done")],
        .delivered 2 quick (.healthy "pg") () 2 [.unregistered "quick" 4 (some true)],
        .delivered 3 fragile (.healthy "pg") () 1 [.panicked 3 .healthy (.text "down")]] ∧
    unruly.Snapshot (.healthy "pg") d.log ∧
    Goes id (.deliver (.healthy "pg") unruly.entries) unruly () d.log d.hub d.context ∧
    (∀ o : Occurrence Unit, o.Within d.log → o.Explained id) ∧ d.hub.ids = [2] := by
  have hr : unruly.Reachable := (((Reachable.empty 2).register _).register _).register _
  obtain ⟨hdelivers, -, hresult⟩ := hr.delivers_to_snapshot id (.healthy "pg") ()
  obtain ⟨d, hd⟩ := hresult healthyLast unruly_descends 2 (by decide)
  obtain ⟨hsnapshot, hgoes, -, hexplained, -⟩ := hdelivers 2 d hd
  refine ⟨d, hd, ?_, hsnapshot, hgoes, hexplained, ?_⟩
  all_goals
    cases hd
    rfl

end Hub

end Liveness

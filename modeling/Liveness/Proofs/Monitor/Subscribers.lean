import Liveness.World
/-!
# What subscribers can do

However handlers react, a dispatch changes nothing of the tracker but its totals: it leaves the
tracker as it was, or reset. So every call shows the status that the loop had when it announced the
event, and the effects of a step take place as if nobody listened.
-/
namespace Liveness

def Occurrence.IsCall {σ : Type} (e : Event) (P : σ → Prop) : Occurrence σ → Prop
  | .delivered _ _ event context _ _ => event = e ∧ P context
  | _ => False

section Dispatch

variable {σ : Type} {reset : σ → σ} {emit : Event → Hub → σ → Option (Dispatch σ)} {P : σ → Prop}

theorem Dispatch.act_keeps (hr : ∀ x, P x → P (reset x))
    (he : ∀ e hub x d, emit e hub x = some d → P x → P d.context)
    {id : HandlerId} {tag : String} {kind : EventKind} {left : Reaction} {d d' : Dispatch σ}
    (h : act reset emit id tag kind left d = some d') (hd : P d.context) : P d'.context := by
  induction left generalizing d with
  | done =>
    cases h
    exact hd
  | panic value =>
    cases h
    exact hd
  | emit e next ih =>
    simp only [act, Option.bind_eq_bind, Option.bind_eq_some_iff] at h
    obtain ⟨inner, hi, h⟩ := h
    exact ih h (he e d.hub d.context inner hi hd)
  | reset next ih => exact ih h (hr _ hd)
  | register name observes react next _ ih => exact ih _ h hd
  | unregister target next ih => exact ih _ h hd
  | count next ih => exact ih _ h hd
  | load cell next ih => exact ih _ h hd
  | store cell value next ih => exact ih h hd

theorem Dispatch.deliver_keeps (hr : ∀ x, P x → P (reset x))
    (he : ∀ e hub x d, emit e hub x = some d → P x → P d.context)
    {e : Event} {entries : List (HandlerId × Handler)} {d d' : Dispatch σ}
    (h : deliver reset emit e entries d = some d') (hd : P d.context)
    (hl : ∀ o ∈ d.log, o.IsCall e P) : P d'.context ∧ ∀ o ∈ d'.log, o.IsCall e P := by
  induction entries generalizing d with
  | nil =>
    cases h
    exact ⟨hd, hl⟩
  | cons entry entries ih =>
    obtain ⟨id, handler⟩ := entry
    simp only [deliver, Option.bind_eq_bind, Option.bind_eq_some_iff] at h
    obtain ⟨inner, hi, h⟩ := h
    have hc : P inner.context := act_keeps hr he hi hd
    refine ih h hc ?_
    intro o ho
    rcases List.mem_append.mp ho with ho | ho
    · exact hl o ho
    · cases List.mem_singleton.mp ho
      exact ⟨rfl, hd⟩

theorem Hub.emit_keeps (hr : ∀ x, P x → P (reset x)) {depth : Nat} {e : Event} {hub : Hub}
    {x : σ} {d : Dispatch σ} (h : Hub.emit reset depth e hub x = some d) (hx : P x) :
    P d.context ∧ ∀ o ∈ d.log, o.IsCall e P := by
  induction depth generalizing e hub x d with
  | zero => cases h
  | succ depth ih =>
    refine Dispatch.deliver_keeps hr ?_ h hx (by simp)
    intro e hub x d hd hp
    exact (ih hd hp).1

end Dispatch

def Tracker.ResetAt (now : Instant) (t u : Tracker) : Prop := u = t ∨ u = t.resetTally now

namespace Tracker.ResetAt

variable {now : Instant} {t u v : Tracker}

theorem refl (now : Instant) (t : Tracker) : ResetAt now t t := Or.inl rfl

theorem reset (h : ResetAt now t u) : ResetAt now t (u.resetTally now) := by
  rcases h with rfl | rfl
  · exact Or.inr rfl
  · exact Or.inr (by simp [resetTally, Function.comp_def])

theorem trans (h : ResetAt now t u) (k : ResetAt now u v) : ResetAt now t v := by
  rcases k with rfl | rfl
  · exact h
  · exact h.reset

theorem status_eq (h : ResetAt now t u) : u.status = t.status := by
  rcases h with rfl | rfl <;> rfl

theorem episodeStart_eq (h : ResetAt now t u) : u.episodeStart = t.episodeStart := by
  rcases h with rfl | rfl <;> rfl

end Tracker.ResetAt

theorem dispatch_resets {now : Nat} {e : Event} {hub hub' : Hub} {t u : Tracker}
    {out : List Output} (h : dispatch now e hub t = (hub', u, out)) :
    Tracker.ResetAt (instantAt now) t u ∧ ∀ o ∈ out, ∃ c : Occurrence Tracker,
      o = .dispatched c ∧ c.IsCall e (Tracker.ResetAt (instantAt now) t) := by
  unfold dispatch at h
  split at h
  · rename_i d hd
    cases h
    obtain ⟨hc, hl⟩ := Hub.emit_keeps (P := Tracker.ResetAt (instantAt now) t)
      (fun _ hx => hx.reset) hd (Tracker.ResetAt.refl _ _)
    refine ⟨hc, ?_⟩
    intro o ho
    obtain ⟨c, hm, rfl⟩ := List.mem_map.mp ho
    exact ⟨c, rfl, hl c hm⟩
  · cases h
    exact ⟨Tracker.ResetAt.refl _ _, by simp⟩

/-- What of a run its course is told by: starts, and the events that the loop announces. -/
inductive Mark where
  | started
  | announced (e : Event)
deriving DecidableEq

def Notice.mark? : Notice → Option Mark
  | .monitoringStarted _ => some .started
  | _ => none

def Effect.mark? : Effect → Option Mark
  | .call _ => none
  | .log n => n.mark?
  | .emit e => some (.announced e)

/-- The emissions of handlers are no marks. -/
def Output.mark? : Output → Option Mark
  | .call _ => none
  | .log n => n.mark?
  | .emitted e _ => some (.announced e)
  | .dispatched _ => none

def Output.shown? : Output → Option (Event × Tracker)
  | .emitted e t => some (e, t)
  | .dispatched (.delivered _ _ e t _ _) => some (e, t)
  | _ => none

theorem Occurrence.IsCall.shown {e : Event} {P : Tracker → Prop} {c : Occurrence Tracker}
    (h : c.IsCall e P) : ∃ t, (Output.dispatched c).shown? = some (e, t) ∧ P t := by
  cases c with
  | delivered id handler event context handlers inside =>
    obtain ⟨rfl, hp⟩ := h
    exact ⟨context, rfl, hp⟩
  | _ => exact h.elim

/-- Effects as they take place: the marks are theirs, and of the world only the totals of the
tracker may change. -/
structure Performed (now : Nat) (effects : List Effect) (w w' : World) (out : List Output) :
    Prop where
  tracker : Tracker.ResetAt (instantAt now) w.tracker w'.tracker
  backend : w'.backend = w.backend
  entropy : w'.entropy = w.entropy
  marks : out.filterMap Output.mark? = effects.filterMap Effect.mark?
  shown : ∀ o ∈ out, ∀ e t, o.shown? = some (e, t) →
    .emit e ∈ effects ∧ Tracker.ResetAt (instantAt now) w.tracker t

/-- An effect that is no emission only shows itself. -/
theorem Performed.cons {now : Nat} {effects : List Effect} {w w' : World} {out : List Output}
    (h : Performed now effects w w' out) {effect : Effect} {o : Output}
    (hm : o.mark? = effect.mark?) (hs : o.shown? = none) :
    Performed now (effect :: effects) w w' (o :: out) := by
  refine ⟨h.tracker, h.backend, h.entropy, ?_, ?_⟩
  · simp only [List.filterMap_cons, hm, h.marks]
  · intro p hp e t hsh
    rcases List.mem_cons.mp hp with rfl | hp
    · rw [hs] at hsh
      cases hsh
    · exact (h.shown p hp e t hsh).imp_left (List.mem_cons_of_mem _)

theorem perform_performed (now : Nat) (effects : List Effect) (w : World) (hub : Hub) :
    Performed now effects w (perform now effects w hub).1 (perform now effects w hub).2.2 := by
  induction effects generalizing w hub with
  | nil => exact ⟨Tracker.ResetAt.refl _ _, rfl, rfl, rfl, by simp [perform]⟩
  | cons effect effects ih =>
    cases effect with
    | call c => exact (ih w hub).cons rfl rfl
    | log n => exact (ih w hub).cons rfl rfl
    | emit event =>
      obtain ⟨⟨hub', u, delivered⟩, hd⟩ : ∃ d, dispatch now event hub w.tracker = d := ⟨_, rfl⟩
      obtain ⟨hu, hcalls⟩ := dispatch_resets hd
      have h := ih { w with tracker := u } hub'
      simp only [perform, hd]
      refine ⟨hu.trans h.tracker, h.backend, h.entropy, ?_, ?_⟩
      · have hn : delivered.filterMap Output.mark? = [] := by
          rw [List.filterMap_eq_nil_iff]
          intro o ho
          obtain ⟨c, rfl, -⟩ := hcalls o ho
          rfl
        simp [Output.mark?, Effect.mark?, hn, h.marks]
      · intro o ho e t hsh
        rcases List.mem_append.mp ho with ho | ho
        · rcases List.mem_cons.mp ho with rfl | ho
          · cases hsh
            exact ⟨List.mem_cons_self, Tracker.ResetAt.refl _ _⟩
          · obtain ⟨c, rfl, hc⟩ := hcalls o ho
            obtain ⟨v, hv, hr⟩ := hc.shown
            rw [hv] at hsh
            cases hsh
            exact ⟨List.mem_cons_self, hr⟩
        · obtain ⟨hm, hr⟩ := h.shown o ho e t hsh
          exact ⟨List.mem_cons_of_mem _ hm, hu.trans hr⟩

/-- What the loop itself does; a dispatch is the doing of its subscribers. -/
def Output.effect? : Output → Option Effect
  | .call c => some (.call c)
  | .log n => some (.log n)
  | .emitted e _ => some (.emit e)
  | .dispatched _ => none

def Journal.effects (j : Journal) : List (Nat × Effect) :=
  j.filterMap fun (time, o) => o.effect?.map (time, ·)

@[simp] theorem Journal.effects_append (j k : Journal) :
    Journal.effects (j ++ k) = Journal.effects j ++ Journal.effects k := List.filterMap_append

theorem dispatch_effects {now : Nat} {e : Event} {hub hub' : Hub} {t u : Tracker}
    {out : List Output} (h : dispatch now e hub t = (hub', u, out)) :
    out.filterMap Output.effect? = [] := by
  rw [List.filterMap_eq_nil_iff]
  intro o ho
  obtain ⟨c, rfl, -⟩ := (dispatch_resets h).2 o ho
  rfl

/-- Effects take place one by one and in order, whoever listens. -/
theorem perform_effects (now : Nat) (effects : List Effect) (w : World) (hub : Hub) :
    (perform now effects w hub).2.2.filterMap Output.effect? = effects := by
  induction effects generalizing w hub with
  | nil => rfl
  | cons effect effects ih =>
    cases effect with
    | call c => exact congrArg (Effect.call c :: ·) (ih w hub)
    | log n => exact congrArg (Effect.log n :: ·) (ih w hub)
    | emit event =>
      obtain ⟨⟨hub', u, delivered⟩, hd⟩ : ∃ d, dispatch now event hub w.tracker = d := ⟨_, rfl⟩
      simp only [perform, hd, List.cons_append, List.filterMap_cons, Output.effect?,
        List.filterMap_append, dispatch_effects hd, List.nil_append, ih]

theorem Journal.effects_performed (now : Nat) (effects : List Effect) (w : World) (hub : Hub) :
    Journal.effects ((perform now effects w hub).2.2.map (now, ·)) = effects.map (now, ·) := by
  rw [← congrArg (List.map (now, ·)) (perform_effects now effects w hub), List.map_filterMap]
  exact List.filterMap_map

end Liveness

import Liveness.Proofs.Monitor.Life
/-!
# Subscribers that only listen

Handlers that never reset the totals change nothing of what a monitor knows, whatever else they do:
they register others of their kind, unregister, emit and panic. While all of them are like that,
effects take place in the world as it is, and every call shows just that world.
-/
namespace Liveness

/-- It never comes to a reset of the totals, whatever it is answered, and neither do the handlers that
it registers. -/
inductive Reaction.KeepsTotals : Reaction → Prop where
  | done : KeepsTotals .done
  | register {tag observes react next} : (∀ e, KeepsTotals (react e)) →
      (∀ id, KeepsTotals (next id)) → KeepsTotals (.register tag observes react next)
  | unregister {id next} : (∀ found, KeepsTotals (next found)) → KeepsTotals (.unregister id next)
  | count {next} : (∀ n, KeepsTotals (next n)) → KeepsTotals (.count next)
  | emit {e next} : KeepsTotals next → KeepsTotals (.emit e next)
  | load {cell next} : (∀ value, KeepsTotals (next value)) → KeepsTotals (.load cell next)
  | store {cell value next} : KeepsTotals next → KeepsTotals (.store cell value next)
  | panic {value} : KeepsTotals (.panic value)

def Handler.KeepsTotals (h : Handler) : Prop := ∀ e, (h.react e).KeepsTotals

def Hub.KeepsTotals (h : Hub) : Prop := ∀ p ∈ h.entries, p.2.KeepsTotals

namespace Hub.KeepsTotals

variable {hub : Hub}

theorem register (h : hub.KeepsTotals) {handler : Handler} (hh : handler.KeepsTotals) :
    (hub.register handler).1.KeepsTotals :=
  List.forall_mem_append.mpr ⟨h, by simpa using hh⟩

theorem unregister (h : hub.KeepsTotals) (id : HandlerId) :
    (hub.unregister id).1.KeepsTotals := by
  intro p hp
  exact h p (List.mem_filter.mp hp).1

end Hub.KeepsTotals

section Dispatch

variable {σ : Type} {reset : σ → σ} {emit : Event → Hub → σ → Option (Dispatch σ)}

theorem Dispatch.act_context
    (he : ∀ e hub x d, emit e hub x = some d → hub.KeepsTotals →
      d.hub.KeepsTotals ∧ d.context = x)
    {id : HandlerId} {tag : String} {kind : EventKind} {left : Reaction} {d d' : Dispatch σ}
    (h : act reset emit id tag kind left d = some d') (hl : left.KeepsTotals)
    (hd : d.hub.KeepsTotals) : d'.hub.KeepsTotals ∧ d'.context = d.context := by
  induction hl generalizing d with
  | done | panic =>
    cases h
    exact ⟨hd, rfl⟩
  | @register name observes react next hreact _ _ ih =>
    simp only [act] at h
    have hhub : (d.hub.register ⟨name, observes, react⟩).1.KeepsTotals := hd.register hreact
    have hrec := ih _ h hhub
    exact hrec
  | @unregister target next _ ih =>
    simp only [act] at h
    have hrec := ih _ h (hd.unregister target)
    exact hrec
  | count _ ih => exact ih _ h hd
  | emit _ ih =>
    simp only [act, Option.bind_eq_bind, Option.bind_eq_some_iff] at h
    obtain ⟨inner, hi, h⟩ := h
    obtain ⟨hhub, hcontext⟩ := he _ d.hub d.context inner hi hd
    obtain ⟨hlast, heq⟩ := ih h hhub
    exact ⟨hlast, heq.trans hcontext⟩
  | load _ ih => exact ih _ h hd
  | @store cell value _ _ ih =>
    simp only [act] at h
    have hrec := ih h hd
    exact hrec

theorem Dispatch.deliver_context
    (he : ∀ e hub x d, emit e hub x = some d → hub.KeepsTotals →
      d.hub.KeepsTotals ∧ d.context = x)
    {e : Event} {entries : List (HandlerId × Handler)} {d d' : Dispatch σ}
    (h : deliver reset emit e entries d = some d') (hentries : ∀ p ∈ entries, p.2.KeepsTotals)
    (hd : d.hub.KeepsTotals) (hl : ∀ o ∈ d.log, o.IsCall e (· = d.context)) :
    d'.hub.KeepsTotals ∧ d'.context = d.context ∧
      ∀ o ∈ d'.log, o.IsCall e (· = d.context) := by
  induction entries generalizing d with
  | nil =>
    cases h
    exact ⟨hd, rfl, hl⟩
  | cons entry entries ih =>
    obtain ⟨id, handler⟩ := entry
    obtain ⟨hfirst, hrest⟩ := List.forall_mem_cons.mp hentries
    simp only [deliver, Option.bind_eq_bind, Option.bind_eq_some_iff] at h
    obtain ⟨inner, hi, h⟩ := h
    obtain ⟨hhub, hcontext⟩ := act_context he hi (hfirst e) hd
    have hcall := ih h hrest hhub (by
      simp only [record, hcontext]
      refine List.forall_mem_append.mpr ⟨hl, ?_⟩
      intro o ho
      cases List.mem_singleton.mp ho
      exact ⟨rfl, rfl⟩)
    simpa only [record, hcontext] using hcall

theorem Hub.emit_context {depth : Nat} {e : Event} {hub : Hub} {x : σ} {d : Dispatch σ}
    (h : Hub.emit reset depth e hub x = some d) (hh : hub.KeepsTotals) :
    d.hub.KeepsTotals ∧ d.context = x ∧ ∀ o ∈ d.log, o.IsCall e (· = x) := by
  induction depth generalizing e hub x d with
  | zero => cases h
  | succ depth ih =>
    refine Dispatch.deliver_context ?_ h hh hh (by simp)
    intro e hub x d hd hk
    obtain ⟨hhub, hcontext, -⟩ := ih hd hk
    exact ⟨hhub, hcontext⟩

end Dispatch

theorem dispatch_listened {now : Nat} {e : Event} {hub hub' : Hub} {t u : Tracker}
    {out : List Output} (h : dispatch now e hub t = (hub', u, out)) (hh : hub.KeepsTotals) :
    hub'.KeepsTotals ∧ u = t ∧
      ∀ o ∈ out, ∃ c : Occurrence Tracker, o = .dispatched c ∧ c.IsCall e (· = t) := by
  unfold dispatch at h
  split at h
  · rename_i d hd
    cases h
    obtain ⟨hhub, hcontext, hl⟩ := Hub.emit_context hd hh
    refine ⟨hhub, hcontext, ?_⟩
    intro o ho
    obtain ⟨c, hm, rfl⟩ := List.mem_map.mp ho
    exact ⟨c, rfl, hl c hm⟩
  · cases h
    exact ⟨hh, rfl, by simp⟩

theorem perform_listened (now : Nat) (effects : List Effect) (w : World) {hub : Hub}
    (hh : hub.KeepsTotals) :
    (perform now effects w hub).1 = w ∧ (perform now effects w hub).2.1.KeepsTotals ∧
      ∀ o ∈ (perform now effects w hub).2.2, ∀ e t, o.shown? = some (e, t) → t = w.tracker := by
  have hidden {o : Output} {out : List Output} (hn : o.shown? = none)
      (h : ∀ p ∈ out, ∀ e t, p.shown? = some (e, t) → t = w.tracker) :
      ∀ p ∈ o :: out, ∀ e t, p.shown? = some (e, t) → t = w.tracker := by
    refine List.forall_mem_cons.mpr ⟨?_, h⟩
    intro e t hsh
    rw [hn] at hsh
    cases hsh
  induction effects generalizing hub with
  | nil => exact ⟨rfl, hh, by simp [perform]⟩
  | cons effect effects ih =>
    cases effect with
    | call c =>
      obtain ⟨hw, hhub, hshown⟩ := ih hh
      simp only [perform]
      exact ⟨hw, hhub, hidden rfl hshown⟩
    | log n =>
      obtain ⟨hw, hhub, hshown⟩ := ih hh
      simp only [perform]
      exact ⟨hw, hhub, hidden rfl hshown⟩
    | emit event =>
      obtain ⟨⟨hub', u, delivered⟩, hd⟩ : ∃ d, dispatch now event hub w.tracker = d := ⟨_, rfl⟩
      obtain ⟨hhub', rfl, hcalls⟩ := dispatch_listened hd hh
      obtain ⟨hw, hhub, hshown⟩ := ih hhub'
      simp only [perform, hd]
      refine ⟨hw, hhub, ?_⟩
      intro o ho e t hsh
      rcases List.mem_append.mp ho with ho | ho
      · rcases List.mem_cons.mp ho with rfl | ho
        · cases hsh
          rfl
        · obtain ⟨c, rfl, hc⟩ := hcalls o ho
          obtain ⟨v, hv, rfl⟩ := hc.shown
          rw [hv] at hsh
          cases hsh
          rfl
      · exact hshown o ho e t hsh

namespace Monitor

theorem enact_listened {m : Monitor} (w : World) (effects : List Effect) (runner : Runner)
    (hh : m.hub.KeepsTotals) :
    (m.enact w effects runner).1.world = w ∧ (m.enact w effects runner).1.hub.KeepsTotals ∧
      ∀ p ∈ (m.enact w effects runner).2, ∀ e t, p.2.shown? = some (e, t) → t = w.tracker := by
  obtain ⟨hw, hhub, hshown⟩ := perform_listened m.now effects w hh
  refine ⟨hw, hhub, ?_⟩
  intro p hp e t hsh
  obtain ⟨o, ho, rfl⟩ := List.mem_map.mp hp
  exact hshown o ho e t hsh

theorem new_hub {s : Settings} {b : Backend} {e : Entropy} {levels : Nat} {m : Monitor}
    (h : Monitor.new s b e levels = .ok m) : m.hub = .empty levels := by
  unfold new at h
  cases hc : s.check with
  | error fault => simp [hc, bind, Except.bind] at h
  | ok _ =>
    simp only [hc, bind, Except.bind, pure, Except.pure, Except.ok.injEq] at h
    subst h
    rfl

/-- What a move does to the subscribers before any of them is called. -/
def Move.admits : Move → Hub → Hub
  | .register h, hub => (hub.register h).1
  | .unregister id, hub => (hub.unregister id).1
  | _, hub => hub

/-- What a move shows is the enactment of some effects; one that shows nothing calls nobody. -/
theorem next_enacts (m : Monitor) (move : Move) :
    ((m.next move).2 = [] ∧ (m.next move).1.hub = move.admits m.hub) ∨
    ∃ w effects runner, m.next move = m.enact w effects runner := by
  cases move with
  | turn =>
    cases hr : m.runner with
    | live l =>
      simp only [next, turn, hr]
      cases l.step m.settings m.now m.world with
      | none => exact Or.inl ⟨rfl, rfl⟩
      | some t => exact Or.inr ⟨_, _, _, rfl⟩
    | severed l =>
      simp only [next, turn, hr]
      exact Or.inr ⟨_, _, _, rfl⟩
    | _ =>
      simp only [next, turn, hr]
      exact Or.inl ⟨rfl, rfl⟩
  | start =>
    cases hr : m.runner with
    | live l => exact Or.inl (by simp [next, start, hr, Move.admits])
    | severed l => exact Or.inl (by simp [next, start, hr, Move.admits])
    | _ =>
      simp only [next, start, hr]
      exact Or.inr
        ⟨m.world, [.log (.monitoringStarted m.settings.interval)], .live .unstarted, rfl⟩
  | stop =>
    cases hr : m.runner with
    | idle => exact Or.inl (by simp [next, stop, hr, Move.admits])
    | severed l => exact Or.inl (by simp [next, stop, hr, Move.admits])
    | live l =>
      simp only [next, stop, hr]
      exact Or.inr ⟨_, _, _, rfl⟩
    | ended panicked =>
      simp only [next, stop, hr]
      exact Or.inr ⟨m.world, farewell panicked, .idle, rfl⟩
  | _ => exact Or.inl ⟨rfl, rfl⟩

theorem next_shown {m : Monitor} {move : Move} (hh : m.hub.KeepsTotals) :
    ∀ p ∈ (m.next move).2, ∀ e t, p.2.shown? = some (e, t) → t = (m.next move).1.tracker := by
  rcases next_enacts m move with ⟨hnone, -⟩ | ⟨w, effects, runner, henact⟩
  · simp [hnone]
  · obtain ⟨hw, -, hshown⟩ := enact_listened w effects runner hh
    rw [henact]
    unfold tracker
    rw [hw]
    exact hshown

def Move.KeepsTotals : Move → Prop
  | .reset => False
  | .register h => h.KeepsTotals
  | _ => True

theorem next_listened {m : Monitor} {move : Move} (hh : m.hub.KeepsTotals)
    (hm : move.KeepsTotals) : (m.next move).1.hub.KeepsTotals := by
  rcases next_enacts m move with ⟨-, hhub⟩ | ⟨w, effects, runner, henact⟩
  · rw [hhub]
    cases move with
    | register h => exact hh.register hm
    | unregister id => exact hh.unregister id
    | _ => exact hh
  · rw [henact]
    exact (enact_listened w effects runner hh).2.1

end Monitor

end Liveness

import Liveness.Proofs.Hub.FanOut
import Liveness.Proofs.Monitor.Course
import Liveness.Proofs.Monitor.Listeners
/-!
# No event is lost

An event reaches nobody if its handlers go on emitting deeper than the hub has levels. Handlers that
do not emit in circles leave no room for that, where the hub has more levels than there are ranks of
events. Then each event of a loop is followed at once by its deliveries, which go to the handlers
that are registered when it is emitted.
-/
namespace Liveness

variable {rank : Event → Nat}

namespace Hub

theorem Goes.levels_eq {σ : Type} {reset : σ → σ} {job : Job} {hub hub' : Hub} {x x' : σ}
    {log : List (Occurrence σ)} (h : Goes reset job hub x log hub' x') :
    hub'.levels = hub.levels := by
  induction h with
  | delivered | done | panics => rfl
  | delivers _ _ ihinside ihrest => exact ihrest.trans ihinside
  | emits _ _ ihdeliveries ihrest => exact ihrest.trans ihdeliveries
  | registers _ ih | unregisters _ ih | stores _ ih => exact ih
  | counts _ ih | loads _ ih | resets _ ih => exact ih

/-- Every event has its dispatch, however the handlers react. -/
structure Serves (rank : Event → Nat) (hub : Hub) : Prop where
  reachable : hub.Reachable
  descends : hub.Descends rank
  room : ∀ e, rank e < hub.levels

namespace Serves

variable {hub : Hub}

theorem register (h : hub.Serves rank) {handler : Handler}
    (hh : ∀ e, (handler.react e).Descends rank (rank e)) :
    (hub.register handler).1.Serves rank :=
  ⟨h.reachable.register handler, h.descends.register hh, h.room⟩

theorem unregister (h : hub.Serves rank) (id : HandlerId) : (hub.unregister id).1.Serves rank :=
  ⟨h.reachable.unregister id, h.descends.unregister id, h.room⟩

theorem dispatches (h : hub.Serves rank) (now : Nat) (e : Event) (t : Tracker) :
    ∃ d : Dispatch Tracker,
      dispatch now e hub t = (d.hub, d.context, d.log.map .dispatched) ∧
      Goes (·.resetTally (instantAt now)) (.deliver e hub.entries) hub t d.log d.hub d.context ∧
      d.hub.Serves rank := by
  obtain ⟨d, hd, hdescends⟩ :=
    emit_result (fun t : Tracker => t.resetTally (instantAt now)) (h.room e) h.descends t
  have hgoes := emit_goes hd
  refine ⟨d, by simp only [dispatch, hd], hgoes, hgoes.reachable h.reachable, hdescends, ?_⟩
  rw [hgoes.levels_eq]
  exact h.room

end Serves

/-- Outputs in which each event is followed by what comes of it at the hub of that moment. -/
inductive Tells (now : Nat) : Hub → List Output → Hub → Prop where
  | nothing {hub} : Tells now hub [] hub
  | call {hub hub' c out} : Tells now hub out hub' → Tells now hub (.call c :: out) hub'
  | log {hub hub' n out} : Tells now hub out hub' → Tells now hub (.log n :: out) hub'
  | emitted {hub hub₁ hub₂ e t u deliveries out} :
      Goes (·.resetTally (instantAt now)) (.deliver e hub.entries) hub t deliveries hub₁ u →
      Tells now hub₁ out hub₂ →
      Tells now hub (.emitted e t :: deliveries.map .dispatched ++ out) hub₂

variable {now : Nat} {hub hub' : Hub}

theorem Serves.performs (h : hub.Serves rank) (now : Nat) (effects : List Effect) (w : World) :
    Tells now hub (perform now effects w hub).2.2 (perform now effects w hub).2.1 ∧
      (perform now effects w hub).2.1.Serves rank := by
  induction effects generalizing w hub with
  | nil => exact ⟨.nothing, h⟩
  | cons effect effects ih =>
    cases effect with
    | call c => exact (ih h w).imp_left .call
    | log n => exact (ih h w).imp_left .log
    | emit event =>
      obtain ⟨d, hd, hgoes, hserves⟩ := h.dispatches now event w.tracker
      simp only [perform, hd]
      exact (ih hserves _).imp_left (.emitted hgoes)

theorem perform_levels (now : Nat) (effects : List Effect) (w : World) (hub : Hub) :
    (perform now effects w hub).2.1.levels = hub.levels := by
  induction effects generalizing w hub with
  | nil => rfl
  | cons effect effects ih =>
    cases effect with
    | call c => exact ih w hub
    | log n => exact ih w hub
    | emit event =>
      simp only [perform, ih]
      unfold dispatch
      split
      · rename_i d hd
        exact (emit_goes hd).levels_eq
      · rfl

/-- The first event goes to the handlers that were there from the beginning. -/
theorem Tells.first {before after out : List Output} {e : Event} {t : Tracker}
    (h : Tells now hub out hub') (hout : out = before ++ .emitted e t :: after)
    (hbefore : before.filterMap Output.mark? = []) :
    ∃ deliveries hub₁ u rest,
      Goes (·.resetTally (instantAt now)) (.deliver e hub.entries) hub t deliveries hub₁ u ∧
      after = deliveries.map .dispatched ++ rest := by
  induction h generalizing before with
  | nothing => simp at hout
  | call _ ih =>
    cases before with
    | nil => cases hout
    | cons o before =>
      obtain ⟨rfl, hrest⟩ := List.cons.inj hout
      exact ih hrest hbefore
  | log _ ih =>
    cases before with
    | nil => cases hout
    | cons o before =>
      obtain ⟨rfl, hrest⟩ := List.cons.inj hout
      refine ih hrest ?_
      rw [List.filterMap_eq_nil_iff] at hbefore ⊢
      exact fun o ho => hbefore o (List.mem_cons_of_mem _ ho)
  | emitted hgoes _ _ =>
    cases before with
    | nil =>
      cases hout
      exact ⟨_, _, _, _, hgoes, rfl⟩
    | cons o before =>
      obtain ⟨rfl, -⟩ := List.cons.inj hout
      simp [Output.mark?] at hbefore

end Hub

namespace Monitor

variable {s : Settings} {m : Monitor} {move : Move} {steps : List (Monitor × Move)} {j : Journal}

/-- The move registers no handler that emits in circles. -/
def Move.Descends (rank : Event → Nat) : Move → Prop
  | .register h => ∀ e, (h.react e).Descends rank (rank e)
  | _ => True

theorem next_serves (h : m.hub.Serves rank) (hm : move.Descends rank) :
    (m.next move).1.hub.Serves rank := by
  rcases next_enacts m move with ⟨-, hhub⟩ | ⟨w, effects, runner, henact⟩
  · rw [hhub]
    cases move with
    | register handler => exact h.register hm
    | unregister id => exact h.unregister id
    | _ => exact h
  · rw [henact]
    exact (h.performs m.now effects w).2

/-- A move emits one event at most. -/
theorem Moved.emitted_first {m' : Monitor} {before after : Journal} {time : Nat} {e : Event}
    {t : Tracker} (h : Moved m m' j) (hj : j = before ++ (time, .emitted e t) :: after) :
    Journal.marks before = [] := by
  have hmem : (time, Output.emitted e t) ∈ j := by simp [hj]
  cases h with
  | keeps => cases hmem
  | begins _ he => simpa using (he.shown _ hmem e t rfl).1
  | ends _ _ _ he => simpa using (he.shown _ hmem e t rfl).1
  | @progresses l u event next _ hl hp he =>
    obtain rfl := eq_of_mem_announcing (he.shown _ hmem e t rfl).1
    rcases he.split hj with ⟨hb, -⟩ | ⟨-, ha⟩
    · exact hb
    · cases ha

/-- Whatever a move announces goes to the handlers that the monitor has. -/
theorem next_delivers (h : m.hub.Serves rank) (he : m.Enabled move) {before after : Journal}
    {time : Nat} {e : Event} {t : Tracker}
    (hj : (m.next move).2 = before ++ (time, .emitted e t) :: after) :
    ∃ deliveries hub u rest,
      Hub.Goes (·.resetTally (instantAt m.now)) (.deliver e m.hub.entries) m.hub t
        deliveries hub u ∧
      after = deliveries.map (fun o => (m.now, .dispatched o)) ++ rest := by
  have hfirst := (moved he).emitted_first hj
  rcases next_enacts m move with ⟨hnone, -⟩ | ⟨w, effects, runner, henact⟩
  · simp [hnone] at hj
  · rw [henact] at hj
    obtain ⟨shown, following, hout, rfl, hfollowing⟩ := List.map_eq_append_iff.mp hj
    obtain ⟨o, out, rfl, ho, rfl⟩ := List.map_eq_cons_iff.mp hfollowing
    cases ho
    have hbefore : shown.filterMap Output.mark? = [] := by
      simpa [Journal.marks, List.filterMap_map, List.filterMap_eq_nil_iff] using hfirst
    obtain ⟨deliveries, hub, u, rest, hgoes, rfl⟩ :=
      (h.performs m.now effects w).1.first hout hbefore
    exact ⟨deliveries, hub, u, rest.map (m.now, ·), hgoes, by simp⟩

theorem next_levels (m : Monitor) (move : Move) :
    (m.next move).1.hub.levels = m.hub.levels := by
  rcases next_enacts m move with ⟨-, hhub⟩ | ⟨w, effects, runner, henact⟩
  · rw [hhub]
    cases move <;> rfl
  · rw [henact]
    exact Hub.perform_levels m.now effects w m.hub

/-- If the handlers of a monitor never emit in circles, and its hub has a level for every rank, then
each event that a loop emits has gone, before anything else happens, to the handlers that were
registered then: to each of them once, and with all that they do. -/
theorem Course.no_event_lost (h : Course s steps j m) (hroom : ∀ e, rank e < m.hub.levels)
    (hm : ∀ p ∈ steps, p.2.Descends rank) :
    m.hub.Serves rank ∧
    ∀ p ∈ steps, ∀ before time e t after,
      (p.1.next p.2).2 = before ++ (time, .emitted e t) :: after →
      ∃ (deliveries : List (Occurrence Tracker)) (hub : Hub) (u : Tracker) (rest : Journal),
        p.1.hub.Snapshot e deliveries ∧
        Hub.Goes (·.resetTally (instantAt p.1.now)) (.deliver e p.1.hub.entries) p.1.hub t
          deliveries hub u ∧
        after = deliveries.map (fun o => (p.1.now, .dispatched o)) ++ rest := by
  induction h with
  | new hn =>
    rw [new_hub hn] at hroom ⊢
    exact ⟨⟨.empty _, .empty _ _, hroom⟩, by simp⟩
  | @move steps j m move _ he ih =>
    obtain ⟨hbefore, hlast⟩ := List.forall_mem_append.mp hm
    -- no move changes the levels, so there was room before it as well
    rw [next_levels] at hroom
    obtain ⟨hserves, hall⟩ := ih hroom hbefore
    refine ⟨next_serves hserves (hlast _ (List.mem_singleton_self _)), ?_⟩
    refine List.forall_mem_append.mpr ⟨hall, ?_⟩
    intro p hp before time e t after hj
    cases List.mem_singleton.mp hp
    obtain ⟨deliveries, hub, u, rest, hgoes, hafter⟩ := next_delivers hserves he hj
    exact ⟨deliveries, hub, u, rest, hgoes.snapshot hserves.reachable, hgoes, hafter⟩

end Monitor

end Liveness

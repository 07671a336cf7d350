import Liveness.Proofs.Monitor.DeliveredStatus
import Liveness.Proofs.Monitor.Records
/-!
# The books of a monitor

The counters of a monitor can be checked against its course. As long as nobody resets them they
count the checks that have ended and the events of episodes that have been announced, whenever one
looks at them, and so also while an event is delivered.
-/
namespace Liveness

open Tracker (results told)

def EmittedFirst (out : List Output) : Prop :=
  ∀ before o after, out = before ++ o :: after → ∀ e t, o.shown? = some (e, t) →
    .announced e ∈ (before ++ [o]).filterMap Output.mark?

theorem EmittedFirst.append {out rest : List Output} (h : EmittedFirst out)
    (k : EmittedFirst rest) : EmittedFirst (out ++ rest) := by
  intro before o after hsplit e t ho
  rcases split_append hsplit with ⟨more, hx⟩ | ⟨pre, rfl, hy⟩
  · exact h before o more hx e t ho
  · rw [List.append_assoc, List.filterMap_append]
    exact List.mem_append_right _ (k pre o after hy e t ho)

theorem emittedFirst_hidden {o : Output} (h : o.shown? = none) : EmittedFirst [o] := by
  intro before o' after hsplit e t ho
  have hmem : o' ∈ [o] := by simp [hsplit]
  rw [List.mem_singleton.mp hmem, h] at ho
  cases ho

theorem emittedFirst_emission {event : Event} {t : Tracker} {delivered : List Output}
    (h : ∀ o ∈ delivered, ∀ e u, o.shown? = some (e, u) → e = event) :
    EmittedFirst (.emitted event t :: delivered) := by
  intro before o after hsplit e u ho
  have hevent : e = event := by
    have hmem : o ∈ Output.emitted event t :: delivered := by simp [hsplit]
    rcases List.mem_cons.mp hmem with rfl | hmem
    · cases ho
      rfl
    · exact h o hmem e u ho
  have hfirst : Output.emitted event t ∈ before ++ [o] := by
    cases before with
    | nil =>
      cases hsplit
      exact List.mem_singleton_self _
    | cons b before =>
      cases hsplit
      exact List.mem_cons_self
  exact List.mem_filterMap.mpr ⟨_, hfirst, by rw [hevent]; rfl⟩

theorem perform_emittedFirst (now : Nat) (effects : List Effect) (w : World) (hub : Hub) :
    EmittedFirst (perform now effects w hub).2.2 := by
  induction effects generalizing w hub with
  | nil =>
    intro before o after hsplit
    simp [perform] at hsplit
  | cons effect effects ih =>
    cases effect with
    | call c => exact (emittedFirst_hidden rfl).append (ih w hub)
    | log n => exact (emittedFirst_hidden rfl).append (ih w hub)
    | emit event =>
      obtain ⟨⟨hub', u, delivered⟩, hd⟩ : ∃ d, dispatch now event hub w.tracker = d := ⟨_, rfl⟩
      obtain ⟨-, hcalls⟩ := dispatch_resets hd
      simp only [perform, hd]
      refine (emittedFirst_emission ?_).append (ih { w with tracker := u } hub')
      intro o ho e t hsh
      obtain ⟨c, rfl, hc⟩ := hcalls o ho
      obtain ⟨v, hv, -⟩ := hc.shown
      rw [hv] at hsh
      cases hsh
      rfl

section Idle

variable {s : Settings} {rule : EpisodeRule} {now : Nat} {t u : Tracker} {event : Event}

/-- Events are announced between the checks. -/
theorem Episode.Progress.announces_idle {e : Episode} {next : Episode.Next}
    (h : Progress rule now e t u (some event) next) : next.check? = none := by
  cases h <;> rfl

theorem ControlLoop.Progress.announces_idle {l : ControlLoop} {next : ControlLoop.Next}
    (h : Progress s now l t u (some event) next) : next.check? = none := by
  cases h with
  | rises => rfl
  | falls =>
    by_cases ha : s.autoReconnect = true
    · rw [if_pos ha]
      rfl
    · rw [if_neg ha]
      rfl
  | continues he => exact he.announces_idle
  | leaves he => rfl
  | breaks he => rfl

end Idle

namespace Monitor

variable {s : Settings} {steps : List (Monitor × Move)} {j : Journal} {m : Monitor}

theorem next_emittedFirst {move : Move} {before after : Journal} {time : Nat} {o : Output}
    {e : Event} {t : Tracker} (hj : (m.next move).2 = before ++ (time, o) :: after)
    (ho : o.shown? = some (e, t)) : ∃ p ∈ Journal.marks (before ++ [(time, o)]),
      p.2 = .announced e := by
  rcases next_enacts m move with ⟨hnone, -⟩ | ⟨w, effects, runner, henact⟩
  · simp [hnone] at hj
  · rw [henact] at hj
    obtain ⟨out, rest, hout, hbefore, hrest⟩ := List.map_eq_append_iff.mp hj
    obtain ⟨o', out', rfl, ho', -⟩ := List.map_eq_cons_iff.mp hrest
    cases ho'
    have hmem := perform_emittedFirst m.now effects w m.hub out o out' hout e t ho
    obtain ⟨first, hfirst, hmark⟩ := List.mem_filterMap.mp hmem
    refine ⟨(m.now, .announced e), ?_, rfl⟩
    refine List.mem_filterMap.mpr ⟨(m.now, first), ?_, by simp [hmark]⟩
    rw [← hbefore]
    simpa using hfirst

/-- An event that is shown is the last that the move announces, and no check is in flight then. -/
theorem Moved.shown_last {m' : Monitor} {before after : Journal} {time : Nat} {o : Output}
    {e : Event} {t : Tracker} (hm : Moved m m' j) (hj : j = before ++ (time, o) :: after)
    (ho : o.shown? = some (e, t))
    (hfirst : ∃ p ∈ Journal.marks (before ++ [(time, o)]), p.2 = .announced e) :
    Journal.announced j = Journal.announced (before ++ [(time, o)]) ∧ m'.inFlight = 0 := by
  have hmem : (time, o) ∈ j := by simp [hj]
  cases hm with
  | keeps => cases hmem
  | begins _ he => simpa using (he.shown _ hmem e t ho).1
  | ends _ _ _ he => simpa using (he.shown _ hmem e t ho).1
  | @progresses l u event next _ hl hp he =>
    obtain rfl := eq_of_mem_announcing (he.shown _ hmem e t ho).1
    have hidle : m'.runner.check? = none := by
      have hnext := hp.announces_idle
      rw [he.runner]
      cases next with
      | going l' => exact hnext
      | _ => rfl
    refine ⟨?_, by simp [inFlight, hidle]⟩
    -- the one mark of this move is not left for what comes after
    have hsplit : j = before ++ [(time, o)] ++ after := by simp [hj]
    have hafter : Journal.marks after = [] := by
      rcases he.split hsplit with ⟨hb, -⟩ | ⟨-, ha⟩
      · obtain ⟨p, hp, -⟩ := hfirst
        rw [hb] at hp
        cases hp
      · exact ha
    rw [hsplit, Journal.announced_append]
    simp [Journal.announced, hafter]

structure Accounts (steps : List (Monitor × Move)) (j : Journal) (inFlight : Nat)
    (tally : Tally) : Prop where
  probes : tally.probes = tally.successes + tally.failures
  begun : (checkTurns steps).count .begun =
    tally.probes + inFlight + (checkTurns steps).count .cut
  successes : tally.successes = (checkResults steps).countP succeeded
  failures : tally.failures = (checkResults steps).countP failed
  episodes : tally.episodes = (Journal.announced j).count .reconnectStarted
  recoveries : tally.recoveries = (Journal.announced j).count .reconnectSuccess
  abandoned : tally.abandoned = (Journal.announced j).count .reconnectAbandoned

namespace Course

theorem accounts (h : Course s steps j m) (hk : ∀ p ∈ steps, p.2.KeepsTotals)
    (hb : ∀ p ∈ steps, p.1.world.backend.NeverPanics) :
    Accounts steps j m.inFlight m.tracker.tally := by
  obtain ⟨ops, hrun, hresults, htold, hkept⟩ := h.records
  have hcounts := Tracker.run_counts hrun
  rw [Tracker.sinceReset_eq_self (hkept hk)] at hcounts
  have hbalance := h.balance
  rw [List.count_eq_zero.mpr (h.none_crashed hb)] at hbalance
  obtain ⟨hprobes, hsuccesses, hfailures, hepisodes, hrecoveries, habandoned⟩ := hcounts
  have counted {kind : EventKind} (hkind : kind.isReconnect = true) :
      (told ops).count kind = (Journal.announced j).count kind := by
    rw [htold]
    exact List.count_filter hkind
  have split_results : (checkResults steps).length =
      (checkResults steps).countP succeeded + (checkResults steps).countP failed := by
    rw [List.length_eq_countP_add_countP succeeded]
    congr 2
    funext result
    simp [failed]
  rw [hresults] at hprobes hsuccesses hfailures
  constructor
  · omega
  · omega
  · exact hsuccesses
  · exact hfailures
  · rw [hepisodes, counted rfl]
  · rw [hrecoveries, counted rfl]
  · rw [habandoned, counted rfl]

/-- Checks and episodes are accounted for, now and at every delivery in the move to come: the
tracker that is seen there counts the event that is being delivered. -/
theorem books_balance (h : Course s steps j m) (hk : ∀ p ∈ steps, p.2.KeepsTotals)
    (hb : ∀ p ∈ steps, p.1.world.backend.NeverPanics) :
    Accounts steps j m.inFlight m.tracker.tally ∧
      ∀ move, m.Enabled move → move.KeepsTotals → m.world.backend.NeverPanics →
        ∀ before time o after e t, (m.next move).2 = before ++ (time, o) :: after →
          o.shown? = some (e, t) →
          Accounts (steps ++ [(m, move)]) (j ++ (before ++ [(time, o)])) 0 t.tally := by
  refine ⟨h.accounts hk hb, ?_⟩
  intro move he hmove hbackend before time o after e t hj ho
  have hk' : ∀ p ∈ steps ++ [(m, move)], p.2.KeepsTotals :=
    List.forall_mem_append.mpr ⟨hk, by simpa using hmove⟩
  have hb' : ∀ p ∈ steps ++ [(m, move)], p.1.world.backend.NeverPanics :=
    List.forall_mem_append.mpr ⟨hb, by simpa using hbackend⟩
  have haccounts := (h.move move he).accounts hk' hb'
  obtain ⟨hannounced, hidle⟩ := (moved he).shown_last hj ho (next_emittedFirst hj ho)
  have ht : t = (m.next move).1.tracker :=
    next_shown (h.listened hk) (time, o) (by simp [hj]) e t ho
  have hsame : Journal.announced (j ++ (m.next move).2) =
      Journal.announced (j ++ (before ++ [(time, o)])) := by
    rw [Journal.announced_append, Journal.announced_append, hannounced]
  rw [hidle] at haccounts
  rw [ht]
  obtain ⟨hprobes, hbegun, hsuccesses, hfailures, hepisodes, hrecoveries, habandoned⟩ := haccounts
  rw [hsame] at hepisodes hrecoveries habandoned
  exact ⟨hprobes, hbegun, hsuccesses, hfailures, hepisodes, hrecoveries, habandoned⟩

end Course

/-- The loop is stopped in its first attempt, while somebody listens, and started again. -/
def cutAttempt : List Move :=
  [.register ⟨"observer", true, fun _ => .done⟩, .start, .turn, .turn, .turn, .turn, .turn, .pass 1,
    .turn, .pass 2, .stop, .pass 3, .start, .turn, .turn]

theorem cutAttempt_keepsTotals : ∀ move ∈ cutAttempt, move.KeepsTotals := by
  simp [cutAttempt, Move.KeepsTotals, Handler.KeepsTotals, Reaction.KeepsTotals.done]

/-- One check has ended, one has been cut off, and the one in flight is counted when its success is
delivered. -/
theorem Course.books_balance_cut : ∃ steps j m before time o e t,
    Course eagerSettings steps j m ∧ (checkTurns steps).count .cut = 1 ∧ m.inFlight = 1 ∧
    m.tracker.tally.probes = 1 ∧ Accounts steps j 1 m.tracker.tally ∧
    (m.next .turn).2 = before ++ (time, o) :: [] ∧ o.shown? = some (e, t) ∧ e.kind = .healthy ∧
    t.tally.probes = 2 ∧
    Accounts (steps ++ [(m, .turn)]) (j ++ (before ++ [(time, o)])) 0 t.tally := by
  obtain ⟨steps, j, m, hc, hmoves, hb, hbackend, hcut, hflight, hprobes, hlast⟩ :=
    Course.of_follow eagerSettings slowToRecover default 1 cutAttempt
      (fun steps _ m => (∀ p ∈ steps, p.1.world.backend.NeverPanics) ∧
        m.world.backend.NeverPanics ∧ (checkTurns steps).count .cut = 1 ∧ m.inFlight = 1 ∧
        m.tracker.tally.probes = 1 ∧ ((m.next .turn).2.getLast?.bind fun q =>
          q.2.shown?.map fun shown => (shown.1.kind, shown.2.tally.probes)) = some (.healthy, 2))
      (by decide +kernel)
  obtain ⟨⟨time, o⟩, hq, hshown⟩ := Option.bind_eq_some_iff.mp hlast
  obtain ⟨⟨e, t⟩, ho, hkind⟩ := Option.map_eq_some_iff.mp hshown
  obtain ⟨hkind, hcounted⟩ := Prod.mk.inj hkind
  obtain ⟨before, hbefore⟩ := List.getLast?_eq_some_iff.mp hq
  have hk := cutAttempt_keepsTotals
  rw [← hmoves, List.forall_mem_map] at hk
  obtain ⟨haccounts, hdelivery⟩ := hc.books_balance hk hb
  rw [hflight] at haccounts
  have hnext := hdelivery .turn trivial trivial hbackend before time o [] e t hbefore ho
  exact ⟨steps, j, m, before, time, o, e, t, hc, hcut, hflight, hprobes, haccounts, hbefore, ho,
    hkind, hcounted, hnext⟩

end Monitor

end Liveness

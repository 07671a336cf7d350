import Liveness.Proofs.Monitor.Records
/-!
# Cancellation comes from outside

A target can report a cancellation like any other error, and nothing is cancelled by that. Against a
target that does not panic a check has a result of its own, an episode ends with a recovery or is
given up, and a loop records every result and goes on, for as long as nobody stops it.
-/
namespace Liveness

open Tracker (Run Orderly results)

namespace Monitor

variable {s : Settings} {steps : List (Monitor × Move)} {j : Journal} {m : Monitor}

def LeavesEpisode (m : Monitor) (e : Episode) : Prop :=
  ∃ turn n, e.step m.settings.episodeRule m.now m.world = some turn ∧
    (turn.next = .ended (.recovered n) ∨ turn.next = .ended (.abandoned n))

theorem next_reconnecting {move : Move} {e : Episode} (hs : m.runner.Safe) (ht : m.OnTime)
    (hr : m.runner = .live (.reconnecting e)) (hstop : move ≠ .stop) (hdrop : move ≠ .drop) :
    (∃ e', (m.next move).1.runner = .live (.reconnecting e')) ∨
      move = .turn ∧ m.LeavesEpisode e := by
  have stays {m' : Monitor} (h : m'.runner = m.runner) :
      ∃ e', m'.runner = .live (.reconnecting e') := ⟨e, h.trans hr⟩
  cases move with
  | turn =>
    cases hstep : e.step m.settings.episodeRule m.now m.world with
    | none =>
      refine Or.inl (stays ?_)
      simp [next, turn, hr, ControlLoop.step, hstep]
    | some turn =>
      obtain ⟨event, hp, -⟩ := Episode.progress_of_step hstep
      cases hn : turn.next with
      | going e' =>
        refine Or.inl ⟨e', ?_⟩
        simp [next, Monitor.turn, hr, ControlLoop.step_reconnecting, hstep, Turn.map, hn, enact,
          ControlLoop.afterEpisode]
      | ended o =>
        refine Or.inr ⟨rfl, turn, ?_⟩
        rw [hn] at hp ⊢
        cases o with
        | recovered n => exact ⟨n, hstep, Or.inl rfl⟩
        | abandoned n => exact ⟨n, hstep, Or.inr rfl⟩
        | cancelled => exact absurd rfl hp.ended_ne_cancelled
      | crashed c =>
        unfold OnTime at ht
        rw [hr] at ht
        obtain ⟨-, hcrash⟩ := hp.onTime ht
        exact (hcrash c hn (hs _ hr)).elim
  | start =>
    refine Or.inl (stays ?_)
    simp [next, start, hr]
  | stop => exact (hstop rfl).elim
  | drop => exact (hdrop rfl).elim
  | _ => exact Or.inl (stays rfl)

namespace Course

theorem uncancelled (h : Course s steps j m) : .error .cancelled ∉ checkResults steps := by
  induction h with
  | new => simp [checkResults, checkTurns]
  | @move steps j m move hc _ ih =>
    rw [checkResults_append_singleton, List.mem_append]
    rintro (hmem | hmem)
    · exact ih hmem
    · obtain ⟨turn, hturn, hresult⟩ := Option.bind_eq_some_iff.mp (Option.mem_toList.mp hmem)
      cases turn with
      | ended result =>
        cases hresult
        exact checkTurn_ne_cancelled m move hturn
      | _ => cases hresult

/-- What the target reports, if it does not panic, ends no check as cancelled, no episode and no
loop, and no result is lost: only a cancellation from outside does that. -/
theorem cancelled_from_outside (h : Course s steps j m)
    (hb : ∀ p ∈ steps, p.1.world.backend.NeverPanics) :
    (∀ rule now (b : Backend), b.NeverPanics → ∃ result,
      (Check.run rule none now b).result = .ok result ∧ result ≠ .error .cancelled) ∧
    (∀ rule cancel now (b : Backend), b.NeverPanics → ∃ result,
      (Check.run rule cancel now b).result = .ok result ∧ (result = .error .cancelled →
        ∃ cut ∈ cancel, cut.time ≤ (Check.run rule cancel now b).finishedAt)) ∧
    (∀ rule cancel now w hub, (Episode.run rule cancel now w hub).outcome = .ok .cancelled →
      ∃ cut ∈ cancel, cut.time ≤ (Episode.run rule cancel now w hub).finishedAt) ∧
    (∀ rule cancel hub, m.world.backend.NeverPanics →
      ∃ outcome, (Episode.run rule cancel m.now m.world hub).outcome = .ok outcome) ∧
    (∃ ops, Run Orderly (.new s.failureThreshold s.successThreshold) ops m.tracker ∧
      results ops = checkResults steps ∧ .error .cancelled ∉ results ops) ∧
    ∀ move, m.isRunning = true → move ≠ .stop → move ≠ .drop →
      (m.next move).1.isRunning = true ∧ ∀ e, m.runner = .live (.reconnecting e) →
        (∃ e', (m.next move).1.runner = .live (.reconnecting e')) ∨
          move = .turn ∧ m.LeavesEpisode e := by
  have hsafe := h.safe hb
  have htime := h.life.onTime
  refine ⟨?_, ?_, ?_, ?_, ?_, ?_⟩
  · intro rule now b hb
    obtain ⟨result, hresult, honly⟩ := Check.run_result rule none now hb
    refine ⟨result, hresult, ?_⟩
    intro hcancelled
    obtain ⟨cut, hnone, -⟩ := honly hcancelled
    cases hnone
  · intro rule cancel now b hb
    exact Check.run_result rule cancel now hb
  · intro rule cancel now w hub
    exact (Episode.run_outcome rule cancel now w hub).1
  · intro rule cancel hub hb
    exact (Episode.run_outcome rule cancel m.now m.world hub).2 hb htime.fresh
  · obtain ⟨ops, hrun, hresults, -, -⟩ := h.records
    refine ⟨ops, hrun, hresults, ?_⟩
    rw [hresults]
    exact h.uncancelled
  · intro move hrunning hstop hdrop
    refine ⟨next_running hsafe htime hrunning hstop hdrop, ?_⟩
    intro e he
    exact next_reconnecting hsafe htime he hstop hdrop

end Course

def failedAttempt : List Move :=
  [.start, .turn, .turn, .turn, .turn, .turn, .pass 1, .turn, .turn]

/-- The target reports a cancellation twice. Both are recorded as failures, and the loop goes on. -/
theorem Course.cancelled_from_outside_reported : ∃ steps j m ops result,
    Course eagerSettings steps j m ∧
    checkResults steps =
      [.error (.collaborator "Cancelled"), .error (.collaborator "Cancelled")] ∧
    Run Orderly (.new 1 1) ops m.tracker ∧ results ops = checkResults steps ∧
    (Check.run eagerSettings.checkRule none m.now m.world.backend).result = .ok result ∧
    result ≠ .error .cancelled ∧ m.isReconnecting = true ∧
    (m.next .turn).1.isRunning = true := by
  obtain ⟨steps, j, m, hc, -, hb, hbackend, hresults, hrunning, hreconnecting⟩ :=
    Course.of_follow eagerSettings failingTwice default 1 failedAttempt
      (fun steps _ m => (∀ p ∈ steps, p.1.world.backend.NeverPanics) ∧
        m.world.backend.NeverPanics ∧
        checkResults steps =
          [.error (.collaborator "Cancelled"), .error (.collaborator "Cancelled")] ∧
        m.isRunning = true ∧ m.isReconnecting = true)
      (by decide +kernel)
  obtain ⟨hcheck, -, -, -, ⟨ops, hrun, hops, -⟩, hlasts⟩ := hc.cancelled_from_outside hb
  obtain ⟨result, hresult, hne⟩ := hcheck eagerSettings.checkRule m.now m.world.backend hbackend
  obtain ⟨hnext, -⟩ := hlasts .turn hrunning nofun nofun
  exact ⟨steps, j, m, ops, result, hc, hresults, hrun, hops, hresult, hne, hreconnecting, hnext⟩

end Monitor

end Liveness

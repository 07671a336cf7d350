import Liveness.Proofs.Tracker.Totals
import Mathlib.Algebra.Ring.Nat
/-!
# Resets of the totals

Two runs side by side: the operations with all resets of the totals in their places, and the same
operations without them. Nothing but the totals and the accounting point tells the two trackers
apart, and no operation answers from these. What is forgotten is what came before the last reset.
-/
namespace Liveness

namespace Tracker

variable {t u v w : Tracker} {op : Operation} {ops : List Operation}

structure Entry where
  op : Operation
  answer : Answer
  after : Tracker

def trace (t : Tracker) : List Operation → Except Crash (List Entry)
  | [] => .ok []
  | op :: ops =>
    match t.apply op with
    | .error c => .error c
    | .ok (u, answer) => (u.trace ops).map fun rest => ⟨op, answer, u⟩ :: rest

def left : Tracker → List Entry → Tracker
  | t, [] => t
  | _, e :: rest => left e.after rest

@[simp] theorem left_nil (t : Tracker) : t.left [] = t := rfl

@[simp] theorem left_cons (t : Tracker) (e : Entry) (rest : List Entry) :
    t.left (e :: rest) = e.after.left rest := rfl

theorem trace_cons_eq_ok {entries : List Entry} (h : t.trace (op :: ops) = .ok entries) :
    ∃ u answer rest, t.apply op = .ok (u, answer) ∧ u.trace ops = .ok rest ∧
      entries = ⟨op, answer, u⟩ :: rest := by
  unfold trace at h
  split at h
  · cases h
  · rename_i u answer ha
    cases hr : u.trace ops with
    | error c => simp [hr, Except.map] at h
    | ok rest =>
      simp only [hr, Except.map, Except.ok.injEq] at h
      exact ⟨u, answer, rest, ha, hr, h.symm⟩

theorem trace_append_singleton {start : Tracker} {answer : Answer} {entries : List Entry}
    (h : start.trace ops = .ok entries) (ha : (start.left entries).apply op = .ok (u, answer)) :
    start.trace (ops ++ [op]) = .ok (entries ++ [⟨op, answer, u⟩]) ∧
      start.left (entries ++ [⟨op, answer, u⟩]) = u := by
  induction ops generalizing start entries with
  | nil =>
    cases h
    simp only [left_nil] at ha
    simp [trace, ha, Except.map]
  | cons op' ops ih =>
    obtain ⟨v, reply, rest, hv, hrest, rfl⟩ := trace_cons_eq_ok h
    obtain ⟨htrace, hleft⟩ := ih hrest ha
    refine ⟨?_, hleft⟩
    simp [trace, hv, htrace, Except.map]

theorem ops_of_trace {start : Tracker} {entries : List Entry} (h : start.trace ops = .ok entries) :
    entries.map Entry.op = ops := by
  induction ops generalizing start entries with
  | nil =>
    cases h
    rfl
  | cons op ops ih =>
    obtain ⟨v, reply, rest, -, hrest, rfl⟩ := trace_cons_eq_ok h
    rw [List.map_cons, ih hrest]

theorem run_of_trace {start : Tracker} {before : List Operation} {entries : List Entry}
    (hr : Run (fun _ _ => True) start before t) (h : t.trace ops = .ok entries) :
    Run (fun _ _ => True) start (before ++ ops) (t.left entries) := by
  induction ops generalizing before t entries with
  | nil =>
    cases h
    simpa using hr
  | cons op ops ih =>
    obtain ⟨u, answer, rest, ha, hu, rfl⟩ := trace_cons_eq_ok h
    simpa using ih (hr.step trivial ha) hu

/-- Up to the totals and the accounting point the trackers are the same. -/
def Alike (t v : Tracker) : Prop := ∃ tally accountedAt, v = { t with tally, accountedAt }

theorem Alike.refl (t : Tracker) : t.Alike t := ⟨t.tally, t.accountedAt, rfl⟩

theorem Alike.status (h : t.Alike v) : t.status = v.status := by
  obtain ⟨_, _, rfl⟩ := h
  rfl

theorem Alike.episodeElapsed (h : t.Alike v) (now : Instant) :
    t.episodeElapsed now = v.episodeElapsed now := by
  obtain ⟨_, _, rfl⟩ := h
  rfl

theorem Alike.observed (h : t.Alike v) (result : CheckResult) (now : Instant)
    (tally total : Tally) :
    (t.observed result now tally).Alike (v.observed result now total) := by
  obtain ⟨_, _, rfl⟩ := h
  exact ⟨total, some now, rfl⟩

theorem Alike.becomeHealthy (h : t.Alike v) : t.becomeHealthy.Alike v.becomeHealthy := by
  obtain ⟨tally, accountedAt, rfl⟩ := h
  exact ⟨tally, accountedAt, rfl⟩

theorem Alike.becomeUnhealthy (h : t.Alike v) : t.becomeUnhealthy.Alike v.becomeUnhealthy := by
  obtain ⟨tally, accountedAt, rfl⟩ := h
  exact ⟨tally, accountedAt, rfl⟩

theorem Alike.commitsHealthy (h : t.Alike v) : t.commitsHealthy = v.commitsHealthy := by
  obtain ⟨_, _, rfl⟩ := h
  rfl

theorem Alike.commitsUnhealthy (h : t.Alike v) : t.commitsUnhealthy = v.commitsUnhealthy := by
  obtain ⟨_, _, rfl⟩ := h
  rfl

/-- What a check commits depends on nothing that a reset forgets. -/
theorem Alike.checked {result : CheckResult} {c d : Transition} (h : t.Alike v)
    (ht : Checked t result u c) (hv : Checked v result w d) : c = d ∧ u.Alike w := by
  have hup := h.commitsHealthy
  have hdown := h.commitsUnhealthy
  cases ht with
  | rises hc =>
    cases hv with
    | rises => exact ⟨rfl, h.becomeHealthy⟩
    | succeeds hd => simp [hc, hd] at hup
  | succeeds hc =>
    cases hv with
    | rises hd => simp [hc, hd] at hup
    | succeeds => exact ⟨rfl, h⟩
  | falls hc =>
    cases hv with
    | falls => exact ⟨rfl, h.becomeUnhealthy⟩
    | fails hd => simp [hc, hd] at hdown
  | fails hc =>
    cases hv with
    | falls hd => simp [hc, hd] at hdown
    | fails => exact ⟨rfl, h⟩

theorem Alike.attempted {result : CheckResult} {now : Instant} {c d : Transition}
    (h : t.Alike v) (ht : Attempted t now result u c) (hv : Attempted v now result w d) :
    c = d ∧ u.Alike w := by
  cases ht with
  | reconnects =>
    cases hv
    exact ⟨rfl, (h.observed _ now _ _).becomeHealthy⟩
  | fails =>
    cases hv
    obtain ⟨_, _, rfl⟩ := h
    exact ⟨rfl, _, _, rfl⟩

theorem Alike.applied {answer reply : Answer} (h : t.Alike v) (ht : Applied t op u answer)
    (hv : Applied v op w reply) (hr : op.isReset = false) : answer = reply ∧ u.Alike w := by
  cases ht with
  | checked hc =>
    obtain ⟨hd⟩ := hv
    obtain ⟨rfl, ha⟩ := (h.observed _ _ _ _).checked hc hd
    exact ⟨rfl, ha⟩
  | attempted hc =>
    cases hv with
    | attempted hd =>
      obtain ⟨rfl, ha⟩ := h.attempted hc hd
      exact ⟨rfl, ha⟩
  | reset => cases hr
  | _ =>
    cases hv
    obtain ⟨_, _, rfl⟩ := h
    exact ⟨rfl, _, _, rfl⟩

theorem Alike.of_reset (h : t.Alike v) (hr : op.isReset = true) {answer : Answer}
    (ht : Applied t op u answer) : u.Alike v := by
  cases ht with
  | reset =>
    obtain ⟨tally, accountedAt, rfl⟩ := h
    exact ⟨tally, accountedAt, rfl⟩
  | _ => cases hr

structure Entry.SeenAlike (a b : Entry) : Prop where
  op : a.op = b.op
  answer : a.answer = b.answer
  status : a.after.status = b.after.status
  elapsed : ∀ now, a.after.episodeElapsed now = b.after.episodeElapsed now

def Entry.isReset (e : Entry) : Bool := e.op.isReset

theorem Alike.trace {made kept : List Entry} (h : t.Alike v) (hm : t.trace ops = .ok made)
    (hk : v.trace (ops.filter fun op => !op.isReset) = .ok kept) :
    List.Forall₂ Entry.SeenAlike (made.filter fun e => !e.isReset) kept ∧
      (t.left made).Alike (v.left kept) := by
  induction ops generalizing t v made kept with
  | nil =>
    cases hm
    cases hk
    exact ⟨.nil, h⟩
  | cons op ops ih =>
    obtain ⟨u, answer, made, ha, hmade, rfl⟩ := trace_cons_eq_ok hm
    cases hr : op.isReset with
    | true =>
      -- only the run with the resets takes a step
      simp only [List.filter_cons, hr, Bool.not_true, Bool.false_eq_true, if_false] at hk
      have hu := h.of_reset hr (apply_eq_ok ha)
      simpa [Entry.isReset, hr] using ih hu hmade hk
    | false =>
      simp only [List.filter_cons, hr, Bool.not_false, if_true] at hk
      obtain ⟨w, reply, kept, hb, hkept, rfl⟩ := trace_cons_eq_ok hk
      obtain ⟨rfl, hu⟩ := h.applied (apply_eq_ok ha) (apply_eq_ok hb) hr
      obtain ⟨hseen, hleft⟩ := ih hu hmade hkept
      refine ⟨?_, hleft⟩
      simp only [List.filter_cons, Entry.isReset, hr, Bool.not_false, if_true]
      exact .cons ⟨rfl, rfl, hu.status, hu.episodeElapsed⟩ hseen

/-- Each operation but a reset adds the latency of its result, if it records one. -/
theorem apply_latencies {answer : Answer} (h : t.apply op = .ok (u, answer))
    (hr : op.isReset = false) :
    u.tally.latencyTotal.nanos =
      t.tally.latencyTotal.nanos + (op.result?.toList.map latencyNanos).sum := by
  cases op with
  | recordCheck result now =>
    obtain ⟨c, hv, -⟩ := recorded_eq_ok h
    obtain ⟨tally, hobserved, htally, -⟩ := (t.recordCheck_passesOn result now).observed hv
    rw [htally]
    exact hobserved.latencies
  | recordAttempt result now =>
    obtain ⟨c, hv, -⟩ := recorded_eq_ok h
    obtain ⟨tally, hobserved, htally, -⟩ := (t.recordAttempt_passesOn result now).observed hv
    rw [htally]
    exact hobserved.latencies
  | resetTally now => cases hr
  | _ =>
    cases h
    rfl

theorem run_latencies {permits : Tracker → Operation → Prop} {failures successes : UInt32}
    (h : Run permits (new failures successes) ops t) :
    t.tally.latencyTotal.nanos = ((results (sinceReset ops)).map latencyNanos).sum := by
  refine run_sinceReset (P := fun ops tally =>
    tally.latencyTotal.nanos = ((results ops).map latencyNanos).sum) rfl ?_ h
  intro t u op answer ops ha hr hbefore
  rw [apply_latencies ha hr, hbefore]
  simp [results_append_singleton]

/-- Deleting all resets from a history changes no answer, no status and no time spent in an
episode. The totals have counted what came after the last reset, and nothing else. -/
theorem resets_forget_totals_only {failures successes : UInt32} {made kept : List Entry}
    (hm : (new failures successes).trace ops = .ok made)
    (hk : (new failures successes).trace (ops.filter fun op => !op.isReset) = .ok kept) :
    List.Forall₂ Entry.SeenAlike (made.filter fun e => !e.isReset) kept ∧
      ((new failures successes).left made).status =
        ((new failures successes).left kept).status ∧
      Counts (sinceReset ops) ((new failures successes).left made).tally ∧
      ((new failures successes).left made).tally.latencyTotal.nanos =
        ((results (sinceReset ops)).map latencyNanos).sum := by
  obtain ⟨hseen, hleft⟩ := (Alike.refl _).trace hm hk
  have hrun : Run (fun _ _ => True) (new failures successes) ([] ++ ops) _ :=
    run_of_trace .nil hm
  exact ⟨hseen, hleft.status, run_counts hrun, run_latencies hrun⟩

/-- Resets within a streak of failures, within an episode and after a first success. -/
def resetsMidway : List Operation :=
  [.recordCheck (.ok .zero) (.clampMillis 5),
    .recordCheck (.error .connectionClosed) (.clampMillis 10),
    .resetTally (.clampMillis 12), .recordCheck (.error .connectionClosed) (.clampMillis 15),
    .beginEpisode (.clampMillis 15), .recordAttempt (.error .cancelled) (.clampMillis 20),
    .resetTally (.clampMillis 21), .recordAttempt (.ok (.clampMillis 3)) (.clampMillis 25),
    .resetTally (.clampMillis 26), .recordCheck (.ok (.clampMillis 4)) (.clampMillis 30)]

theorem resets_forget_totals_only_midway : ∃ made kept,
    (new 2 2).trace resetsMidway = .ok made ∧
    (new 2 2).trace (resetsMidway.filter fun op => !op.isReset) = .ok kept ∧
    List.Forall₂ Entry.SeenAlike (made.filter fun e => !e.isReset) kept ∧
    made.length = kept.length + 3 ∧
    ((new 2 2).left made).tally.probes = 1 ∧
    ((new 2 2).left made).tally.latencyTotal.nanos = 4000000 := by
  have hm : ((new 2 2).trace resetsMidway).toOption.map List.length = some 10 := by decide
  have hk : ((new 2 2).trace (resetsMidway.filter fun op => !op.isReset)).toOption.map
      List.length = some 7 := by decide
  cases hmade : (new 2 2).trace resetsMidway with
  | error c => simp [hmade, Except.toOption] at hm
  | ok made =>
    cases hkept : (new 2 2).trace (resetsMidway.filter fun op => !op.isReset) with
    | error c => simp [hkept, Except.toOption] at hk
    | ok kept =>
      obtain ⟨hseen, -, hcounts, hlatencies⟩ := resets_forget_totals_only hmade hkept
      simp only [hmade, hkept, Except.toOption, Option.map_some, Option.some.injEq] at hm hk
      exact ⟨made, kept, rfl, rfl, hseen, by omega, hcounts.probes, hlatencies⟩

end Tracker

end Liveness

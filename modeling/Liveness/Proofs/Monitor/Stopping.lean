import Liveness.Proofs.Monitor.Life
import Mathlib.Algebra.Ring.Nat
/-!
# Stopping

To stop a monitor is to cut its loop where it waits, whatever it waits for and even if that is due.
The target sees the check in flight dropped and no call made, nobody is told anything, and of all
that is known only the episode is gone. Nothing more happens until the monitor is started again.
-/
namespace Liveness

def Call.begins : Call → Bool
  | .ping _ | .acquire => true
  | _ => false

def Effect.Quiet : Effect → Prop
  | .call c => c.begins = false
  | .log _ => True
  | .emit _ => False

def Output.Quiet : Output → Prop
  | .call c => c.begins = false
  | .log _ => True
  | .emitted .. | .dispatched _ => False

theorem perform_quiet (now : Nat) {effects : List Effect} (w : World) (hub : Hub)
    (h : ∀ effect ∈ effects, effect.Quiet) :
    ∃ out, perform now effects w hub = (w, hub, out) ∧ ∀ o ∈ out, o.Quiet := by
  induction effects with
  | nil => exact ⟨[], rfl, by simp⟩
  | cons effect effects ih =>
    obtain ⟨hq, hrest⟩ := List.forall_mem_cons.mp h
    obtain ⟨out, hout, hquiet⟩ := ih hrest
    cases effect with
    | call c =>
      refine ⟨.call c :: out, ?_, List.forall_mem_cons.mpr ⟨hq, hquiet⟩⟩
      simp only [perform, hout]
    | log n =>
      refine ⟨.log n :: out, ?_, List.forall_mem_cons.mpr ⟨trivial, hquiet⟩⟩
      simp only [perform, hout]
    | emit e => exact hq.elim

theorem Check.abandon_begins {c : Check} {call : Call} (h : call ∈ c.abandon) :
    call.begins = false := by
  have hback {borrowed : Bool} (h : call ∈ giveBack borrowed) : call.begins = false := by
    cases borrowed with
    | false => cases h
    | true =>
      cases List.mem_singleton.mp h
      rfl
  have htraced {p : PendingCall} {dropped : Call} (hd : dropped.begins = false)
      (h : call ∈ p.traced [dropped]) : call.begins = false := by
    unfold PendingCall.traced at h
    split at h
    · cases List.mem_singleton.mp h
      exact hd
    · cases h
  unfold abandon at h
  split at h
  · exact htraced rfl h
  · rcases List.mem_append.mp h with h | h
    · exact htraced rfl h
    · exact hback h

namespace ControlLoop

variable {l : ControlLoop} {w : World}

theorem cut_world : (l.cut w).1 = { w with tracker := w.tracker.interruptEpisode.1 } := by
  cases l <;> rfl

theorem cut_quiet : ∀ effect ∈ (l.cut w).2, effect.Quiet := by
  have hdropped (c : Check) : ∀ effect ∈ c.abandon.map Effect.call, effect.Quiet := by
    intro effect h
    obtain ⟨call, hc, rfl⟩ := List.mem_map.mp h
    exact c.abandon_begins hc
  have hlogged : ∀ effect ∈ (if w.tracker.interruptEpisode.2 then
      [Effect.log .episodeInterrupted] else []), effect.Quiet := by
    intro effect h
    split at h
    · cases List.mem_singleton.mp h
      trivial
    · cases h
  have hstopped : ∀ effect ∈ [Effect.log .loopStopped], effect.Quiet := by
    intro effect h
    cases List.mem_singleton.mp h
    trivial
  cases l with
  | unstarted => exact List.forall_mem_cons.mpr ⟨trivial, hstopped⟩
  | awaiting due => exact hstopped
  | checking nextTick check => exact List.forall_mem_append.mpr ⟨hdropped check, hstopped⟩
  | reconnecting e =>
    refine List.forall_mem_append.mpr ⟨?_, hstopped⟩
    cases e with
    | attempting attempts check => exact List.forall_mem_append.mpr ⟨hdropped check, hlogged⟩
    | _ => exact hlogged

end ControlLoop

namespace Monitor

variable {m : Monitor}

theorem enact_quiet (m : Monitor) (w : World) {effects : List Effect} (runner : Runner)
    (h : ∀ effect ∈ effects, effect.Quiet) :
    (m.enact w effects runner).1 = { m with world := w, runner } ∧
      ∀ time o, (time, o) ∈ (m.enact w effects runner).2 → time = m.now ∧ o.Quiet := by
  obtain ⟨out, hout, hquiet⟩ := perform_quiet m.now w m.hub h
  simp only [enact, hout]
  refine ⟨trivial, ?_⟩
  intro time o ho
  obtain ⟨p, hp, heq⟩ := List.mem_map.mp ho
  cases heq
  exact ⟨rfl, hquiet o hp⟩

theorem advance_idle (h : m.runner = .idle) (ms : Nat) :
    m.advance ms = ({ m with now := m.now + ms }, []) := by
  have hturn : m.turn = none := by simp [turn, h]
  have hpoll : m.poll = (m, []) := by
    unfold poll turnFuel
    simp [turns, hturn]
  unfold advance advanceTo
  simp [hpoll, wakeAt, h]

def advances : List Nat → Monitor → Monitor × Journal
  | [], m => (m, [])
  | ms :: spans, m =>
    let (m, j) := m.advance ms
    let (m, rest) := advances spans m
    (m, j ++ rest)

theorem advances_idle (h : m.runner = .idle) (spans : List Nat) :
    m.advances spans = ({ m with now := m.now + spans.sum }, []) := by
  induction spans generalizing m with
  | nil => rfl
  | cons ms spans ih =>
    have hrest := ih (m := { m with now := m.now + ms }) h
    simp [advances, advance_idle h, hrest, Nat.add_assoc]

theorem runner_of_isRunning (h : m.isRunning = true) : ∃ l, m.runner = .live l := by
  unfold isRunning at h
  split at h
  · rename_i l hl
    exact ⟨l, hl⟩
  · cases h

/-- Wherever the loop waits, it can be stopped at once, and that leaves everything as it is but
the episode. No event comes of it, no call and no result, and from then on only time passes. -/
theorem stop_cuts_cleanly (h : m.isRunning = true) :
    m.stop.1 = .ok () ∧
      m.stop.2.1 = { m with
        runner := .idle
        world.tracker := { m.tracker with status.reconnecting := false, episodeStart := none } } ∧
      (∀ time o, (time, o) ∈ m.stop.2.2 → time = m.now ∧ o.Quiet) ∧
      m.stop.2.1.isRunning = false ∧ m.stop.2.1.isReconnecting = false ∧
      ∀ spans, m.stop.2.1.advances spans =
        ({ m.stop.2.1 with now := m.now + spans.sum }, []) := by
  obtain ⟨l, hl⟩ := runner_of_isRunning h
  have hquiet : ∀ effect ∈ (l.cut m.world).2 ++ [Effect.log .monitoringStopped], effect.Quiet :=
    List.forall_mem_append.mpr ⟨ControlLoop.cut_quiet, by simp [Effect.Quiet]⟩
  obtain ⟨hm, hj⟩ := enact_quiet m (l.cut m.world).1 .idle hquiet
  have hstop : m.stop = (.ok (), m.enact (l.cut m.world).1
      ((l.cut m.world).2 ++ [Effect.log .monitoringStopped]) .idle) := by
    simp [stop, hl]
  have hstopped : m.stop.2.1 = { m with world := (l.cut m.world).1, runner := .idle } := by
    rw [hstop]
    exact hm
  rw [ControlLoop.cut_world] at hstopped
  refine ⟨by rw [hstop], hstopped, by rw [hstop]; exact hj, ?_, ?_, ?_⟩
  · rw [hstopped]
    rfl
  · rw [hstopped]
    rfl
  · intro spans
    rw [hstopped]
    exact advances_idle rfl spans

def slowToRecover : Backend :=
  { failingTwice with pings := ⟨[.answer 0 (some .cancelled), .answer 3 none], .ok⟩ }

/-- The answer to the first attempt is due when it is cut off. -/
theorem stop_cuts_cleanly_answered : ∃ j m, Life eagerSettings j m ∧ m.atRest = true ∧
    m.isRunning = true ∧ m.isReconnecting = true ∧ m.turn.isSome = true ∧
    m.stop.1 = .ok () ∧ m.stop.2.1.isReconnecting = false ∧
    m.stop.2.1.tracker.tally = m.tracker.tally ∧
    (∀ time o, (time, o) ∈ m.stop.2.2 → time = m.now ∧ o.Quiet) ∧
    m.stop.2.1.advances [1, 30] = ({ m.stop.2.1 with now := 35 }, []) := by
  have hf : ((Monitor.new eagerSettings slowToRecover default 1).toOption.bind fun m =>
      (m.follow [.start, .turn, .turn, .turn, .turn, .turn, .pass 1, .turn, .pass 4]).map fun p =>
        (p.1.now, p.1.atRest, p.1.isRunning, p.1.isReconnecting, p.1.turn.isSome)) =
      some (4, true, true, true, true) := by
    decide +kernel
  obtain ⟨j, m, hl, hj⟩ := Life.of_follow hf
  simp only [Prod.mk.injEq] at hj
  obtain ⟨hnow, hrest, hrun, hrec, hturn⟩ := hj
  obtain ⟨hok, hm, hquiet, -, hout, hidle⟩ := stop_cuts_cleanly hrun
  refine ⟨j, m, hl, hrest, hrun, hrec, hturn, hok, hout, ?_, hquiet, ?_⟩
  · rw [hm]
    rfl
  · simpa [hnow] using hidle [1, 30]

end Monitor

end Liveness

import Liveness.Proofs.Check.Calls
/-!
# How checks end

A check ends with a result: a success takes as long as the check has run, and a failure is one of
the target, whatever the target reports. It is cancelled only from outside. A target that never
panics keeps every check from crashing, and the fuel of a whole run is enough for all its waits.
-/
namespace Liveness

def Script.All {α : Type} (p : α → Prop) (s : Script α) : Prop :=
  p s.fallback ∧ ∀ a ∈ s.steps, p a

def Reply.panics : Reply → Bool
  | .panic _ => true
  | _ => false

def Reply.Calm (r : Reply) : Prop := r.panics = false

/-- However the target behaves, it answers with a result or an error, or not at all, and its
connections can be asked whether they are closed. -/
structure Backend.NeverPanics (b : Backend) : Prop where
  pings : b.pings.All Reply.Calm
  acquires : b.acquires.All Reply.Calm
  connections : b.connections.All (· ≠ .panics)

instance (r : Reply) : Decidable r.Calm := inferInstanceAs (Decidable (r.panics = false))

instance {α : Type} (p : α → Prop) [DecidablePred p] (s : Script α) : Decidable (s.All p) :=
  inferInstanceAs (Decidable (p s.fallback ∧ ∀ a ∈ s.steps, p a))

instance (b : Backend) : Decidable b.NeverPanics :=
  decidable_of_iff (b.pings.All Reply.Calm ∧ b.acquires.All Reply.Calm ∧
      b.connections.All (· ≠ .panics))
    ⟨fun ⟨hp, ha, hc⟩ => ⟨hp, ha, hc⟩, fun h => ⟨h.pings, h.acquires, h.connections⟩⟩

theorem Script.All.next {α : Type} {p : α → Prop} {s : Script α} (h : s.All p) :
    p s.next.1 ∧ s.next.2.All p := by
  obtain ⟨hf, hs⟩ := h
  unfold Script.next
  cases hsteps : s.steps with
  | nil => exact ⟨hf, hf, by simp [hsteps]⟩
  | cons a rest =>
    rw [hsteps] at hs
    obtain ⟨ha, hrest⟩ := List.forall_mem_cons.mp hs
    exact ⟨ha, hf, hrest⟩

def Pending.Calm (p : Pending) : Prop := ∀ time, p ≠ .panics time

theorem Reply.Calm.pendingFrom {r : Reply} (h : r.Calm) (now : Nat) : (r.pendingFrom now).Calm := by
  cases r with
  | panic delay => cases h
  | answer delay error => exact nofun
  | never => exact nofun

theorem PendingCall.immediate_calm {said : Openness} (h : said ≠ .panics) (now : Nat) :
    (PendingCall.immediate now said).reply.Calm := by
  cases said with
  | isOpen => exact nofun
  | isClosed => exact nofun
  | panics => exact absurd rfl h

namespace Backend.NeverPanics

variable {b : Backend}

theorem pingConnection (h : b.NeverPanics) (now : Nat) :
    (b.pingConnection now).1.reply.Calm ∧ (b.pingConnection now).2.NeverPanics := by
  obtain ⟨hr, hs⟩ := h.pings.next
  exact ⟨hr.pendingFrom now, hs, h.acquires, h.connections⟩

theorem connect (h : b.NeverPanics) : b.connect.1 ≠ .panics ∧ b.connect.2.NeverPanics := by
  obtain ⟨hsaid, hc⟩ := h.connections.next
  exact ⟨hsaid, h.pings, h.acquires, hc⟩

theorem ping (h : b.NeverPanics) (now : Nat) :
    (b.ping now).1.reply.Calm ∧ (b.ping now).2.NeverPanics := by
  obtain ⟨hsaid, hconnected⟩ := h.connect
  cases hkind : b.kind with
  | pool =>
    simp only [Backend.ping, hkind]
    exact h.pingConnection now
  | direct =>
    simp only [Backend.ping, hkind]
    by_cases hopen : b.connect.1 = .isOpen
    · rw [if_pos hopen]
      exact hconnected.pingConnection now
    · rw [if_neg hopen]
      exact ⟨PendingCall.immediate_calm hsaid now, hconnected⟩

theorem acquire (h : b.NeverPanics) (now : Nat) :
    (b.acquire now).1.reply.Calm ∧ (b.acquire now).2.1 ≠ .panics ∧
      (b.acquire now).2.2.NeverPanics := by
  obtain ⟨hsaid, hconnected⟩ := h.connect
  cases hkind : b.kind with
  | direct =>
    simp only [Backend.acquire, hkind]
    exact ⟨PendingCall.immediate_calm hsaid now, hsaid, hconnected⟩
  | pool =>
    obtain ⟨hr, hs⟩ := h.acquires.next
    simp only [Backend.acquire, hkind]
    exact ⟨hr.pendingFrom now, hsaid, hconnected.pings, hs, hconnected.connections⟩

end Backend.NeverPanics

theorem Failure.ofError_ne_cancelled (budget : Duration) (e : BackendError) :
    Failure.ofError budget e ≠ .cancelled := by
  cases e <;> nofun

theorem Cancellation.le_of_before (c : Cancellation) {due : Nat} (h : c.before due = true) :
    c.time ≤ due := by
  simp only [before, Bool.or_eq_true, Bool.and_eq_true, decide_eq_true_eq] at h
  omega

theorem Cancellation.le_of_not_before (c : Cancellation) {due : Nat} (h : ¬c.before due = true) :
    due ≤ c.time := by
  simp only [before, Bool.or_eq_true, Bool.and_eq_true, decide_eq_true_eq] at h
  omega

namespace Check

variable {rule : CheckRule} {now : Nat} {c c' : Check} {b : Backend} {st : Step}

def Safe (c : Check) : Prop :=
  c.awaited.reply.Calm ∧ ∀ call, c.stage ≠ .acquiring call .panics

inductive Stepped (rule : CheckRule) (now : Nat) (c : Check) (b : Backend) : Step → Prop where
  | crashed {calls} : ¬c.Safe → c.Settles calls → Stepped rule now c b ⟨.crashed, calls, b⟩
  | failed {failure calls} : failure ≠ .cancelled → c.Settles calls →
      Stepped rule now c b ⟨.done (.error failure), calls, b⟩
  | succeeded {calls} : c.Settles calls →
      Stepped rule now c b ⟨.done (.ok (c.latency now)), calls, b⟩
  | acquired {call calls} : c.stage = .acquiring call .isOpen → c.Settles calls →
      Stepped rule now c b
        ⟨.going { c with stage := .pinging (b.pingConnection now).1 b.lends },
          calls ++ [.ping rule.budget], (b.pingConnection now).2⟩

theorem expire_stepped (h : c.expire rule now b = some st) : Stepped rule now c b st := by
  unfold expire at h
  split at h
  · cases h
    exact .failed nofun c.abandon_settles
  · cases h

theorem not_safe_of_panics {time : Nat} (h : c.awaited.reply = .panics time) : ¬c.Safe := by
  rintro ⟨hcalm, -⟩
  exact hcalm time h

theorem step_stepped (h : c.step rule now b = some st) : Stepped rule now c b st := by
  by_cases hafter : c.awaited.reply.After now
  · rw [step_eq_expire hafter] at h
    exact expire_stepped h
  · obtain ⟨time, hdue, ht⟩ := Pending.exists_due hafter
    cases hs : c.stage with
    | acquiring call said =>
      simp only [awaited, hs] at hdue
      cases hr : call.reply with
      | never =>
        rw [hr] at hdue
        cases hdue
      | panics due =>
        rw [hr] at hdue
        cases hdue
        rw [step_acquire_panics hs hr ht] at h
        cases h
        have hawaited : c.awaited.reply = .panics time := by simp only [awaited, hs, hr]
        exact .crashed (not_safe_of_panics hawaited) (settles_acquiring hs rfl)
      | answers due error =>
        rw [hr] at hdue
        cases hdue
        have hseen : c.Settles (call.traced [.acquireDone]) := settles_acquiring hs rfl
        cases error with
        | some e =>
          rw [step_acquire_refused hs hr ht] at h
          cases h
          exact .failed (Failure.ofError_ne_cancelled _ _) hseen
        | none =>
          cases said with
          | isOpen =>
            rw [step_open hs hr ht] at h
            cases h
            exact .acquired hs hseen
          | isClosed =>
            rw [step_closed hs hr ht] at h
            cases h
            exact .failed (by decide) (hseen.giveBack _)
          | panics =>
            rw [step_query_panics hs hr ht] at h
            cases h
            exact .crashed (fun hsafe => hsafe.2 call hs) (hseen.giveBack _)
    | pinging call borrowed =>
      simp only [awaited, hs] at hdue
      cases hr : call.reply with
      | never =>
        rw [hr] at hdue
        cases hdue
      | panics due =>
        rw [hr] at hdue
        cases hdue
        rw [step_ping_panics hs hr ht] at h
        cases h
        have hawaited : c.awaited.reply = .panics time := by simp only [awaited, hs, hr]
        exact .crashed (not_safe_of_panics hawaited) (settles_pinging hs rfl)
      | answers due error =>
        rw [hr] at hdue
        cases hdue
        have hseen : c.Settles (call.traced [.pingDone] ++ giveBack borrowed) :=
          settles_pinging hs rfl
        cases error with
        | some e =>
          rw [step_refused hs hr ht] at h
          cases h
          exact .failed (Failure.ofError_ne_cancelled _ _) hseen
        | none =>
          rw [step_alive hs hr ht] at h
          cases h
          exact .succeeded hseen

/-- A check that goes on has got its connection, and keeps its deadline. -/
theorem step_going (h : c.step rule now b = some st) (hn : st.next = .going c') :
    c'.rank < c.rank ∧ c'.deadline = c.deadline := by
  cases step_stepped h with
  | acquired hs =>
    cases hn
    exact ⟨by simp [rank, hs], rfl⟩
  | _ => cases hn

theorem start_driver (rule : CheckRule) (now : Nat) (b : Backend) :
    (start rule now b).2.2.driver = b.driver := by
  unfold start
  cases rule.mode with
  | ping =>
    cases hkind : b.kind with
    | pool =>
      simp only [Backend.ping, hkind]
      rfl
    | direct =>
      simp only [Backend.ping, hkind]
      split <;> rfl
  | deep =>
    simp only [Backend.acquire]
    split <;> rfl

/-- A step ends the call that was under way, and a check that goes on makes the next one. -/
theorem step_calls (h : c.step rule now b = some st) :
    st.calls.foldlM Engagement.next c.engagement = some st.next.engagement := by
  cases step_stepped h with
  | crashed _ hsettles => exact hsettles
  | failed _ hsettles => exact hsettles
  | succeeded hsettles => exact hsettles
  | acquired _ hsettles =>
    unfold Settles at hsettles
    simp only [List.foldlM_append, hsettles]
    rfl

theorem step_driver (h : c.step rule now b = some st) : st.backend.driver = b.driver := by
  cases step_stepped h <;> rfl

theorem start_safe (rule : CheckRule) (now : Nat) (h : b.NeverPanics) :
    (start rule now b).1.Safe ∧ (start rule now b).2.2.NeverPanics := by
  unfold start
  cases rule.mode with
  | ping =>
    obtain ⟨hreply, hbackend⟩ := h.ping now
    exact ⟨⟨hreply, nofun⟩, hbackend⟩
  | deep =>
    obtain ⟨hreply, hsaid, hbackend⟩ := h.acquire now
    refine ⟨⟨hreply, ?_⟩, hbackend⟩
    intro call hstage
    exact hsaid (CheckStage.acquiring.inj hstage).2

theorem step_safe (hc : c.Safe) (hb : b.NeverPanics) (h : c.step rule now b = some st) :
    st.next ≠ .crashed ∧ st.backend.NeverPanics ∧ ∀ c', st.next = .going c' → c'.Safe := by
  cases step_stepped h with
  | crashed hunsafe => exact absurd hc hunsafe
  | failed => exact ⟨nofun, hb, nofun⟩
  | succeeded => exact ⟨nofun, hb, nofun⟩
  | acquired =>
    obtain ⟨hreply, hbackend⟩ := hb.pingConnection now
    refine ⟨nofun, hbackend, ?_⟩
    intro c' hc'
    cases hc'
    exact ⟨hreply, nofun⟩

theorem not_safe_of_crashed (h : c.step rule now b = some st) (hn : st.next = .crashed) :
    ¬c.Safe := by
  cases step_stepped h with
  | crashed hunsafe => exact hunsafe
  | _ => cases hn

theorem step_ne_cancelled (h : c.step rule now b = some st) :
    st.next ≠ .done (.error .cancelled) := by
  intro hn
  cases step_stepped h with
  | failed hf =>
    cases hn
    exact hf rfl
  | _ => cases hn

theorem step_wakes (c : Check) : (c.step rule c.wakeAt b).isSome := by
  rw [Option.isSome_iff_ne_none]
  intro hn
  obtain ⟨hd, hafter⟩ := step_eq_none hn
  rw [wakeAt_eq] at hd hafter
  cases hdue : c.awaited.reply.due with
  | none =>
    rw [hdue] at hd
    exact absurd hd (Nat.lt_irrefl _)
  | some time =>
    have htime := hafter time hdue
    simp only [hdue] at hd htime
    exact Nat.lt_irrefl _ (Nat.lt_min.mpr ⟨htime, hd⟩)

/-- The steps and waits that the check has before it fit into the fuel. -/
def Fuelled (rule : CheckRule) (now : Nat) (c : Check) (b : Backend) (fuel : Nat) : Prop :=
  2 * c.rank ≤ fuel + if (c.step rule now b).isSome then 1 else 0

theorem Fuelled.pos {fuel : Nat} (h : Fuelled rule now c b fuel) : 0 < fuel := by
  have := c.rank_pos
  unfold Fuelled at h
  split at h <;> omega

theorem Fuelled.steps {fuel : Nat} (h : Fuelled rule now c b (fuel + 1))
    (hs : c.step rule now b = some st) (hn : st.next = .going c') :
    Fuelled rule now c' st.backend fuel := by
  have := (step_going hs hn).1
  simp only [Fuelled, hs, Option.isSome_some, if_true] at h
  unfold Fuelled
  omega

theorem Fuelled.waits {fuel : Nat} (h : Fuelled rule now c b (fuel + 1))
    (hs : c.step rule now b = none) : Fuelled rule c.wakeAt c b fuel := by
  simp only [Fuelled, hs, Option.isSome_none] at h
  unfold Fuelled
  rw [if_pos c.step_wakes]
  simpa using h

theorem start_fuelled (rule : CheckRule) (now : Nat) (b : Backend) :
    Fuelled rule now (start rule now b).1 (start rule now b).2.2 runFuel := by
  have := (start rule now b).1.rank_le
  unfold Fuelled runFuel
  omega

/-- Having made these calls, the check comes from where it is now to the end of this run, if nobody
cancels it. -/
def Underway (rule : CheckRule) (now : Nat) (c : Check) (b : Backend) (seen : List (Nat × Call))
    (whole : Run) : Prop :=
  ∃ fuel, Fuelled rule now c b fuel ∧ runFrom rule none fuel now c b seen = whole

theorem underway_start (rule : CheckRule) (now : Nat) (b : Backend) :
    (start rule now b).1.Underway rule now (start rule now b).2.2
      ((start rule now b).2.1.map (now, ·)) (run rule none now b) :=
  ⟨runFuel, start_fuelled rule now b, rfl⟩

namespace Underway

variable {seen : List (Nat × Call)} {whole : Run}

theorem steps (h : c.Underway rule now b seen whole) (hs : c.step rule now b = some st)
    (hn : st.next = .going c') :
    c'.Underway rule now st.backend (seen ++ st.calls.map (now, ·)) whole := by
  obtain ⟨fuel, hf, hrun⟩ := h
  obtain ⟨fuel, rfl⟩ := Nat.exists_eq_add_one.mpr hf.pos
  simp only [runFrom, hs, hn] at hrun
  exact ⟨fuel, hf.steps hs hn, hrun⟩

theorem ends {result : CheckResult} (h : c.Underway rule now b seen whole)
    (hs : c.step rule now b = some st) (hn : st.next = .done result) :
    whole = ⟨now, seen ++ st.calls.map (now, ·), .ok result, st.backend⟩ := by
  obtain ⟨fuel, hf, hrun⟩ := h
  obtain ⟨fuel, rfl⟩ := Nat.exists_eq_add_one.mpr hf.pos
  simp only [runFrom, hs, hn] at hrun
  exact hrun.symm

theorem waits (h : c.Underway rule now b seen whole) (hs : c.step rule now b = none) :
    c.Underway rule c.wakeAt b seen whole := by
  obtain ⟨fuel, hf, hrun⟩ := h
  obtain ⟨fuel, rfl⟩ := Nat.exists_eq_add_one.mpr hf.pos
  simp only [runFrom, hs, Option.filter_none] at hrun
  exact ⟨fuel, hf.waits hs, hrun⟩

end Underway

def InFlight (rule : CheckRule) (now : Nat) (c : Check) (b : Backend) (whole : Run) : Prop :=
  ∃ fuel calls, Fuelled rule now c b fuel ∧ runFrom rule none fuel now c b calls = whole

theorem inFlight_iff {whole : Run} :
    c.InFlight rule now b whole ↔ ∃ seen, c.Underway rule now b seen whole := exists_comm

theorem inFlight_start (rule : CheckRule) (now : Nat) (b : Backend) :
    (start rule now b).1.InFlight rule now (start rule now b).2.2 (run rule none now b) :=
  inFlight_iff.mpr ⟨_, underway_start rule now b⟩

namespace InFlight

variable {whole : Run}

theorem steps (h : c.InFlight rule now b whole) (hs : c.step rule now b = some st)
    (hn : st.next = .going c') : c'.InFlight rule now st.backend whole := by
  obtain ⟨seen, hu⟩ := inFlight_iff.mp h
  exact inFlight_iff.mpr ⟨_, hu.steps hs hn⟩

theorem ends {result : CheckResult} (h : c.InFlight rule now b whole)
    (hs : c.step rule now b = some st) (hn : st.next = .done result) :
    whole.result = .ok result ∧ whole.backend = st.backend := by
  obtain ⟨seen, hu⟩ := inFlight_iff.mp h
  rw [hu.ends hs hn]
  exact ⟨rfl, rfl⟩

theorem waits (h : c.InFlight rule now b whole) (hs : c.step rule now b = none) :
    c.InFlight rule c.wakeAt b whole := by
  obtain ⟨seen, hu⟩ := inFlight_iff.mp h
  exact inFlight_iff.mpr ⟨_, hu.waits hs⟩

end InFlight

/-- A check that runs on its own comes to a result, and is cancelled only if its time has come. -/
theorem runFrom_result {cancel : Option Cancellation} {fuel : Nat} {calls : List (Nat × Call)}
    (hf : Fuelled rule now c b fuel) (hc : c.Safe) (hb : b.NeverPanics) :
    ∃ result, (runFrom rule cancel fuel now c b calls).result = .ok result ∧
      (result = .error .cancelled →
        ∃ cut ∈ cancel, cut.time ≤ (runFrom rule cancel fuel now c b calls).finishedAt) := by
  induction fuel generalizing now c b calls with
  | zero => exact absurd hf.pos (Nat.lt_irrefl 0)
  | succ fuel ih =>
    cases hs : c.step rule now b with
    | some st =>
      obtain ⟨hcrash, hbackend, hsafe⟩ := step_safe hc hb hs
      have hcancel := step_ne_cancelled hs
      cases hn : st.next with
      | crashed => exact absurd hn hcrash
      | done result =>
        simp only [runFrom, hs, hn]
        refine ⟨result, rfl, ?_⟩
        rintro rfl
        exact absurd hn hcancel
      | going c' =>
        simp only [runFrom, hs, hn]
        exact ih (hf.steps hs hn) (hsafe c' hn) hbackend
    | none =>
      cases hfilter : cancel.filter (·.before c.wakeAt) with
      | some cut =>
        simp only [runFrom, hs, hfilter]
        obtain ⟨hcut, -⟩ := Option.filter_eq_some_iff.mp hfilter
        exact ⟨.error .cancelled, rfl, fun _ => ⟨cut, hcut, Nat.le_refl _⟩⟩
      | none =>
        simp only [runFrom, hs, hfilter]
        exact ih (hf.waits hs) hc hb

/-- A whole check that nobody cancels has a result, which is no cancellation. -/
theorem run_result (rule : CheckRule) (cancel : Option Cancellation) (now : Nat)
    (hb : b.NeverPanics) : ∃ result, (run rule cancel now b).result = .ok result ∧
      (result = .error .cancelled →
        ∃ cut ∈ cancel, cut.time ≤ (run rule cancel now b).finishedAt) := by
  by_cases hcancel : cancel.any (·.before now) = true
  · simp only [run, if_pos hcancel]
    obtain ⟨cut, hcut, hbefore⟩ := (Option.any_eq_true _ _).mp hcancel
    exact ⟨.error .cancelled, rfl, fun _ => ⟨cut, hcut, cut.le_of_before hbefore⟩⟩
  · simp only [run, if_neg hcancel]
    obtain ⟨hsafe, hbackend⟩ := start_safe rule now hb
    exact runFrom_result (start_fuelled rule now b) hsafe hbackend

end Check

end Liveness

import Liveness.Proofs.Check.Replies
/-!
# Both modes over a single connection

A single connection is lent at once and comes back to nobody, so a deep check of it is a ping with one
step before. What is left after that step is the same check: it waits for the same reply until the same
deadline, and neither the mode nor the fuel spent makes a difference to it.
-/
namespace Liveness.Check

variable {rule rule' : CheckRule} {cancel : Option Cancellation} {fuel fuel' now : Nat} {c c' : Check}
  {b : Backend} {st : Step} {calls : List (Nat × Call)}

theorem step_budget (h : rule.budget = rule'.budget) :
    c.step rule now b = c.step rule' now b := by
  cases rule
  cases rule'
  cases h
  rfl

theorem runFrom_done {result : CheckResult} (hs : c.step rule now b = some st)
    (hn : st.next = .done result) :
    runFrom rule cancel (fuel + 1) now c b calls =
      ⟨now, calls ++ st.calls.map (now, ·), .ok result, st.backend⟩ := by
  simp only [runFrom, hs, hn]

theorem runFrom_crashed (hs : c.step rule now b = some st) (hn : st.next = .crashed) :
    runFrom rule cancel (fuel + 1) now c b calls =
      ⟨now, calls ++ st.calls.map (now, ·), .error .collaborator, st.backend⟩ := by
  simp only [runFrom, hs, hn]

theorem runFrom_going (hs : c.step rule now b = some st) (hn : st.next = .going c') :
    runFrom rule cancel (fuel + 1) now c b calls =
      runFrom rule cancel fuel now c' st.backend (calls ++ st.calls.map (now, ·)) := by
  simp only [runFrom, hs, hn]

theorem runFrom_congr (h : rule.budget = rule'.budget) (hf : Fuelled rule now c b fuel)
    (hf' : Fuelled rule' now c b fuel') :
    runFrom rule cancel fuel now c b calls = runFrom rule' cancel fuel' now c b calls := by
  induction fuel generalizing fuel' now c b calls with
  | zero => exact absurd hf.pos (Nat.lt_irrefl 0)
  | succ fuel ih =>
    obtain ⟨fuel', rfl⟩ := Nat.exists_eq_add_one.mpr hf'.pos
    cases hs : c.step rule now b with
    | some st =>
      have hs' : c.step rule' now b = some st := by rw [← step_budget h, hs]
      cases hn : st.next with
      | crashed => rw [runFrom_crashed hs hn, runFrom_crashed hs' hn]
      | done result => rw [runFrom_done hs hn, runFrom_done hs' hn]
      | going c' =>
        rw [runFrom_going hs hn, runFrom_going hs' hn]
        exact ih (hf.steps hs hn) (hf'.steps hs' hn)
    | none =>
      have hs' : c.step rule' now b = none := by rw [← step_budget h, hs]
      cases hcancel : cancel.filter (·.before c.wakeAt) with
      | some cut => simp only [runFrom, hs, hs', hcancel]
      | none =>
        simp only [runFrom, hs, hs', hcancel]
        exact ih (hf.waits hs) (hf'.waits hs')

section Direct

variable {budget : Duration} (hdirect : b.kind = .direct)

include hdirect

/-- Whatever the connection says of itself unless it is open, it says to a ping and to a request to be
lent alike. -/
theorem start_direct (budget : Duration) (now : Nat) (hlent : b.lent ≠ .isOpen) :
    start ⟨.ping, budget⟩ now b =
      (⟨now, now + budget.millisUp, .pinging (.immediate now b.lent) false⟩, [], b.connect.2) ∧
    start ⟨.deep, budget⟩ now b =
      (⟨now, now + budget.millisUp, .acquiring (.immediate now b.lent) b.lent⟩, [],
        b.connect.2) := by
  have hping : b.ping now = (.immediate now b.lent, b.connect.2) := by
    rw [Backend.ping_direct hdirect, if_neg hlent]
  have hacquire : b.acquire now = (.immediate now b.lent, b.lent, b.connect.2) := by
    simp only [Backend.acquire, hdirect]
    rfl
  have hunseen (calls : List Call) : (PendingCall.immediate now b.lent).traced calls = [] := by
    cases b.lent <;> rfl
  exact ⟨by simp only [start, hping, hunseen], by simp only [start, hacquire, hunseen]⟩

/-- The closed connection refuses the ping, or to be lent, which is the same refusal. -/
theorem run_direct_closed (hclosed : b.lent = .isClosed)
    (hcancel : ¬cancel.any (·.before now) = true) (mode : CheckMode) :
    run ⟨mode, budget⟩ cancel now b =
      ⟨now, [], .ok (.error (.ofError budget .closed)), b.connect.2⟩ := by
  obtain ⟨hping, hdeep⟩ :=
    start_direct hdirect budget now (by rw [hclosed]; nofun)
  rw [hclosed] at hping hdeep
  unfold run
  rw [if_neg hcancel]
  cases mode with
  | ping =>
    rw [hping]
    exact runFrom_done (step_refused
      (c := ⟨now, now + budget.millisUp, .pinging (.immediate now .isClosed) false⟩)
      rfl rfl (Nat.le_refl _)) rfl
  | deep =>
    rw [hdeep]
    exact runFrom_done (step_acquire_refused
      (c := ⟨now, now + budget.millisUp, .acquiring (.immediate now .isClosed) .isClosed⟩)
      rfl rfl (Nat.le_refl _)) rfl

/-- The connection panics in its answer to either question. -/
theorem run_direct_panics (hpanics : b.lent = .panics)
    (hcancel : ¬cancel.any (·.before now) = true) (mode : CheckMode) :
    run ⟨mode, budget⟩ cancel now b = ⟨now, [], .error .collaborator, b.connect.2⟩ := by
  obtain ⟨hping, hdeep⟩ :=
    start_direct hdirect budget now (by rw [hpanics]; nofun)
  rw [hpanics] at hping hdeep
  unfold run
  rw [if_neg hcancel]
  cases mode with
  | ping =>
    rw [hping]
    exact runFrom_crashed (step_ping_panics
      (c := ⟨now, now + budget.millisUp, .pinging (.immediate now .panics) false⟩)
      rfl rfl (Nat.le_refl _)) rfl
  | deep =>
    rw [hdeep]
    exact runFrom_crashed (step_acquire_panics
      (c := ⟨now, now + budget.millisUp, .acquiring (.immediate now .panics) .panics⟩)
      rfl rfl (Nat.le_refl _)) rfl

theorem run_direct_open (hopen : b.lent = .isOpen)
    (hcancel : ¬cancel.any (·.before now) = true) :
    run ⟨.deep, budget⟩ cancel now b = run ⟨.ping, budget⟩ cancel now b := by
  have hping : b.ping now = b.connect.2.pingConnection now := by
    rw [Backend.ping_direct hdirect, if_pos hopen]
  have hacquire : b.acquire now = (.immediate now .isOpen, .isOpen, b.connect.2) := by
    rw [← hopen]
    simp only [Backend.acquire, hdirect]
    rfl
  have hlends : b.connect.2.lends = false := by
    have hkind : b.connect.2.kind = .direct := hdirect
    simp only [Backend.lends, hkind]
    rfl
  generalize b.connect.2 = b' at hping hacquire hlends
  have hlent : Check.step ⟨.deep, budget⟩ now ⟨now, now + budget.millisUp,
      .acquiring (.immediate now .isOpen) .isOpen⟩ b' =
        some ⟨.going ⟨now, now + budget.millisUp, .pinging (b'.pingConnection now).1 b'.lends⟩,
          (b'.pingConnection now).1.traced [.ping budget], (b'.pingConnection now).2⟩ :=
    step_open (c := ⟨now, now + budget.millisUp, .acquiring (.immediate now .isOpen) .isOpen⟩)
      rfl rfl (Nat.le_refl _)
  have hfuelled : Fuelled ⟨.deep, budget⟩ now ⟨now, now + budget.millisUp,
      .acquiring (.immediate now .isOpen) .isOpen⟩ b' (5 + 1) := by
    have h := start_fuelled ⟨.deep, budget⟩ now b
    simp only [start, hacquire] at h
    exact h
  have hfuelled' : Fuelled ⟨.ping, budget⟩ now ⟨now, now + budget.millisUp,
      .pinging (b'.pingConnection now).1 b'.lends⟩ (b'.pingConnection now).2 runFuel := by
    have h := start_fuelled ⟨.ping, budget⟩ now b
    simp only [start, hping] at h
    rwa [hlends]
  calc run ⟨.deep, budget⟩ cancel now b
    _ = runFrom ⟨.deep, budget⟩ cancel (5 + 1) now ⟨now, now + budget.millisUp,
          .acquiring (.immediate now .isOpen) .isOpen⟩ b' [] := by
      simp only [run, if_neg hcancel, start, hacquire]
      rfl
    _ = runFrom ⟨.deep, budget⟩ cancel 5 now ⟨now, now + budget.millisUp,
          .pinging (b'.pingConnection now).1 b'.lends⟩ (b'.pingConnection now).2
          (((b'.pingConnection now).1.traced [.ping budget]).map (now, ·)) :=
      runFrom_going hlent rfl
    _ = runFrom ⟨.ping, budget⟩ cancel runFuel now ⟨now, now + budget.millisUp,
          .pinging (b'.pingConnection now).1 b'.lends⟩ (b'.pingConnection now).2
          (((b'.pingConnection now).1.traced [.ping budget]).map (now, ·)) :=
      runFrom_congr rfl (hfuelled.steps hlent rfl) hfuelled'
    _ = run ⟨.ping, budget⟩ cancel now b := by
      simp only [run, if_neg hcancel, start, hping, hlends]

end Direct

/-- Over a single connection it makes no difference in which mode a check runs: it has the same result
at the same time, and the connection sees the same pings and is left the same, whatever it replies and
whenever the check is cut off. A connection that is closed fails the check at once, without a ping. -/
theorem run_modes_agree (hdirect : b.kind = .direct) (budget : Duration) (cancel : Option Cancellation)
    (now : Nat) :
    run ⟨.deep, budget⟩ cancel now b = run ⟨.ping, budget⟩ cancel now b ∧
    (b.NeverPanics → ∃ result, (run ⟨.ping, budget⟩ cancel now b).result = .ok result) ∧
    (b.lent = .isClosed → (∀ cut ∈ cancel, cut.before now = false) → ∀ mode,
      (run ⟨mode, budget⟩ cancel now b).result =
        .ok (.error (.collaborator "Connection error: Connection is closed")) ∧
      (run ⟨mode, budget⟩ cancel now b).finishedAt = now ∧
      (run ⟨mode, budget⟩ cancel now b).pings = 0) := by
  refine ⟨?_, ?_, ?_⟩
  · by_cases hcancel : cancel.any (·.before now) = true
    · simp only [run, if_pos hcancel]
    · cases hb : b.lent with
      | isClosed =>
        rw [run_direct_closed hdirect hb hcancel, run_direct_closed hdirect hb hcancel]
      | panics =>
        rw [run_direct_panics hdirect hb hcancel, run_direct_panics hdirect hb hcancel]
      | isOpen => exact run_direct_open hdirect hb hcancel
  · intro hb
    obtain ⟨result, hresult, -⟩ := run_result ⟨.ping, budget⟩ cancel now hb
    exact ⟨result, hresult⟩
  · intro hclosed hlater mode
    have hcancel : ¬cancel.any (·.before now) = true := by
      intro hany
      obtain ⟨cut, hcut, hbefore⟩ := (Option.any_eq_true _ _).mp hany
      exact Bool.false_ne_true ((hlater cut hcut).symm.trans hbefore)
    rw [run_direct_closed hdirect hclosed hcancel mode]
    exact ⟨rfl, rfl, rfl⟩

def slowLine : Backend where
  kind := .direct
  driver := "target"
  pings := ⟨[], .answer 3 none⟩
  acquires := ⟨[], .ok⟩
  connections := .always .isOpen
  stats := none

/-- Cut off in the millisecond of the answer, before it: both checks have pinged the connection once. -/
theorem run_modes_agree_cut : slowLine.kind = .direct ∧
    run ⟨.deep, .ofMillis 5⟩ (some ⟨10, true⟩) 7 slowLine =
      run ⟨.ping, .ofMillis 5⟩ (some ⟨10, true⟩) 7 slowLine ∧
    (run ⟨.deep, .ofMillis 5⟩ (some ⟨10, true⟩) 7 slowLine).result = .ok (.error .cancelled) ∧
    (run ⟨.deep, .ofMillis 5⟩ (some ⟨10, true⟩) 7 slowLine).pings = 1 := by
  have hdirect : slowLine.kind = .direct := rfl
  obtain ⟨hagree, -⟩ := run_modes_agree hdirect (.ofMillis 5) (some ⟨10, true⟩) 7
  exact ⟨hdirect, hagree, rfl, rfl⟩

end Liveness.Check

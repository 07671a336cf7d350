import Liveness.Proofs.Check.Replies
/-!
# The budget of a check

A check has one budget for all its calls. What comes of it is read off the replies of the target and
the time that they take together.
-/
namespace Liveness

namespace Check

variable {rule : CheckRule} {now : Nat} {c : Check} {b : Backend}

/-- A latency is the time that has passed, as long as the clock can show it. -/
theorem latency_exact (hstart : c.startedAt ≤ now) (hclock : now * 1000000 < Duration.limit) :
    (c.latency now).nanos = (now - c.startedAt) * 1000000 := by
  have hshown {n : Nat} (hn : n ≤ now) : (Duration.clampMillis n).nanos = n * 1000000 := by
    unfold Duration.clampMillis Duration.clampNanos
    rw [dif_pos (Nat.lt_of_le_of_lt (Nat.mul_le_mul_right _ hn) hclock)]
  unfold latency
  rw [Duration.nanos_since, hshown (Nat.le_refl _), hshown hstart]
  omega

/-- A check that fails on an error of its target. It times out if the target reports a timeout, and
otherwise the cause is the text of the error. -/
structure FailsOn (budget : Duration) (e : BackendError) (result : Except Crash CheckResult) :
    Prop where
  timeout_iff : result = .ok (.error (.timeout budget)) ↔ ∃ detail, e = .timeout detail
  other : (∀ detail, e ≠ .timeout detail) → result = .ok (.error (.collaborator e.message))

theorem failsOn_ofError (budget : Duration) (e : BackendError) :
    FailsOn budget e (.ok (.error (.ofError budget e))) := by
  cases e with
  | timeout detail => exact ⟨⟨fun _ => ⟨detail, rfl⟩, fun _ => rfl⟩, fun h => absurd rfl (h detail)⟩
  | _ => exact ⟨⟨nofun, nofun⟩, fun _ => rfl⟩

structure PingedWithin (rule : CheckRule) (limit now : Nat) (b : Backend) (r : Run) : Prop where
  alive : ∀ latency, r.result = .ok (.ok latency) ↔
    ∃ p, b.pingReply = .answer p none ∧ p ≤ limit ∧ latency.nanos = p * 1000000
  refused : ∀ p e, b.pingReply = .answer p (some e) → p ≤ limit → FailsOn rule.budget e r.result
  late : b.pingReply.Late limit →
    r.result = .ok (.error (.timeout rule.budget)) ∧ r.finishedAt = now + limit

/-- What comes of a check in deep mode. The reply for the connection and the one of the connection
share the time that there is. -/
structure BorrowedWithin (rule : CheckRule) (limit now : Nat) (b : Backend) (r : Run) : Prop where
  alive : ∀ latency, r.result = .ok (.ok latency) ↔
    ∃ a q, b.acquireReply = .answer a none ∧ b.lent = .isOpen ∧
      b.connectionReply = .answer q none ∧ a + q ≤ limit ∧ latency.nanos = (a + q) * 1000000
  refused : ∀ a q e, b.acquireReply = .answer a none → b.lent = .isOpen →
    b.connectionReply = .answer q (some e) → a + q ≤ limit → FailsOn rule.budget e r.result
  late : ∀ a, b.acquireReply = .answer a none → a ≤ limit → b.lent = .isOpen →
    b.connectionReply.Late (limit - a) →
    r.result = .ok (.error (.timeout rule.budget)) ∧ r.finishedAt = now + limit
  acquire_refused : ∀ a e, b.acquireReply = .answer a (some e) → a ≤ limit →
    FailsOn rule.budget e r.result ∧ r.pings = 0
  acquire_closed : ∀ a, b.acquireReply = .answer a none → a ≤ limit → b.lent = .isClosed →
    r.result = .ok (.error .connectionClosed) ∧ r.pings = 0
  acquire_late : b.acquireReply.Late limit →
    r.result = .ok (.error (.timeout rule.budget)) ∧ r.finishedAt = now + limit ∧ r.pings = 0

theorem latency_eq_iff (hstart : c.startedAt ≤ now) (hclock : now * 1000000 < Duration.limit)
    (latency : Duration) :
    c.latency now = latency ↔ latency.nanos = (now - c.startedAt) * 1000000 := by
  rw [← latency_exact hstart hclock]
  constructor
  · rintro rfl
    rfl
  · intro h
    exact Duration.nanos_inj h.symm

section Replies

variable {begun : Nat} {reply : Reply} {whole : Run}

theorem Pinged.alive_iff (h : Pinged rule c begun reply whole) (hstart : c.startedAt ≤ begun)
    (hclock : c.deadline * 1000000 < Duration.limit) (latency : Duration) :
    whole.result = .ok (.ok latency) ↔ ∃ delay, reply = .answer delay none ∧
      begun + delay ≤ c.deadline ∧
      latency.nanos = (begun + delay - c.startedAt) * 1000000 := by
  cases h with
  | @alive delay _ htime hfinished hresult =>
    have hshown : (begun + delay) * 1000000 < Duration.limit :=
      Nat.lt_of_le_of_lt (Nat.mul_le_mul_right _ htime) hclock
    have hexact := latency_eq_iff (Nat.le_add_right_of_le hstart) hshown latency
    rw [hresult]
    constructor
    · intro heq
      cases heq
      exact ⟨delay, rfl, htime, hexact.mp rfl⟩
    · rintro ⟨delay', heq, -, hlatency⟩
      cases heq
      rw [hexact.mpr hlatency]
  | late hlate hfinished hresult =>
    rw [hresult]
    refine ⟨nofun, ?_⟩
    rintro ⟨delay, heq, htime, -⟩
    exact absurd heq (hlate.not_answer (by omega))
  | refused _ _ hresult | crashed _ _ hresult =>
    rw [hresult]
    exact ⟨nofun, nofun⟩

theorem Pinged.refused_failsOn {delay : Nat} {e : BackendError}
    (h : Pinged rule c begun (.answer delay (some e)) whole) (htime : begun + delay ≤ c.deadline) :
    FailsOn rule.budget e whole.result := by
  cases h with
  | refused _ _ hresult =>
    rw [hresult]
    exact failsOn_ofError rule.budget e
  | late hlate => exact absurd rfl (hlate.not_answer (by omega))

theorem Pinged.times_out (h : Pinged rule c begun reply whole)
    (hlate : reply.Late (c.deadline - begun)) :
    whole.result = .ok (.error (.timeout rule.budget)) ∧ whole.finishedAt = c.deadline := by
  cases h with
  | late _ hfinished hresult => exact ⟨hresult, hfinished⟩
  | alive htime | refused htime => exact absurd rfl (hlate.not_answer (by omega))
  | crashed htime => exact absurd rfl (hlate.not_panic (by omega))

theorem Pinged.in_time (h : Pinged rule c begun reply whole) (hbegun : begun ≤ c.deadline) :
    begun ≤ whole.finishedAt ∧ whole.finishedAt ≤ c.deadline := by
  cases h with
  | alive htime hfinished | refused htime hfinished | crashed htime hfinished => omega
  | late _ hfinished => omega

theorem Borrowed.reached {a : Nat} (h : Borrowed rule now b whole)
    (ha : b.acquireReply = .answer a none) (hle : a ≤ rule.budget.millisUp)
    (hopen : b.lent = .isOpen) : ∃ c, c.startedAt = now ∧ c.deadline = now + rule.budget.millisUp ∧
      Pinged rule c (now + a) b.connectionReply whole := by
  cases h with
  | pinged hreply _ _ hstart hdeadline hpinged =>
    cases ha.symm.trans hreply
    exact ⟨_, hstart, hdeadline, hpinged⟩
  | closed _ _ hlent | query_panics _ _ hlent => cases hopen.symm.trans hlent
  | late hlate => exact absurd ha (hlate.not_answer hle)
  | refused hreply | crashed hreply => cases ha.symm.trans hreply

theorem Borrowed.alive_iff (h : Borrowed rule now b whole)
    (hclock : (now + rule.budget.millisUp) * 1000000 < Duration.limit) (latency : Duration) :
    whole.result = .ok (.ok latency) ↔
      ∃ a q, b.acquireReply = .answer a none ∧ b.lent = .isOpen ∧
        b.connectionReply = .answer q none ∧ a + q ≤ rule.budget.millisUp ∧
        latency.nanos = (a + q) * 1000000 := by
  constructor
  · intro halive
    cases h with
    | @pinged a c ha hle hopen hstart hdeadline hpinged =>
      rw [← hdeadline] at hclock
      obtain ⟨q, hq, htime, hlatency⟩ :=
        (hpinged.alive_iff (by omega) hclock latency).mp halive
      refine ⟨a, q, ha, hopen, hq, by omega, ?_⟩
      rwa [hstart, Nat.add_assoc, Nat.add_sub_cancel_left] at hlatency
    | refused _ _ _ hresult | closed _ _ _ _ hresult | late _ _ hresult | crashed _ _ _ hresult
    | query_panics _ _ _ _ hresult =>
      cases halive.symm.trans hresult
  · rintro ⟨a, q, ha, hopen, hq, htime, hlatency⟩
    obtain ⟨c, hstart, hdeadline, hpinged⟩ := h.reached ha (by omega) hopen
    rw [← hdeadline] at hclock
    refine (hpinged.alive_iff (by omega) hclock latency).mpr ⟨q, hq, by omega, ?_⟩
    rwa [hstart, Nat.add_assoc, Nat.add_sub_cancel_left]

theorem Borrowed.acquire_refused {a : Nat} {e : BackendError} (h : Borrowed rule now b whole)
    (ha : b.acquireReply = .answer a (some e)) (hle : a ≤ rule.budget.millisUp) :
    FailsOn rule.budget e whole.result ∧ whole.pings = 0 := by
  cases h with
  | refused hreply _ _ hresult hpings =>
    cases ha.symm.trans hreply
    rw [hresult]
    exact ⟨failsOn_ofError rule.budget e, hpings⟩
  | late hlate => exact absurd ha (hlate.not_answer hle)
  | closed hreply | crashed hreply | query_panics hreply | pinged hreply =>
    cases ha.symm.trans hreply

theorem Borrowed.acquire_closed {a : Nat} (h : Borrowed rule now b whole)
    (ha : b.acquireReply = .answer a none) (hle : a ≤ rule.budget.millisUp)
    (hclosed : b.lent = .isClosed) :
    whole.result = .ok (.error .connectionClosed) ∧ whole.pings = 0 := by
  cases h with
  | closed _ _ _ _ hresult hpings => exact ⟨hresult, hpings⟩
  | pinged _ _ hlent | query_panics _ _ hlent => cases hlent.symm.trans hclosed
  | late hlate => exact absurd ha (hlate.not_answer hle)
  | refused hreply | crashed hreply => cases ha.symm.trans hreply

theorem Borrowed.acquire_late (h : Borrowed rule now b whole)
    (hlate : b.acquireReply.Late rule.budget.millisUp) :
    whole.result = .ok (.error (.timeout rule.budget)) ∧
      whole.finishedAt = now + rule.budget.millisUp ∧ whole.pings = 0 := by
  cases h with
  | late _ hfinished hresult hpings => exact ⟨hresult, hfinished, hpings⟩
  | refused hreply hle | closed hreply hle | query_panics hreply hle | pinged hreply hle =>
    exact absurd hreply (hlate.not_answer hle)
  | crashed hreply hle => exact absurd hreply (hlate.not_panic hle)

theorem Borrowed.in_time (h : Borrowed rule now b whole) :
    now ≤ whole.finishedAt ∧ whole.finishedAt ≤ now + rule.budget.millisUp := by
  cases h with
  | pinged _ hle _ hstart hdeadline hpinged =>
    have := hpinged.in_time (by omega)
    omega
  | refused _ hle hfinished | crashed _ hle hfinished => omega
  | closed _ hle _ hfinished | query_panics _ hle _ hfinished => omega
  | late _ hfinished => omega

end Replies

theorem run_pingedWithin (hmode : rule.mode = .ping)
    (hclock : (now + rule.budget.millisUp) * 1000000 < Duration.limit) (b : Backend) :
    PingedWithin rule rule.budget.millisUp now b (run rule none now b) := by
  obtain ⟨c, rfl, hdeadline, h⟩ := run_ping hmode now b
  rw [← hdeadline] at hclock
  have hlimit : c.deadline - c.startedAt = rule.budget.millisUp := by omega
  refine ⟨?_, ?_, ?_⟩
  · intro latency
    rw [h.alive_iff (Nat.le_refl _) hclock latency]
    simp only [hdeadline, Nat.add_le_add_iff_left, Nat.add_sub_cancel_left]
  · intro p e hp hle
    rw [hp] at h
    exact h.refused_failsOn (by omega)
  · intro hlate
    rw [← hdeadline]
    exact h.times_out (by rwa [hlimit])

theorem run_borrowedWithin (hmode : rule.mode = .deep)
    (hclock : (now + rule.budget.millisUp) * 1000000 < Duration.limit) (b : Backend) :
    BorrowedWithin rule rule.budget.millisUp now b (run rule none now b) := by
  have h := run_deep hmode now b
  refine ⟨h.alive_iff hclock, ?_, ?_, fun _ _ => h.acquire_refused, fun _ => h.acquire_closed,
    h.acquire_late⟩
  · intro a q e ha hopen hq htime
    obtain ⟨c, hstart, hdeadline, hpinged⟩ := h.reached ha (by omega) hopen
    rw [hq] at hpinged
    exact hpinged.refused_failsOn (by omega)
  · intro a ha hle hopen hlate
    obtain ⟨c, hstart, hdeadline, hpinged⟩ := h.reached ha hle hopen
    rw [← hdeadline]
    refine hpinged.times_out ?_
    rwa [hdeadline, Nat.add_sub_add_left]

/-- A check is over by its deadline, and how it ends is read off the replies to its calls. In ping mode
it succeeds just if the pool answers in time, in deep mode just if it gets a connection that is open and
answers, both together in time, and its latency is the time that the replies have taken. An error in
time fails it with the text of the error, unless the target reports a timeout. Without an open
connection nothing is pinged. Where no reply comes in time, the check times out at the deadline. The
budget is a whole number of milliseconds, and the deadline a time that the clock can show. -/
theorem run_within_budget {limit : Nat} (hlimit : rule.budget.nanos = limit * 1000000)
    (hclock : (now + limit) * 1000000 < Duration.limit) (b : Backend) :
    (rule.mode = .ping → PingedWithin rule limit now b (run rule none now b)) ∧
    (rule.mode = .deep → BorrowedWithin rule limit now b (run rule none now b)) ∧
    now ≤ (run rule none now b).finishedAt ∧ (run rule none now b).finishedAt ≤ now + limit := by
  have hup : rule.budget.millisUp = limit := by
    unfold Duration.millisUp
    omega
  subst hup
  refine ⟨fun hmode => run_pingedWithin hmode hclock b,
    fun hmode => run_borrowedWithin hmode hclock b, ?_⟩
  cases hmode : rule.mode with
  | ping =>
    obtain ⟨c, rfl, hdeadline, h⟩ := run_ping hmode now b
    rw [← hdeadline]
    exact h.in_time (by omega)
  | deep => exact (run_deep hmode now b).in_time

def tightRule : CheckRule := ⟨.deep, .ofMillis 5⟩

/-- A pool that lends a connection after two milliseconds, which answers after three. -/
def slowLender : Backend where
  kind := .pool
  driver := "target"
  pings := ⟨[], .answer 3 none⟩
  acquires := ⟨[], .answer 2 none⟩
  connections := .always .isOpen
  stats := none

/-- The two replies use up the budget, and the second one is in time. -/
theorem run_within_budget_tie : tightRule.budget.nanos = 5 * 1000000 ∧
    (run tightRule none 7 slowLender).result = .ok (.ok (.ofMillis 5)) ∧
    (run tightRule none 7 slowLender).finishedAt ≤ 7 + 5 := by
  have hlimit : tightRule.budget.nanos = 5 * 1000000 := by decide
  have hclock : (7 + 5) * 1000000 < Duration.limit := by decide
  obtain ⟨-, hdeep, -, hend⟩ := run_within_budget hlimit hclock slowLender
  have hborrowed := hdeep rfl
  refine ⟨hlimit, (hborrowed.alive _).mpr ⟨2, 3, rfl, rfl, rfl, by decide, by decide⟩, hend⟩

end Check

end Liveness

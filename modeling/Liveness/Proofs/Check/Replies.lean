import Liveness.Proofs.Check.Outcome
/-!
# Checks and the replies they get

The target's replies to the calls of a check say how it ends. A reply that is due before the deadline,
or just then, is waited for, and without one the check times out at the deadline.
-/
namespace Liveness

def Call.isPing : Call → Bool
  | .ping _ => true
  | _ => false

def Openness.reply : Openness → Reply
  | .isOpen => .answer 0 none
  | .isClosed => .answer 0 (some .closed)
  | .panics => .panic 0

theorem PendingCall.immediate_reply (now : Nat) (said : Openness) :
    (PendingCall.immediate now said).reply = said.reply.pendingFrom now := by
  cases said <;> rfl

namespace Backend

variable {b : Backend} {now : Nat}

def lent (b : Backend) : Openness := b.connections.next.1

def pingReply (b : Backend) : Reply :=
  match b.kind with
  | .pool => b.pings.next.1
  | .direct => if b.lent = .isOpen then b.pings.next.1 else b.lent.reply

def acquireReply (b : Backend) : Reply :=
  match b.kind with
  | .direct => b.lent.reply
  | .pool => b.acquires.next.1

def connectionReply (b : Backend) : Reply := b.pings.next.1

theorem ping_direct (hkind : b.kind = .direct) : b.ping now =
    if b.lent = .isOpen then b.connect.2.pingConnection now
    else (.immediate now b.lent, b.connect.2) := by
  simp only [ping, hkind]
  rfl

theorem ping_reply : (b.ping now).1.reply = b.pingReply.pendingFrom now := by
  cases hkind : b.kind with
  | pool =>
    simp only [ping, pingReply, hkind]
    rfl
  | direct =>
    simp only [ping_direct hkind, pingReply, hkind]
    by_cases hopen : b.lent = .isOpen
    · rw [if_pos hopen, if_pos hopen]
      rfl
    · rw [if_neg hopen, if_neg hopen]
      exact PendingCall.immediate_reply now b.lent

theorem acquire_reply : (b.acquire now).1.reply = b.acquireReply.pendingFrom now := by
  unfold acquire acquireReply
  cases b.kind with
  | pool => rfl
  | direct => exact PendingCall.immediate_reply now b.lent

theorem acquire_lent (b : Backend) (now : Nat) : (b.acquire now).2.1 = b.lent := by
  unfold acquire
  cases b.kind <;> rfl

theorem acquire_connectionReply (b : Backend) (now : Nat) :
    (b.acquire now).2.2.connectionReply = b.connectionReply := by
  unfold acquire
  cases b.kind <;> rfl

end Backend

def Reply.delay? : Reply → Option Nat
  | .answer delay _ => some delay
  | .never => none
  | .panic delay => some delay

def Reply.Late (r : Reply) (limit : Nat) : Prop :=
  ∀ delay, r.delay? = some delay → limit < delay

theorem Reply.Late.not_answer {r : Reply} {limit delay : Nat} {error : Option BackendError}
    (h : r.Late limit) (hle : delay ≤ limit) : r ≠ .answer delay error := by
  rintro rfl
  exact absurd hle (Nat.not_le_of_lt (h delay rfl))

theorem Reply.Late.not_panic {r : Reply} {limit delay : Nat} (h : r.Late limit)
    (hle : delay ≤ limit) : r ≠ .panic delay := by
  rintro rfl
  exact absurd hle (Nat.not_le_of_lt (h delay rfl))

theorem Reply.late_of_lt {r : Reply} {limit delay : Nat} (h : r.delay? = some delay)
    (hlt : limit < delay) : r.Late limit := by
  intro delay' hdelay'
  cases h.symm.trans hdelay'
  exact hlt

theorem Reply.late_or (r : Reply) (limit : Nat) :
    r.Late limit ∨ (∃ delay, r = .panic delay ∧ delay ≤ limit) ∨
      ∃ delay error, r = .answer delay error ∧ delay ≤ limit := by
  cases r with
  | answer delay error =>
    rcases Nat.lt_or_ge limit delay with hlt | hle
    · exact Or.inl (Reply.late_of_lt rfl hlt)
    · exact Or.inr (Or.inr ⟨delay, error, rfl, hle⟩)
  | never => exact Or.inl nofun
  | panic delay =>
    rcases Nat.lt_or_ge limit delay with hlt | hle
    · exact Or.inl (Reply.late_of_lt rfl hlt)
    · exact Or.inr (Or.inl ⟨delay, rfl, hle⟩)

theorem Reply.due_pendingFrom (r : Reply) (begun : Nat) :
    (r.pendingFrom begun).due = r.delay?.map (begun + ·) := by
  cases r <;> rfl

theorem Reply.Late.after {r : Reply} {begun deadline : Nat} (h : r.Late (deadline - begun)) :
    (r.pendingFrom begun).After deadline := by
  intro due hdue
  rw [due_pendingFrom] at hdue
  obtain ⟨delay, hdelay, rfl⟩ := Option.map_eq_some_iff.mp hdue
  have := h delay hdelay
  omega

namespace Check

def Run.pings (r : Run) : Nat := r.calls.countP fun p => p.2.isPing

variable {rule : CheckRule} {now : Nat} {c : Check} {b : Backend}

theorem wakeAt_after (h : c.awaited.reply.After c.deadline) : c.wakeAt = c.deadline := by
  rw [wakeAt_eq]
  split
  · rename_i time hdue
    exact Nat.min_eq_right (Nat.le_of_lt (h time hdue))
  · rfl

namespace Underway

variable {seen : List (Nat × Call)} {whole : Run} {time : Nat}

theorem crashes {st : Step} (h : c.Underway rule now b seen whole)
    (hs : c.step rule now b = some st) (hn : st.next = .crashed) :
    whole = ⟨now, seen ++ st.calls.map (now, ·), .error .collaborator, st.backend⟩ := by
  obtain ⟨fuel, hf, hrun⟩ := h
  obtain ⟨fuel, rfl⟩ := Nat.exists_eq_add_one.mpr hf.pos
  simp only [runFrom, hs, hn] at hrun
  exact hrun.symm

theorem replied (h : c.Underway rule now b seen whole) (hdue : c.awaited.reply.due = some time)
    (hnow : now ≤ time) (htime : time ≤ c.deadline) : c.Underway rule time b seen whole := by
  rcases Nat.eq_or_lt_of_le hnow with rfl | hlt
  · exact h
  · have hwaits : c.step rule now b = none := by
      have hafter : c.awaited.reply.After now := by
        intro due hdue'
        cases hdue.symm.trans hdue'
        exact hlt
      rw [step_eq_expire hafter]
      exact if_neg (by omega)
    have hwake : c.wakeAt = time := by
      simp only [wakeAt_eq, hdue, Nat.min_eq_left htime]
    rw [← hwake]
    exact h.waits hwaits

theorem expires (h : c.Underway rule now b seen whole) (hnow : now ≤ c.deadline)
    (hlate : c.awaited.reply.After c.deadline) :
    whole = ⟨c.deadline, seen ++ c.abandon.map (c.deadline, ·),
      .ok (.error (.timeout rule.budget)), b⟩ := by
  have hover : c.Underway rule c.deadline b seen whole := by
    rcases Nat.eq_or_lt_of_le hnow with heq | hlt
    · rwa [← heq]
    · have hwaits : c.step rule now b = none := by
        rw [step_eq_expire (hlate.earlier hnow)]
        exact if_neg (by omega)
      rw [← wakeAt_after hlate]
      exact h.waits hwaits
  have hexpires : c.step rule c.deadline b =
      some ⟨.done (.error (.timeout rule.budget)), c.abandon, b⟩ := by
    rw [step_eq_expire hlate]
    exact if_pos (Nat.le_refl _)
  exact hover.ends hexpires rfl

end Underway

/-- How a check ends that has made its ping, by the reply to it. -/
inductive Pinged (rule : CheckRule) (c : Check) (begun : Nat) : Reply → Run → Prop where
  | alive {delay whole} : begun + delay ≤ c.deadline →
      whole.finishedAt = begun + delay → whole.result = .ok (.ok (c.latency (begun + delay))) →
      Pinged rule c begun (.answer delay none) whole
  | refused {delay e whole} : begun + delay ≤ c.deadline →
      whole.finishedAt = begun + delay →
      whole.result = .ok (.error (.ofError rule.budget e)) →
      Pinged rule c begun (.answer delay (some e)) whole
  | late {reply whole} : reply.Late (c.deadline - begun) →
      whole.finishedAt = c.deadline → whole.result = .ok (.error (.timeout rule.budget)) →
      Pinged rule c begun reply whole
  | crashed {delay whole} : begun + delay ≤ c.deadline →
      whole.finishedAt = begun + delay → whole.result = .error .collaborator →
      Pinged rule c begun (.panic delay) whole

theorem Underway.pinged {begun : Nat} {seen : List (Nat × Call)} {whole : Run} {call : PendingCall}
    {borrowed : Bool} {reply : Reply} (h : c.Underway rule begun b seen whole)
    (hstage : c.stage = .pinging call borrowed) (hreply : call.reply = reply.pendingFrom begun)
    (hbegun : begun ≤ c.deadline) : Pinged rule c begun reply whole := by
  have hawaited : c.awaited.reply = reply.pendingFrom begun := by
    simp only [awaited, hstage, hreply]
  have hdue : c.awaited.reply.due = reply.delay?.map (begun + ·) := by
    rw [hawaited, Reply.due_pendingFrom]
  rcases reply.late_or (c.deadline - begun) with
    hlate | ⟨delay, rfl, hdelay⟩ | ⟨delay, error, rfl, hdelay⟩
  · have hends := h.expires hbegun (by rw [hawaited]; exact hlate.after)
    exact .late hlate (by rw [hends]) (by rw [hends])
  · have htime : begun + delay ≤ c.deadline := by omega
    have hreplied := h.replied hdue (Nat.le_add_right ..) htime
    have hends := hreplied.crashes (step_ping_panics hstage hreply (Nat.le_refl _)) rfl
    exact .crashed htime (by rw [hends]) (by rw [hends])
  · have htime : begun + delay ≤ c.deadline := by omega
    have hreplied := h.replied hdue (Nat.le_add_right ..) htime
    cases error with
    | none =>
      have hends := hreplied.ends (step_alive hstage hreply (Nat.le_refl _)) rfl
      exact .alive htime (by rw [hends]) (by rw [hends])
    | some e =>
      have hends := hreplied.ends (step_refused hstage hreply (Nat.le_refl _)) rfl
      exact .refused htime (by rw [hends]) (by rw [hends])

def Quiet (calls : List (Nat × Call)) : Prop := ∀ p ∈ calls, p.2.isPing = false

theorem Quiet.append {calls more : List (Nat × Call)} (h : Quiet calls) (hm : Quiet more) :
    Quiet (calls ++ more) := by
  intro p hp
  rcases List.mem_append.mp hp with hp | hp
  · exact h p hp
  · exact hm p hp

theorem quiet_at (time : Nat) {calls : List Call} (h : ∀ call ∈ calls, call.isPing = false) :
    Quiet (calls.map (time, ·)) := by
  intro p hp
  obtain ⟨call, hcall, rfl⟩ := List.mem_map.mp hp
  exact h call hcall

theorem quiet_traced (time : Nat) (awaited : PendingCall) {call : Call} (h : call.isPing = false) :
    Quiet ((awaited.traced [call]).map (time, ·)) := by
  refine quiet_at time ?_
  unfold PendingCall.traced
  split <;> simp [h]

theorem quiet_giveBack (time : Nat) (borrowed : Bool) :
    Quiet ((giveBack borrowed).map (time, ·)) := by
  cases borrowed with
  | false => exact nofun
  | true => exact quiet_at time (by simp [giveBack, Call.isPing])

theorem Run.pings_eq_zero {r : Run} (h : Quiet r.calls) : r.pings = 0 := by
  refine List.countP_eq_zero.mpr ?_
  intro p hp
  rw [h p hp]
  exact Bool.false_ne_true

/-- How a check ends that asks for a connection first, by the replies of its target. -/
inductive Borrowed (rule : CheckRule) (now : Nat) (b : Backend) (whole : Run) : Prop where
  | refused {delay e} : b.acquireReply = .answer delay (some e) → delay ≤ rule.budget.millisUp →
      whole.finishedAt = now + delay → whole.result = .ok (.error (.ofError rule.budget e)) →
      whole.pings = 0 → Borrowed rule now b whole
  | closed {delay} : b.acquireReply = .answer delay none → delay ≤ rule.budget.millisUp →
      b.lent = .isClosed → whole.finishedAt = now + delay →
      whole.result = .ok (.error .connectionClosed) → whole.pings = 0 → Borrowed rule now b whole
  | late : b.acquireReply.Late rule.budget.millisUp →
      whole.finishedAt = now + rule.budget.millisUp →
      whole.result = .ok (.error (.timeout rule.budget)) → whole.pings = 0 →
      Borrowed rule now b whole
  | crashed {delay} : b.acquireReply = .panic delay → delay ≤ rule.budget.millisUp →
      whole.finishedAt = now + delay → whole.result = .error .collaborator →
      Borrowed rule now b whole
  /-- The connection panics when it is asked whether it is closed. -/
  | query_panics {delay} : b.acquireReply = .answer delay none → delay ≤ rule.budget.millisUp →
      b.lent = .panics → whole.finishedAt = now + delay → whole.result = .error .collaborator →
      Borrowed rule now b whole
  | pinged {delay c} : b.acquireReply = .answer delay none → delay ≤ rule.budget.millisUp →
      b.lent = .isOpen → c.startedAt = now → c.deadline = now + rule.budget.millisUp →
      Pinged rule c (now + delay) b.connectionReply whole → Borrowed rule now b whole

theorem run_ping (hmode : rule.mode = .ping) (now : Nat) (b : Backend) :
    ∃ c, c.startedAt = now ∧ c.deadline = now + rule.budget.millisUp ∧
      Pinged rule c now b.pingReply (run rule none now b) := by
  have h := underway_start rule now b
  simp only [start, hmode] at h
  exact ⟨_, rfl, rfl, h.pinged rfl Backend.ping_reply (Nat.le_add_right ..)⟩

theorem run_deep (hmode : rule.mode = .deep) (now : Nat) (b : Backend) :
    Borrowed rule now b (run rule none now b) := by
  have h := underway_start rule now b
  simp only [start, hmode, Backend.acquire_lent] at h
  have hreply : (b.acquire now).1.reply = b.acquireReply.pendingFrom now := Backend.acquire_reply
  have hdue : (b.acquire now).1.reply.due = b.acquireReply.delay?.map (now + ·) := by
    rw [hreply, Reply.due_pendingFrom]
  have hasked : Quiet (((b.acquire now).1.traced [.acquire]).map (now, ·)) :=
    quiet_traced now _ rfl
  rcases b.acquireReply.late_or rule.budget.millisUp with
    hlate | ⟨delay, ha, hle⟩ | ⟨delay, error, ha, hle⟩
  · have hafter : (b.acquire now).1.reply.After (now + rule.budget.millisUp) := by
      rw [hreply]
      exact Reply.Late.after (by rwa [Nat.add_sub_cancel_left])
    have hends := h.expires (Nat.le_add_right ..) hafter
    refine .late hlate (by rw [hends]) (by rw [hends]) (Run.pings_eq_zero ?_)
    rw [hends]
    exact hasked.append (quiet_traced _ _ rfl)
  · rw [ha] at hreply hdue
    have hgot := h.replied hdue (Nat.le_add_right ..) (Nat.add_le_add_left hle now)
    have hends := hgot.crashes (step_acquire_panics rfl hreply (Nat.le_refl _)) rfl
    exact .crashed ha hle (by rw [hends]) (by rw [hends])
  · rw [ha] at hreply hdue
    have hgot := h.replied hdue (Nat.le_add_right ..) (Nat.add_le_add_left hle now)
    cases error with
    | some e =>
      have hends := hgot.ends (step_acquire_refused rfl hreply (Nat.le_refl _)) rfl
      refine .refused ha hle (by rw [hends]) (by rw [hends]) (Run.pings_eq_zero ?_)
      rw [hends]
      exact hasked.append (quiet_traced _ _ rfl)
    | none =>
      cases hlent : b.lent with
      | isClosed =>
        rw [hlent] at hgot
        have hends := hgot.ends (step_closed rfl hreply (Nat.le_refl _)) rfl
        refine .closed ha hle hlent (by rw [hends]) (by rw [hends]) (Run.pings_eq_zero ?_)
        rw [hends, List.map_append]
        exact hasked.append ((quiet_traced _ _ rfl).append (quiet_giveBack _ _))
      | panics =>
        rw [hlent] at hgot
        have hends := hgot.crashes (step_query_panics rfl hreply (Nat.le_refl _)) rfl
        exact .query_panics ha hle hlent (by rw [hends]) (by rw [hends])
      | isOpen =>
        rw [hlent] at hgot
        have hpinging := hgot.steps (step_open rfl hreply (Nat.le_refl _)) rfl
        have hpinged : Pinged rule _ (now + delay) (b.acquire now).2.2.connectionReply _ :=
          hpinging.pinged rfl rfl (Nat.add_le_add_left hle now)
        rw [Backend.acquire_connectionReply] at hpinged
        exact .pinged ha hle hlent rfl rfl hpinged

end Check

end Liveness

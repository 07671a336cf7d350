import Liveness.Proofs.Monitor.Course
import Liveness.Proofs.Monitor.Pace
/-!
# Polling

To give time to a monitor is to let it live step by step. Its loop does what it can do now, and
always comes to where it waits within the fuel of `poll`. Then the time comes at which it goes on.
So whatever the users of a monitor do, its history is a course in which nothing is late.
-/
namespace Liveness

variable {s : Settings}

namespace Monitor

variable {m m' : Monitor} {j : Journal} {steps : List (Monitor × Move)}

def Punctual (m : Monitor) : Prop := ∀ l, m.runner = .live l → l.Punctual m.settings m.now

def rank (m : Monitor) : Nat :=
  match m.runner with
  | .live l => l.rank m.settings m.now
  | .severed _ => 1
  | .idle | .ended _ => 0

theorem turn_eq_none (h : m.turn = none) :
    m.atRest = true ∧ ∀ wake, m.wakeAt = some wake → m.now < wake := by
  unfold turn at h
  unfold atRest wakeAt
  split at h
  · rename_i l hl
    obtain ⟨hc, hw⟩ := ControlLoop.waits (Option.map_eq_none_iff.mp h)
    simp only [hl, Option.some.injEq]
    refine ⟨hc, ?_⟩
    rintro wake rfl
    exact hw
  · cases h
  · rename_i hr
    simp [hr, Runner.atRest]
  · rename_i hr
    simp [hr, Runner.atRest]

structure Paced (m : Monitor) : Prop where
  standing : m.Standing
  punctual : m.Punctual

theorem Paced.turn (h : m.Paced) (ht : m.turn = some (m', j)) :
    m'.Paced ∧ m'.rank < m.rank := by
  have hs := turn_settings ht
  have hstanding : m'.Standing := h.standing.moved hs (turn_moved ht)
  rcases turn_eq_some ht with ⟨l, t, event, next, hl, hprog, he⟩ | ⟨l, hl, he⟩
  · have hf := h.standing.fits
    rw [hl] at hf
    cases next with
    | going l' =>
      refine ⟨⟨hstanding, ?_⟩, ?_⟩
      · intro l'' hl''
        rw [he.runner] at hl''
        cases hl''
        rw [hs, he.now]
        exact hprog.punctual h.standing.valid (h.punctual l hl)
      · simp only [rank, hl, he.runner, runnerAfter, hs, he.now]
        exact hprog.rank_lt h.standing.valid hf (h.punctual l hl)
    | left => exact absurd rfl hprog.ne_left
    | crashed c =>
      refine ⟨⟨hstanding, ?_⟩, ?_⟩
      · intro l' hl'
        rw [he.runner] at hl'
        cases hl'
      · simp only [rank, hl, he.runner, runnerAfter]
        exact hprog.rank_pos hf
  · refine ⟨⟨hstanding, ?_⟩, ?_⟩
    · intro l' hl'
      rw [he.runner] at hl'
      cases hl'
    · simp [rank, hl, he.runner]

theorem turn_now (ht : m.turn = some (m', j)) : m'.now = m.now := by
  rcases turn_eq_some ht with ⟨l, t, event, next, -, -, he⟩ | ⟨l, -, he⟩
  · exact he.now
  · exact he.now

theorem rank_le_turnFuel (m : Monitor) : m.rank ≤ m.turnFuel := by
  unfold rank turnFuel
  split
  · rename_i l hl
    cases l with
    | unstarted =>
      simp only [ControlLoop.rank]
      omega
    | awaiting due =>
      simp only [ControlLoop.rank]
      split <;> omega
    | checking nextTick check =>
      have := check.rank_le
      simp only [ControlLoop.rank]
      split <;> omega
    | reconnecting e =>
      cases e with
      | attempting attempts check =>
        have := check.rank_le
        simp only [ControlLoop.rank, Episode.rank]
        omega
      | _ =>
        simp only [ControlLoop.rank, Episode.rank]
        omega
  · omega
  · omega
  · omega

theorem Paced.turns (h : m.Paced) (fuel : Nat) :
    (turns fuel m).1.Paced ∧ (turns fuel m).1.now = m.now ∧
      (m.rank ≤ fuel → (turns fuel m).1.turn = none) := by
  -- each turn lowers the rank, and fuel is at least as much
  induction fuel generalizing m with
  | zero =>
    refine ⟨h, rfl, ?_⟩
    intro hr
    cases ht : m.turn with
    | none => exact ht
    | some p =>
      have := (h.turn ht).2
      omega
  | succ fuel ih =>
    cases ht : m.turn with
    | none =>
      simp only [Monitor.turns, ht]
      exact ⟨h, trivial, fun _ => trivial⟩
    | some p =>
      obtain ⟨m₁, j₁⟩ := p
      obtain ⟨hp₁, hr₁⟩ := h.turn ht
      obtain ⟨hp, hn, hz⟩ := ih hp₁
      simp only [Monitor.turns, ht]
      refine ⟨hp, hn.trans (turn_now ht), ?_⟩
      intro hr
      exact hz (by omega)

theorem Paced.poll {polled : Monitor} {journal : Journal} (h : m.Paced)
    (hm : m.poll = (polled, journal)) :
    polled.Paced ∧ polled.now = m.now ∧ polled.turn = none := by
  obtain ⟨hp, hn, hz⟩ := h.turns m.turnFuel
  unfold Monitor.poll at hm
  rw [hm] at hp hn hz
  exact ⟨hp, hn, hz m.rank_le_turnFuel⟩

/-- Where nothing can be done now, time may pass up to where the loop goes on. -/
theorem Paced.pass {time : Nat} (h : m.Paced) (hz : m.turn = none) (hn : m.now ≤ time)
    (ht : ∀ wake, m.wakeAt = some wake → time ≤ wake) :
    ({ m with now := time } : Monitor).Paced := by
  have he : m.Enabled (.pass time) := ⟨(turn_eq_none hz).1, hn⟩
  refine ⟨h.standing.moved rfl (moved he), ?_⟩
  intro l hl
  have hl : m.runner = .live l := hl
  have hp := h.punctual l hl
  have ht : time ≤ l.wakeAt m.now := ht _ (by simp [wakeAt, hl])
  cases l with
  | awaiting due => exact Or.inr ht
  | checking nextTick check => exact ⟨Nat.le_trans ht check.wakeAt_le, hp.2⟩
  | _ => trivial

theorem Paced.advanceTo {target : Nat} (h : m.Paced) (hn : m.now ≤ target) :
    (m.advanceTo target).1.Paced ∧ (m.advanceTo target).1.atRest = true := by
  induction m using advanceTo.induct target with
  | case1 m polled journal hpoll hw =>
    obtain ⟨hp, hnow, hz⟩ := h.poll hpoll
    rw [Monitor.advanceTo, hpoll]
    simp only [hw]
    exact ⟨hp.pass hz (by omega) (by simp [hw]), (turn_eq_none hz).1⟩
  | case2 m polled journal hpoll wake hw hwake m' rest hrest ih =>
    obtain ⟨hp, hnow, hz⟩ := h.poll hpoll
    have hpass : ({ polled with now := wake } : Monitor).Paced :=
      hp.pass hz (by omega) (by simp [hw])
    rw [Monitor.advanceTo, hpoll]
    simp only [hw, if_pos hwake]
    exact ih hpass (Nat.le_of_lt hwake.2)
  | case3 m polled journal hpoll wake hw hwake =>
    obtain ⟨hp, hnow, hz⟩ := h.poll hpoll
    have hlater := (turn_eq_none hz).2 wake hw
    have hpass : ({ polled with now := target } : Monitor).Paced := by
      refine hp.pass hz (by omega) ?_
      simp only [hw, Option.some.injEq]
      omega
    rw [Monitor.advanceTo, hpoll]
    simp only [hw, if_neg hwake]
    exact ⟨hpass, (turn_eq_none hz).1⟩

/-- Time passes only while the loop has nothing to do, and not beyond where it goes on. -/
def Prompt (m : Monitor) : Move → Prop
  | .pass time => m.turn.isNone = true ∧ m.wakeAt.all (time ≤ ·) = true
  | _ => True

instance (m : Monitor) : (move : Move) → Decidable (m.Prompt move)
  | .pass _ => @instDecidableAnd _ _ (instDecidableEqBool _ _) (instDecidableEqBool _ _)
  | .turn | .start | .stop | .drop | .reset | .register _ | .unregister _ | .change _ =>
    .isTrue trivial

/-- Turns are part of a course. -/
theorem Course.turns (h : Course s steps j m) (fuel : Nat) :
    ∃ more, Course s (steps ++ more) (j ++ (turns fuel m).2) (turns fuel m).1 ∧
      ∀ p ∈ more, p.1.Prompt p.2 := by
  induction fuel generalizing steps j m with
  | zero => exact ⟨[], by simpa [Monitor.turns] using h, by simp⟩
  | succ fuel ih =>
    cases ht : m.turn with
    | none => exact ⟨[], by simpa [Monitor.turns, ht] using h, by simp⟩
    | some p =>
      obtain ⟨m₁, j₁⟩ := p
      have hturn : Course s (steps ++ [(m, .turn)]) (j ++ j₁) m₁ := by
        have := h.move .turn trivial
        simpa only [Monitor.next, ht, Option.getD_some] using this
      obtain ⟨more, hc, hprompt⟩ := ih hturn
      refine ⟨(m, .turn) :: more, ?_, List.forall_mem_cons.mpr ⟨trivial, hprompt⟩⟩
      simpa [Monitor.turns, ht] using hc

/-- So is the time that passes once the loop waits. -/
theorem Course.pollThenPass {polled : Monitor} {journal : Journal} {time : Nat}
    (h : Course s steps j m) (hp : m.Paced) (hm : m.poll = (polled, journal))
    (hn : m.now ≤ time) (ht : ∀ wake, polled.wakeAt = some wake → time ≤ wake) :
    ∃ more, Course s (steps ++ more) (j ++ journal) { polled with now := time } ∧
      ∀ p ∈ more, p.1.Prompt p.2 := by
  obtain ⟨-, hnow, hz⟩ := hp.poll hm
  obtain ⟨more, hc, hprompt⟩ := h.turns m.turnFuel
  unfold Monitor.poll at hm
  rw [hm] at hc
  have he : polled.Enabled (.pass time) := ⟨(turn_eq_none hz).1, by omega⟩
  have hpass := hc.move (.pass time) he
  refine ⟨more ++ [(polled, .pass time)], by simpa [Monitor.next] using hpass, ?_⟩
  refine List.forall_mem_append.mpr ⟨hprompt, ?_⟩
  intro p hp
  cases List.mem_singleton.mp hp
  refine ⟨by simp [hz], ?_⟩
  cases hw : polled.wakeAt with
  | none => rfl
  | some wake => simpa using ht wake hw

theorem Course.advanceTo {target : Nat} (h : Course s steps j m) (hp : m.Paced)
    (hn : m.now ≤ target) :
    ∃ more, Course s (steps ++ more) (j ++ (m.advanceTo target).2) (m.advanceTo target).1 ∧
      ∀ p ∈ more, p.1.Prompt p.2 := by
  induction m using advanceTo.induct target generalizing steps j with
  | case1 m polled journal hpoll hw =>
    rw [Monitor.advanceTo, hpoll]
    simp only [hw]
    exact h.pollThenPass hp hpoll hn (by simp [hw])
  | case2 m polled journal hpoll wake hw hwake m' rest hrest ih =>
    obtain ⟨hpaced, hnow, hz⟩ := hp.poll hpoll
    have hpass : ({ polled with now := wake } : Monitor).Paced :=
      hpaced.pass hz (by omega) (by simp [hw])
    obtain ⟨more, hc, hmore⟩ := h.pollThenPass hp hpoll (Nat.le_of_lt hwake.1) (by simp [hw])
    obtain ⟨later, hlast, hlater⟩ := ih hc hpass (Nat.le_of_lt hwake.2)
    rw [Monitor.advanceTo, hpoll]
    simp only [hw, if_pos hwake]
    refine ⟨more ++ later, ?_, List.forall_mem_append.mpr ⟨hmore, hlater⟩⟩
    simpa only [List.append_assoc] using hlast
  | case3 m polled journal hpoll wake hw hwake =>
    obtain ⟨-, hnow, hz⟩ := hp.poll hpoll
    have hlater := (turn_eq_none hz).2 wake hw
    rw [Monitor.advanceTo, hpoll]
    simp only [hw, if_neg hwake]
    refine h.pollThenPass hp hpoll hn ?_
    simp only [hw, Option.some.injEq]
    omega

def Move.isCall : Move → Bool
  | .turn | .pass _ => false
  | _ => true

/-- What is seen of a monitor by those who use it: they make calls and let time pass. -/
inductive History (s : Settings) : Journal → Monitor → Prop where
  | new {b e levels} {m : Monitor} : Monitor.new s b e levels = .ok m → History s [] m
  | call {j : Journal} {m : Monitor} (move : Move) : History s j m → move.isCall = true →
      History s (j ++ (m.next move).2) (m.next move).1
  | advance {j : Journal} {m : Monitor} (ms : Nat) : History s j m →
      History s (j ++ (m.advance ms).2) (m.advance ms).1

theorem call_keeps {move : Move} (hp : m.Punctual) (hm : m.atRest = true)
    (hc : move.isCall = true) :
    (m.next move).1.Punctual ∧ (m.next move).1.atRest = true := by
  cases move with
  | turn => cases hc
  | pass time => cases hc
  | start =>
    simp only [next, start]
    split
    · exact ⟨hp, hm⟩
    · exact ⟨hp, hm⟩
    all_goals
      refine ⟨?_, rfl⟩
      rintro l ⟨⟩
      trivial
  | stop =>
    simp only [next, stop]
    split
    · exact ⟨hp, hm⟩
    · exact ⟨hp, hm⟩
    all_goals
      refine ⟨?_, rfl⟩
      rintro l ⟨⟩
  | drop =>
    simp only [next, drop]
    split
    all_goals
      refine ⟨?_, rfl⟩
      rintro l ⟨⟩
  | reset => exact ⟨hp, hm⟩
  | register handler => exact ⟨hp, hm⟩
  | unregister id => exact ⟨hp, hm⟩
  | change f => exact ⟨hp, hm⟩

theorem enabled_call {move : Move} (hm : m.atRest = true) (hc : move.isCall = true) :
    m.Enabled move := by
  cases move with
  | turn => cases hc
  | pass time => cases hc
  | stop => exact hm
  | drop => exact hm
  | _ => trivial

theorem Paced.call {move : Move} (h : m.Paced) (hm : m.atRest = true)
    (hc : move.isCall = true) : (m.next move).1.Paced ∧ (m.next move).1.atRest = true := by
  obtain ⟨hp, hrest⟩ := call_keeps h.punctual hm hc
  exact ⟨⟨h.standing.moved (next_settings m move) (moved (enabled_call hm hc)), hp⟩, hrest⟩

theorem paced_new {b : Backend} {e : Entropy} {levels : Nat}
    (h : Monitor.new s b e levels = .ok m) :
    m.Paced ∧ m.atRest = true := by
  obtain ⟨-, -, -, hr, -⟩ := new_eq_ok h
  refine ⟨⟨standing_new h, ?_⟩, ?_⟩
  · intro l hl
    rw [hr] at hl
    cases hl
  · simp [atRest, Runner.atRest, hr]

/-- Every history is a course in which nothing is late, and the loop waits at its end. -/
theorem History.course (h : History s j m) :
    (∃ steps, Course s steps j m ∧ ∀ p ∈ steps, p.1.Prompt p.2) ∧
      m.Paced ∧ m.atRest = true := by
  induction h with
  | new hn => exact ⟨⟨[], .new hn, by simp⟩, paced_new hn⟩
  | @call j m move _ hc ih =>
    obtain ⟨⟨steps, hcourse, hprompt⟩, hp, hm⟩ := ih
    have hcall : m.Prompt move := by
      cases move with
      | pass time => cases hc
      | _ => trivial
    refine ⟨⟨steps ++ [(m, move)], hcourse.move move (enabled_call hm hc), ?_⟩, hp.call hm hc⟩
    exact List.forall_mem_append.mpr ⟨hprompt, by simpa using hcall⟩
  | @advance j m ms _ ih =>
    obtain ⟨⟨steps, hcourse, hprompt⟩, hp, -⟩ := ih
    obtain ⟨more, hc, hmore⟩ := hcourse.advanceTo hp (Nat.le_add_right m.now ms)
    exact ⟨⟨steps ++ more, hc, List.forall_mem_append.mpr ⟨hprompt, hmore⟩⟩,
      hp.advanceTo (Nat.le_add_right m.now ms)⟩

end Monitor

end Liveness

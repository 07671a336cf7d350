import Liveness.Monitor
/-!
# Views of a monitor

Two monitors that differ in something the loop does not look at live in step. A view leaves it out,
or puts something else in its place: what holds of each turn holds of all turns, and of all time
that is given.
-/
namespace Liveness

namespace Monitor

section Keeps

variable {m : Monitor} {P : Monitor → Prop}

theorem turns_keeps (hturn : ∀ {m m' : Monitor} {j}, P m → m.turn = some (m', j) → P m')
    (fuel : Nat) (h : P m) : P (turns fuel m).1 := by
  induction fuel generalizing m with
  | zero => exact h
  | succ fuel ih =>
    cases ht : m.turn with
    | none =>
      simp only [turns, ht]
      exact h
    | some p =>
      simp only [turns, ht]
      exact ih (hturn h ht)

/-- What each turn keeps, and any time that passes, is kept while time is given. -/
theorem advanceTo_keeps (hturn : ∀ {m m' : Monitor} {j}, P m → m.turn = some (m', j) → P m')
    (hpass : ∀ {m : Monitor} (time : Nat), P m → P { m with now := time }) (target : Nat)
    (h : P m) : P (m.advanceTo target).1 := by
  have hpoll {m polled : Monitor} {journal : Journal} (h : P m)
      (hp : m.poll = (polled, journal)) : P polled := by
    have hkept := turns_keeps hturn m.turnFuel h
    unfold poll at hp
    rw [hp] at hkept
    exact hkept
  induction m using advanceTo.induct target with
  | case1 m polled journal hp hw =>
    rw [advanceTo, hp]
    simp only [hw]
    exact hpass target (hpoll h hp)
  | case2 m polled journal hp wake hw hwake m' rest hrest ih =>
    rw [advanceTo, hp]
    simp only [hw, if_pos hwake]
    exact ih (hpass wake (hpoll h hp))
  | case3 m polled journal hp wake hw hwake =>
    rw [advanceTo, hp]
    simp only [hw, if_neg hwake]
    exact hpass target (hpoll h hp)

end Keeps

/-- Another way to see monitors and their journals, with the same times. -/
structure View where
  see : Monitor → Monitor
  hear : Journal → Journal
  hear_nil : hear [] = []
  hear_append (j k : Journal) : hear (j ++ k) = hear j ++ hear k
  see_now (m : Monitor) : (see m).now = m.now
  see_wakeAt (m : Monitor) : (see m).wakeAt = m.wakeAt
  see_at (m : Monitor) (time : Nat) : see { m with now := time } = { see m with now := time }

namespace View

variable {m : Monitor} {P : Monitor → Prop} (v : View)

def result (p : Monitor × Journal) : Monitor × Journal := (v.see p.1, v.hear p.2)

theorem turns (hturn : ∀ {m : Monitor}, P m → (v.see m).turn = m.turn.map v.result)
    (hkeeps : ∀ {m m' : Monitor} {j}, P m → m.turn = some (m', j) → P m')
    (fuel : Nat) (h : P m) : Monitor.turns fuel (v.see m) = v.result (Monitor.turns fuel m) := by
  induction fuel generalizing m with
  | zero => simp only [Monitor.turns, result, v.hear_nil]
  | succ fuel ih =>
    have hsame := hturn h
    cases ht : m.turn with
    | none =>
      rw [ht] at hsame
      simp only [Monitor.turns, ht, hsame, Option.map_none, result, v.hear_nil]
    | some p =>
      obtain ⟨m₁, j₁⟩ := p
      rw [ht] at hsame
      simp only [Monitor.turns, ht, hsame, Option.map_some, result, ih (hkeeps h ht),
        v.hear_append]

theorem advanceTo (hpoll : ∀ {m : Monitor}, P m → (v.see m).poll = v.result m.poll)
    (hpass : ∀ {m polled : Monitor} {j wake}, P m → m.poll = (polled, j) →
      polled.wakeAt = some wake → m.now < wake → P { polled with now := wake })
    (target : Nat) (h : P m) : (v.see m).advanceTo target = v.result (m.advanceTo target) := by
  induction m using advanceTo.induct target with
  | case1 m polled journal hp hw =>
    have hsame := hpoll h
    rw [hp] at hsame
    rw [Monitor.advanceTo, Monitor.advanceTo, hp, hsame]
    simp only [result, v.see_wakeAt, hw]
    exact congrArg (·, v.hear journal) (v.see_at polled target).symm
  | case2 m polled journal hp wake hw hwake m' rest hrest ih =>
    have hsame := hpoll h
    rw [hp] at hsame
    have hlater := ih (hpass h hp hw hwake.1)
    rw [hrest, v.see_at] at hlater
    rw [Monitor.advanceTo, Monitor.advanceTo, hp, hsame]
    simp only [result, v.see_wakeAt, v.see_now, hw, if_pos hwake, hlater, hrest, v.hear_append]
  | case3 m polled journal hp wake hw hwake =>
    have hsame := hpoll h
    rw [hp] at hsame
    rw [Monitor.advanceTo, Monitor.advanceTo, hp, hsame]
    simp only [result, v.see_wakeAt, v.see_now, hw, if_neg hwake]
    exact congrArg (·, v.hear journal) (v.see_at polled target).symm

end View

end Monitor

end Liveness

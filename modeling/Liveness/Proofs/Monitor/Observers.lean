import Liveness.Proofs.Monitor.Listeners
import Liveness.Proofs.Monitor.Polling
import Liveness.Proofs.Monitor.Views
/-!
# Observers cannot steer

A monitor whose subscribers only listen does the same as one that nobody listens to. So each step
is compared with the same step of the monitor without its subscribers, and two runs with different
subscribers are both compared with the run that has none.
-/
namespace Liveness

def Output.isOwn : Output → Bool
  | .dispatched _ => false
  | _ => true

def Journal.own (j : Journal) : Journal := j.filter (·.2.isOwn)

@[simp] theorem Journal.own_append (j k : Journal) :
    Journal.own (j ++ k) = Journal.own j ++ Journal.own k := List.filter_append ..

theorem Journal.own_map (now : Nat) (out : List Output) :
    Journal.own (out.map (now, ·)) = (out.filter Output.isOwn).map (now, ·) := by
  simp only [Journal.own, List.filter_map]
  rfl

theorem dispatch_unheard (now : Nat) (e : Event) (levels : Nat) (t : Tracker) :
    dispatch now e (.empty levels) t = (.empty levels, t, []) := by
  cases levels <;> rfl

theorem perform_unheard (now : Nat) (effects : List Effect) (w : World) {hub : Hub}
    (hh : hub.KeepsTotals) (levels : Nat) :
    perform now effects w (.empty levels) =
      (w, .empty levels, (perform now effects w hub).2.2.filter Output.isOwn) := by
  induction effects generalizing hub with
  | nil => rfl
  | cons effect effects ih =>
    cases effect with
    | call c =>
      simp only [perform, ih hh]
      rfl
    | log n =>
      simp only [perform, ih hh]
      rfl
    | emit event =>
      obtain ⟨⟨hub', u, delivered⟩, hd⟩ : ∃ d, dispatch now event hub w.tracker = d := ⟨_, rfl⟩
      obtain ⟨hhub', rfl, hcalls⟩ := dispatch_listened hd hh
      have hforeign : delivered.filter Output.isOwn = [] := by
        rw [List.filter_eq_nil_iff]
        intro o ho
        obtain ⟨c, rfl, -⟩ := hcalls o ho
        simp [Output.isOwn]
      simp only [perform, dispatch_unheard, hd, ih hhub', List.filter_append, List.filter_cons,
        hforeign]
      rfl

namespace Monitor

variable {m : Monitor}

def unheard (m : Monitor) : Monitor := { m with hub := .empty 0 }

def unheardResult (p : Monitor × Journal) : Monitor × Journal := (p.1.unheard, p.2.own)

theorem enact_unheard (w : World) (effects : List Effect) (runner : Runner)
    (hh : m.hub.KeepsTotals) :
    m.unheard.enact w effects runner = unheardResult (m.enact w effects runner) := by
  obtain ⟨hw, -, -⟩ := perform_listened m.now effects w hh
  have hsame := perform_unheard m.now effects w hh 0
  simp only [enact, unheardResult, unheard, hsame, hw, Journal.own_map]

theorem turn_unheard (hh : m.hub.KeepsTotals) : m.unheard.turn = m.turn.map unheardResult := by
  cases hr : m.runner with
  | live l =>
    have hl : m.unheard.runner = .live l := hr
    simp only [turn, hr, hl, Option.map_map]
    refine Option.map_congr ?_
    intro t _
    exact enact_unheard _ _ _ hh
  | severed l =>
    have hl : m.unheard.runner = .severed l := hr
    simp only [turn, hr, hl, Option.map_some]
    exact congrArg some (enact_unheard _ _ _ hh)
  | idle =>
    have hl : m.unheard.runner = .idle := hr
    simp only [turn, hr, hl, Option.map_none]
  | ended panicked =>
    have hl : m.unheard.runner = .ended panicked := hr
    simp only [turn, hr, hl, Option.map_none]

theorem turn_listened {m' : Monitor} {j : Journal} (hh : m.hub.KeepsTotals)
    (ht : m.turn = some (m', j)) : m'.hub.KeepsTotals := by
  have h := @next_listened m .turn hh trivial
  simpa only [next, ht, Option.getD_some] using h

def unheardView : View where
  see := unheard
  hear := Journal.own
  hear_nil := rfl
  hear_append := Journal.own_append
  see_now _ := rfl
  see_wakeAt _ := rfl
  see_at _ _ := rfl

theorem advanceTo_unheard (target : Nat) (hh : m.hub.KeepsTotals) :
    m.unheard.advanceTo target = unheardResult (m.advanceTo target) ∧
      (m.advanceTo target).1.hub.KeepsTotals := by
  have hpoll {m : Monitor} (hh : m.hub.KeepsTotals) :
      m.unheard.poll = unheardResult m.poll :=
    unheardView.turns turn_unheard turn_listened m.turnFuel hh
  refine ⟨unheardView.advanceTo hpoll ?_ target hh,
    advanceTo_keeps turn_listened (fun _ hh => hh) target hh⟩
  intro m polled journal wake hh hp _ _
  have hkept := turns_keeps turn_listened m.turnFuel hh
  unfold poll at hp
  rw [hp] at hkept
  exact hkept

/-- A move of the monitor itself, as opposed to its subscribers' coming and going. -/
def Move.steers : Move → Bool
  | .register _ | .unregister _ => false
  | _ => true

def Move.Listens : Move → Prop
  | .register h => h.KeepsTotals
  | _ => True

theorem next_listening {move : Move} (hh : m.hub.KeepsTotals) (hm : move.Listens) :
    (m.next move).1.hub.KeepsTotals := by
  cases move with
  | reset => exact hh
  | register h => exact next_listened hh hm
  | _ => exact next_listened hh trivial

/-- Who comes and goes among the subscribers makes no difference to the monitor. -/
theorem next_observed {move : Move} (hm : move.steers = false) :
    unheardResult (m.next move) = (m.unheard, []) := by
  cases move with
  | register h => rfl
  | unregister id => rfl
  | _ => cases hm

theorem start_unheard (hh : m.hub.KeepsTotals) :
    m.unheard.start = (m.start.1, unheardResult m.start.2) := by
  cases hr : m.runner with
  | live l =>
    have hl : m.unheard.runner = .live l := hr
    simp only [start, hr, hl]
    rfl
  | severed l =>
    have hl : m.unheard.runner = .severed l := hr
    simp only [start, hr, hl]
    rfl
  | idle =>
    have hl : m.unheard.runner = .idle := hr
    have henact := enact_unheard m.world [.log (.monitoringStarted m.settings.interval)]
      (.live .unstarted) hh
    simp only [start, hr, hl]
    exact congrArg (Prod.mk (Except.ok ())) henact
  | ended panicked =>
    have hl : m.unheard.runner = .ended panicked := hr
    have henact := enact_unheard m.world [.log (.monitoringStarted m.settings.interval)]
      (.live .unstarted) hh
    simp only [start, hr, hl]
    exact congrArg (Prod.mk (Except.ok ())) henact

theorem stop_unheard (hh : m.hub.KeepsTotals) :
    m.unheard.stop = (m.stop.1, unheardResult m.stop.2) := by
  cases hr : m.runner with
  | live l =>
    have hl : m.unheard.runner = .live l := hr
    simp only [stop, hr, hl]
    exact congrArg (Prod.mk _) (enact_unheard _ _ _ hh)
  | severed l =>
    have hl : m.unheard.runner = .severed l := hr
    simp only [stop, hr, hl]
    rfl
  | idle =>
    have hl : m.unheard.runner = .idle := hr
    simp only [stop, hr, hl]
    rfl
  | ended panicked =>
    have hl : m.unheard.runner = .ended panicked := hr
    have henact := enact_unheard m.world (farewell panicked) .idle hh
    simp only [stop, hr, hl]
    exact congrArg (Prod.mk (Except.ok ())) henact

theorem next_unheard {move : Move} (hh : m.hub.KeepsTotals) (hm : move.steers = true) :
    m.unheard.next move = unheardResult (m.next move) := by
  cases move with
  | turn =>
    simp only [next, turn_unheard hh]
    cases m.turn with
    | none => rfl
    | some p => rfl
  | start => exact congrArg Prod.snd (start_unheard hh)
  | stop => exact congrArg Prod.snd (stop_unheard hh)
  | register h => cases hm
  | unregister id => cases hm
  | _ => rfl

/-- What happens to a monitor: it is called, or time passes, and the loop does what is due. -/
inductive Request where
  | call (move : Move)
  | advance (ms : Nat)

namespace Request

def steers : Request → Bool
  | .call move => move.steers
  | .advance _ => true

def Listens : Request → Prop
  | .call move => move.Listens
  | .advance _ => True

end Request

def serve (m : Monitor) : Request → Monitor × Journal
  | .call move => m.next move
  | .advance ms => m.advance ms

def answer? (m : Monitor) : Request → Option (Except ControlError Unit)
  | .call .start => some m.start.1
  | .call .stop => some m.stop.1
  | _ => none

def run : Monitor → List Request → Monitor × Journal × List (Except ControlError Unit)
  | m, [] => (m, [], [])
  | m, r :: requests =>
    let (m', j, answers) := run (m.serve r).1 requests
    (m', (m.serve r).2 ++ j, (m.answer? r).toList ++ answers)

theorem serve_listening {r : Request} (hh : m.hub.KeepsTotals) (hr : r.Listens) :
    (m.serve r).1.hub.KeepsTotals := by
  cases r with
  | call move => exact next_listening hh hr
  | advance ms => exact (advanceTo_unheard _ hh).2

theorem serve_unheard {r : Request} (hh : m.hub.KeepsTotals) (hr : r.steers = true) :
    m.unheard.serve r = unheardResult (m.serve r) ∧ m.unheard.answer? r = m.answer? r := by
  cases r with
  | call move =>
    refine ⟨next_unheard hh hr, ?_⟩
    cases move with
    | start => exact congrArg (some ·.1) (start_unheard hh)
    | stop => exact congrArg (some ·.1) (stop_unheard hh)
    | _ => rfl
  | advance ms => exact ⟨(advanceTo_unheard _ hh).1, rfl⟩

theorem serve_observed {r : Request} (hr : r.steers = false) :
    unheardResult (m.serve r) = (m.unheard, []) ∧ m.answer? r = none := by
  cases r with
  | call move =>
    refine ⟨next_observed hr, ?_⟩
    cases move with
    | start => cases hr
    | stop => cases hr
    | _ => rfl
  | advance ms => cases hr

/-- A run without its subscribers is the run of the requests that do not concern them. -/
theorem run_unheard {requests : List Request} (hh : m.hub.KeepsTotals)
    (hl : ∀ r ∈ requests, r.Listens) :
    m.unheard.run (requests.filter Request.steers) =
      ((m.run requests).1.unheard, (m.run requests).2.1.own, (m.run requests).2.2) := by
  induction requests generalizing m with
  | nil => rfl
  | cons r requests ih =>
    obtain ⟨hfirst, hrest⟩ := List.forall_mem_cons.mp hl
    have hrec := ih (serve_listening hh hfirst) hrest
    cases hr : r.steers with
    | true =>
      obtain ⟨hserve, hanswer⟩ := serve_unheard hh hr
      rw [List.filter_cons_of_pos hr]
      simp only [run, hserve, hanswer, unheardResult, hrec, Journal.own_append]
    | false =>
      obtain ⟨hserve, hanswer⟩ := serve_observed (m := m) hr
      obtain ⟨hm, hj⟩ := Prod.mk.inj hserve
      rw [List.filter_cons_of_neg (by simp [hr])]
      rw [hm] at hrec
      simp only [run, hanswer, hrec, Journal.own_append, hj, List.nil_append, Option.toList_none]

/-- Two runs of a monitor whose requests differ only in the coming and going of subscribers, none of
which resets the totals, have come to the same state, metrics, target and time, with the same loop
at the same place. All that the loop has done was the same at the same times, and so were the
answers to those who started and stopped it. -/
theorem observers_cannot_steer {s : Settings} {b : Backend} {e : Entropy} {levels : Nat}
    {m : Monitor} (hm : Monitor.new s b e levels = .ok m) {left right : List Request}
    (hleft : ∀ r ∈ left, r.Listens) (hright : ∀ r ∈ right, r.Listens)
    (hsame : left.filter Request.steers = right.filter Request.steers) :
    (m.run left).1.world = (m.run right).1.world ∧
    (m.run left).1.now = (m.run right).1.now ∧
    (m.run left).1.runner = (m.run right).1.runner ∧
    (m.run left).1.isRunning = (m.run right).1.isRunning ∧
    (m.run left).1.isReconnecting = (m.run right).1.isReconnecting ∧
    (m.run left).2.1.own = (m.run right).2.1.own ∧
    (m.run left).2.2 = (m.run right).2.2 := by
  have hh : m.hub.KeepsTotals := by
    rw [new_hub hm]
    exact nofun
  have hl := run_unheard hh hleft
  have hr := run_unheard hh hright
  rw [hsame, hr] at hl
  simp only [Prod.mk.injEq] at hl
  obtain ⟨hend, hown, hanswers⟩ := hl
  simp only [unheard, mk.injEq] at hend
  obtain ⟨-, hworld, -, hnow, hrunner⟩ := hend
  refine ⟨hworld.symm, hnow.symm, hrunner.symm, ?_, ?_, hown.symm, hanswers.symm⟩
  · unfold isRunning
    rw [hrunner]
  · unfold isReconnecting tracker
    rw [hworld]

/-- At an outage it brings in another that only panics, leaves, emits an event and panics. -/
def heckler : Handler :=
  ⟨"heckler", false, fun e => if e.kind = .unhealthy then
    .register "late" true (fun _ => .panic .other) fun _ => .unregister 1 fun _ =>
      .emit (.reconnectStarted "target") <| .panic (.text "enough") else .done⟩

theorem heckler_keepsTotals : heckler.KeepsTotals := by
  intro e
  by_cases he : e.kind = .unhealthy
  · simp only [heckler, if_pos he]
    exact .register (fun _ => .panic) fun _ => .unregister fun _ => .emit .panic
  · simp only [heckler, if_neg he]
    exact .done

def heckled : List Request :=
  [.call (.register heckler), .call .start, .advance 1, .call .reset, .call .start, .advance 2,
    .call .stop]

def unheckled : List Request :=
  [.call .start, .advance 1, .call (.register heckler), .call .reset, .call .start, .advance 2,
    .call .stop]

theorem observers_cannot_steer_heckled : ∃ m : Monitor,
    Monitor.new eagerSettings failingTwice default 2 = .ok m ∧
    (m.run heckled).2.1.length = 27 ∧ (m.run unheckled).2.1.length = 25 ∧
    (m.run heckled).1.world = (m.run unheckled).1.world ∧
    (m.run heckled).2.1.own = (m.run unheckled).2.1.own ∧
    (m.run heckled).2.2 = (m.run unheckled).2.2 := by
  have hlengths : ((Monitor.new eagerSettings failingTwice default 2).toOption.map fun m =>
      ((m.run heckled).2.1.length, (m.run unheckled).2.1.length)) = some (27, 25) := by
    decide +kernel
  cases hm : Monitor.new eagerSettings failingTwice default 2 with
  | error fault =>
    rw [hm] at hlengths
    cases hlengths
  | ok m =>
    rw [hm] at hlengths
    obtain ⟨hheckled, hunheckled⟩ := Prod.mk.inj (Option.some.inj hlengths)
    have hleft : ∀ r ∈ heckled, r.Listens := by
      simp [heckled, Request.Listens, Move.Listens, heckler_keepsTotals]
    have hright : ∀ r ∈ unheckled, r.Listens := by
      simp [unheckled, Request.Listens, Move.Listens, heckler_keepsTotals]
    obtain ⟨hworld, -, -, -, -, hown, hanswers⟩ := observers_cannot_steer hm hleft hright rfl
    exact ⟨m, rfl, hheckled, hunheckled, hworld, hown, hanswers⟩

end Monitor

end Liveness

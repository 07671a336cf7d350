import Liveness.Proofs.Episode.Passage
import Liveness.Proofs.Monitor.Standing
/-!
# The budgets of an episode

An episode that nobody cancels is a list of attempts, each of them a sleep and one whole check, and
all that it does is read off this list. Every attempt is made because those before it have failed
with attempts and time left. `Stands` says of each place in an episode what has been done on the way
there; the list is complete where neither is left, or where an attempt succeeds.
-/
namespace Liveness

theorem Duration.nanos_le_millisUp (d : Duration) : d.nanos ≤ d.millisUp * 1000000 := by
  unfold millisUp
  omega

namespace Episode

def elapsed (start now : Nat) : Duration := (instantAt now).since (instantAt start)

structure Attempt where
  slept : Nat
  delay : Duration
  begun : Nat
  check : Check.Run
  result : CheckResult

def Attempt.failed (a : Attempt) : Bool := Liveness.failed a.result

/-- An attempt sleeps for the delay that the policy gives for its index, up to the longest wait of
the clock, and makes one whole check. -/
structure Attempt.Follows (rule : EpisodeRule) (index now : Nat) (entropy : Entropy)
    (backend : Backend) (a : Attempt) : Prop where
  slept : a.slept = now
  delay : a.delay = (rule.policy.delay index entropy).1
  begun : a.begun = a.slept + Clock.wait a.delay.millisUp
  check : a.check = Check.run rule.check none a.begun backend
  result : a.check.result = .ok a.result

/-- The attempts of an episode that begins in the world `w₀`, one after the other, and with them the
time, the random words and the target after the last one. -/
inductive Tried (rule : EpisodeRule) (start : Nat) (w₀ : World) :
    List Attempt → Nat → Entropy → Backend → Prop where
  | nothing : Tried rule start w₀ [] start w₀.entropy w₀.backend
  | again {attempts now entropy backend a} : Tried rule start w₀ attempts now entropy backend →
      (∀ a ∈ attempts, a.failed = true) →
      mayTry rule.policy attempts.length (elapsed start now) = true →
      a.Follows rule attempts.length now entropy backend →
      Tried rule start w₀ (attempts ++ [a]) a.check.finishedAt
        (rule.policy.delay attempts.length entropy).2 a.check.backend

def resulting (driver : String) (number : Nat) : CheckResult → List Effect
  | .ok latency => [.log (.reconnected number latency), .emit (.reconnectSuccess driver number)]
  | .error failure =>
    [.log (.attemptFailed number failure), .emit (.reconnectFailed number failure)]

def calling (calls : List (Nat × Call)) : List (Nat × Effect) :=
  calls.map fun (time, c) => (time, .call c)

def Attempt.effects (driver : String) (index : Nat) (a : Attempt) : List (Nat × Effect) :=
  (a.slept, .log (.attemptWaiting (index + 1) a.delay)) :: (calling a.check.calls ++
    (resulting driver (index + 1) a.result).map (a.check.finishedAt, ·))

def timeline (rule : EpisodeRule) (start : Nat) (driver : String) (attempts : List Attempt) :
    List (Nat × Effect) :=
  (start, .log (.episodeStarting rule.policy.maxAttempts.toNat)) ::
    (start, .emit (.reconnectStarted driver)) ::
    (attempts.mapIdx fun i a => a.effects driver i).flatten

def ending (driver : String) : EpisodeOutcome → List Effect
  | .recovered _ => [.emit (.healthy driver)]
  | .abandoned attempts =>
    [.log (.episodeAbandoned attempts), .emit (.reconnectAbandoned driver attempts)]
  | .cancelled => []

structure Ongoing (rule : EpisodeRule) (start : Nat) (w₀ w : World) (attempts : List Attempt)
    (now : Nat) (entropy : Entropy) (backend : Backend) : Prop where
  tried : Tried rule start w₀ attempts now entropy backend
  failed : ∀ a ∈ attempts, a.failed = true
  episodeStart : w.tracker.episodeStart = some (instantAt start)
  driver : w.backend.driver = w₀.backend.driver

structure Trying (rule : EpisodeRule) (start : Nat) (w₀ w : World) (attempts : List Attempt)
    (now : Nat) (entropy : Entropy) (backend : Backend) : Prop extends
    Ongoing rule start w₀ w attempts now entropy backend where
  mayTry : mayTry rule.policy attempts.length (elapsed start now) = true
  entropy : w.entropy = (rule.policy.delay attempts.length entropy).2

def nextBegun (rule : EpisodeRule) (index slept : Nat) (entropy : Entropy) : Nat :=
  slept + Clock.wait (rule.policy.delay index entropy).1.millisUp

def sleeping (rule : EpisodeRule) (start : Nat) (driver : String) (attempts : List Attempt)
    (slept : Nat) (entropy : Entropy) : List (Nat × Effect) :=
  timeline rule start driver attempts ++
    [(slept, .log (.attemptWaiting (attempts.length + 1)
      (rule.policy.delay attempts.length entropy).1))]

/-- What has been done on the way to a place in an episode. -/
inductive Stands (rule : EpisodeRule) (start : Nat) (w₀ : World) :
    Nat → Episode → World → List (Nat × Effect) → Prop where
  | opening {w} : w.entropy = w₀.entropy → w.backend = w₀.backend →
      Stands rule start w₀ start .opening w []
  | deciding {now w attempts} : Ongoing rule start w₀ w attempts now w.entropy w.backend →
      Stands rule start w₀ now (.deciding attempts.length) w
        (timeline rule start w₀.backend.driver attempts)
  | backingOff {now w attempts slept entropy} :
      Trying rule start w₀ w attempts slept entropy w.backend →
      now ≤ nextBegun rule attempts.length slept entropy →
      Stands rule start w₀ now
        (.backingOff attempts.length (nextBegun rule attempts.length slept entropy)) w
        (sleeping rule start w₀.backend.driver attempts slept entropy)
  | attempting {now w attempts slept entropy b check seen} :
      Trying rule start w₀ w attempts slept entropy b →
      check.Underway rule.check now w.backend seen
        (Check.run rule.check none (nextBegun rule attempts.length slept entropy) b) →
      Stands rule start w₀ now (.attempting attempts.length check) w
        (sleeping rule start w₀.backend.driver attempts slept entropy ++ calling seen)
  | recovered {now w attempts last} :
      Tried rule start w₀ (attempts ++ [last]) now w.entropy w.backend → last.failed = false →
      w.backend.driver = w₀.backend.driver →
      Stands rule start w₀ now (.recovered (attempts.length + 1)) w
        (timeline rule start w₀.backend.driver (attempts ++ [last]))

inductive Closes (rule : EpisodeRule) (start now : Nat) : List Attempt → EpisodeOutcome → Prop where
  | recovers {attempts last} : last.failed = false →
      Closes rule start now (attempts ++ [last]) (.recovered (attempts.length + 1))
  | givesUp {attempts} : (∀ a ∈ attempts, a.failed = true) →
      mayTry rule.policy attempts.length (elapsed start now) = false →
      Closes rule start now attempts (.abandoned attempts.length)

/-- An episode that has come to this outcome: all that it did was to make these attempts. -/
structure Concluded (rule : EpisodeRule) (start : Nat) (w₀ : World) (now : Nat) (w : World)
    (o : EpisodeOutcome) (attempts : List Attempt) (effects : List (Nat × Effect)) : Prop where
  tried : Tried rule start w₀ attempts now w.entropy w.backend
  closes : Closes rule start now attempts o
  effects : effects = timeline rule start w₀.backend.driver attempts ++
    (ending w₀.backend.driver o).map (now, ·)

def Next.Stands (rule : EpisodeRule) (start : Nat) (w₀ : World) (now : Nat) (w : World)
    (effects : List (Nat × Effect)) : Next → Prop
  | .going e => Episode.Stands rule start w₀ now e w effects
  | .ended o => ∃ attempts, Concluded rule start w₀ now w o attempts effects
  | .crashed _ => True

variable {rule : EpisodeRule} {start now : Nat} {e : Episode} {w₀ w : World}
  {attempts : List Attempt} {a : Attempt} {effects : List (Nat × Effect)} {turn : Turn Next}
  {o : EpisodeOutcome}

theorem timeline_append_singleton (rule : EpisodeRule) (start : Nat) (driver : String)
    (attempts : List Attempt) (a : Attempt) :
    timeline rule start driver (attempts ++ [a]) =
      timeline rule start driver attempts ++ a.effects driver attempts.length := by
  simp [timeline]

theorem calling_append (seen more : List (Nat × Call)) :
    calling (seen ++ more) = calling seen ++ calling more := List.map_append

theorem calling_map (now : Nat) (calls : List Call) :
    calling (calls.map (now, ·)) = (calls.map Effect.call).map (now, ·) := by
  simp [calling, Function.comp_def]

theorem Tried.time {entropy : Entropy} {backend : Backend}
    (h : Tried rule start w₀ attempts now entropy backend) :
    now = attempts.getLast?.elim start fun a => a.check.finishedAt := by
  cases h with
  | nothing => rfl
  | again => simp

section Steps

variable {slept : Nat} {entropy : Entropy} {b : Backend} {check : Check} {st : Check.Step}
  {seen : List (Nat × Call)} {result : CheckResult}

theorem Ongoing.elapsed_eq (h : Ongoing rule start w₀ w attempts slept entropy b) (now : Nat) :
    w.tracker.episodeElapsed (instantAt now) = elapsed start now := by
  unfold Tracker.episodeElapsed
  rw [h.episodeStart]
  rfl

/-- Nothing of the world matters but these. -/
theorem Ongoing.of_world {w' : World} (h : Ongoing rule start w₀ w attempts slept entropy b)
    (ht : w'.tracker.episodeStart = w.tracker.episodeStart)
    (hd : w'.backend.driver = w.backend.driver) :
    Ongoing rule start w₀ w' attempts slept entropy b :=
  ⟨h.tried, h.failed, ht.trans h.episodeStart, hd.trans h.driver⟩

theorem Trying.of_world {w' : World} (h : Trying rule start w₀ w attempts slept entropy b)
    (ht : w'.tracker.episodeStart = w.tracker.episodeStart)
    (hd : w'.backend.driver = w.backend.driver) (he : w'.entropy = w.entropy) :
    Trying rule start w₀ w' attempts slept entropy b :=
  ⟨h.toOngoing.of_world ht hd, h.mayTry, he.trans h.entropy⟩

theorem Trying.completes (h : Trying rule start w₀ w attempts slept entropy b)
    (hu : check.Underway rule.check now w.backend seen
      (Check.run rule.check none (nextBegun rule attempts.length slept entropy) b))
    (hs : check.step rule.check now w.backend = some st) (hn : st.next = .done result) :
    ∃ a : Attempt, a.result = result ∧
      Tried rule start w₀ (attempts ++ [a]) now w.entropy st.backend ∧
      timeline rule start w₀.backend.driver (attempts ++ [a]) =
        sleeping rule start w₀.backend.driver attempts slept entropy ++ calling seen ++
          (st.calls.map Effect.call ++
            resulting w₀.backend.driver (attempts.length + 1) result).map (now, ·) := by
  have hrun := hu.ends hs hn
  let a : Attempt :=
    { slept
      delay := (rule.policy.delay attempts.length entropy).1
      begun := nextBegun rule attempts.length slept entropy
      check := ⟨now, seen ++ st.calls.map (now, ·), .ok result, st.backend⟩
      result }
  have hfollows : a.Follows rule attempts.length slept entropy b :=
    ⟨rfl, rfl, rfl, hrun.symm, rfl⟩
  refine ⟨a, rfl, ?_, ?_⟩
  · rw [h.entropy]
    exact h.toOngoing.tried.again h.failed h.mayTry hfollows
  · rw [timeline_append_singleton]
    simp [Attempt.effects, sleeping, calling_append, calling_map, a]

theorem Trying.concludes (h : Trying rule start w₀ w attempts slept entropy b)
    (hu : check.Underway rule.check now w.backend seen
      (Check.run rule.check none (nextBegun rule attempts.length slept entropy) b))
    (hs : check.step rule.check now w.backend = some st) (hn : st.next = .done result)
    (hturn : conclude now attempts.length result (st.calls.map .call)
      { w with backend := st.backend } = turn) :
    turn.next.Stands rule start w₀ now turn.world
      (sleeping rule start w₀.backend.driver attempts slept entropy ++ calling seen ++
        turn.effects.map (now, ·)) := by
  obtain ⟨a, rfl, htried, htimeline⟩ := h.completes hu hs hn
  have hdriver : st.backend.driver = w₀.backend.driver := (Check.step_driver hs).trans h.driver
  unfold conclude at hturn
  cases hr : w.tracker.recordAttempt a.result (instantAt now) with
  | error c =>
    simp only [hr] at hturn
    subst hturn
    trivial
  | ok p =>
    obtain ⟨u, transition⟩ := p
    simp only [hr, hdriver] at hturn
    cases ha : a.result with
    | ok latency =>
      simp only [ha] at hturn htimeline
      subst hturn
      have hsucceeded : a.failed = false := by
        rw [Attempt.failed, ha]
        rfl
      have hstands := Stands.recovered (w := ⟨u, st.backend, w.entropy⟩) htried hsucceeded hdriver
      rw [htimeline] at hstands
      exact hstands
    | error failure =>
      simp only [ha] at hturn htimeline
      subst hturn
      have hfailed : a.failed = true := by
        rw [Attempt.failed, ha]
        rfl
      have hstart : u.episodeStart = some (instantAt start) := by
        rw [ha] at hr
        cases Tracker.recordAttempt_eq_ok hr with
        | fails => exact h.episodeStart
      have hongoing : Ongoing rule start w₀ ⟨u, st.backend, w.entropy⟩ (attempts ++ [a]) now
          w.entropy st.backend := by
        refine ⟨htried, ?_, hstart, hdriver⟩
        intro a' ha'
        rcases List.mem_append.mp ha' with ha' | ha'
        · exact h.failed a' ha'
        · rw [List.mem_singleton.mp ha']
          exact hfailed
      have hstands := Stands.deciding hongoing
      rw [htimeline, List.length_append, List.length_singleton] at hstands
      exact hstands

end Steps

theorem Stands.steps (h : Stands rule start w₀ now e w effects)
    (hs : e.step rule now w = some turn) :
    turn.next.Stands rule start w₀ now turn.world (effects ++ turn.effects.map (now, ·)) := by
  cases h with
  | opening hentropy hbackend =>
    cases hs
    have htried : Tried rule start w₀ [] start w.entropy w.backend := by
      rw [hentropy, hbackend]
      exact .nothing
    have hdriver : w.backend.driver = w₀.backend.driver := congrArg Backend.driver hbackend
    have hongoing : Ongoing rule start w₀
        { w with tracker := w.tracker.beginEpisode (instantAt start) } [] start w.entropy
        w.backend := ⟨htried, List.forall_mem_nil _, rfl, hdriver⟩
    rw [hdriver]
    exact Stands.deciding hongoing
  | @deciding _ _ attempts hongoing =>
    simp only [step, hongoing.elapsed_eq] at hs
    split at hs
    · rename_i hmay
      cases hs
      exact Stands.backingOff ⟨⟨hongoing.tried, hongoing.failed, hongoing.episodeStart,
        hongoing.driver⟩, hmay, rfl⟩ (Nat.le_add_right ..)
    · rename_i hmay
      cases hs
      rw [hongoing.driver]
      exact ⟨attempts, hongoing.tried, .givesUp hongoing.failed (by simpa using hmay), rfl⟩
  | @backingOff _ _ attempts slept entropy htrying hle =>
    simp only [step] at hs
    split at hs
    · cases hs
    · rename_i hdue
      cases hs
      have hnow : nextBegun rule attempts.length slept entropy = now := by omega
      have hbegun : Trying rule start w₀
          { w with backend := (Check.start rule.check now w.backend).2.2 } attempts slept entropy
          w.backend := htrying.of_world rfl (Check.start_driver rule.check now w.backend) rfl
      have hunderway := Check.underway_start rule.check now w.backend
      rw [← congrArg (Check.run rule.check none · w.backend) hnow] at hunderway
      have hstands := Stands.attempting hbegun hunderway
      rw [calling_map] at hstands
      exact hstands
  | @attempting _ _ attempts slept entropy b check seen htrying hunderway =>
    simp only [step_attempting, Option.map_eq_some_iff] at hs
    obtain ⟨st, hst, hturn⟩ := hs
    cases hn : st.next with
    | going check' =>
      simp only [hn] at hturn
      subst hturn
      have hgoing : Trying rule start w₀ { w with backend := st.backend } attempts slept entropy
          b := htrying.of_world rfl (Check.step_driver hst) rfl
      have hstands := Stands.attempting hgoing (hunderway.steps hst hn)
      rw [calling_append, calling_map, ← List.append_assoc] at hstands
      exact hstands
    | crashed =>
      simp only [hn] at hturn
      subst hturn
      trivial
    | done result =>
      simp only [hn] at hturn
      exact htrying.concludes hunderway hst hn hturn
  | @recovered _ _ attempts last htried hlast hdriver =>
    cases hs
    rw [hdriver]
    exact ⟨attempts ++ [last], htried, .recovers hlast, rfl⟩

theorem Stands.waits (h : Stands rule start w₀ now e w effects)
    (hs : e.step rule now w = none) : Stands rule start w₀ (e.wakeAt now) e w effects := by
  have hrests := cancellable_of_waits hs
  cases h with
  | backingOff htrying _ => exact .backingOff htrying (Nat.le_refl _)
  | attempting htrying hunderway =>
    simp only [step, Option.map_eq_none_iff] at hs
    exact .attempting htrying (hunderway.waits hs)
  | _ => cases hrests

section Performing

variable {time : Nat} {done : List Effect} {w' : World} {out : List Output}

/-- Subscribers can reset the totals, on which nothing here depends. -/
theorem Stands.performed (h : Stands rule start w₀ now e w effects)
    (hp : Performed time done w w' out) : Stands rule start w₀ now e w' effects := by
  have hstart := hp.tracker.episodeStart_eq
  have hdriver := congrArg Backend.driver hp.backend
  cases h with
  | opening hentropy hbackend =>
    exact .opening (hp.entropy.trans hentropy) (hp.backend.trans hbackend)
  | deciding hongoing =>
    refine .deciding ?_
    rw [hp.entropy, hp.backend]
    exact hongoing.of_world hstart hdriver
  | backingOff htrying hle =>
    refine .backingOff ?_ hle
    rw [hp.backend]
    exact htrying.of_world hstart hdriver hp.entropy
  | attempting htrying hunderway =>
    refine .attempting (htrying.of_world hstart hdriver hp.entropy) ?_
    rw [hp.backend]
    exact hunderway
  | recovered htried hlast hd =>
    refine .recovered ?_ hlast (hdriver.trans hd)
    rw [hp.entropy, hp.backend]
    exact htried

theorem Next.Stands.performed {next : Next} (h : next.Stands rule start w₀ now w effects)
    (hp : Performed time done w w' out) : next.Stands rule start w₀ now w' effects := by
  cases next with
  | going e => exact Episode.Stands.performed h hp
  | crashed c => trivial
  | ended o =>
    obtain ⟨attempts, htried, hcloses, heffects⟩ := h
    refine ⟨attempts, ?_, hcloses, heffects⟩
    rw [hp.entropy, hp.backend]
    exact htried

end Performing

/-- An episode that comes to an outcome of its own has made its attempts. -/
theorem Passage.concluded {hub : Hub} {journal : Journal} {r : Run}
    (hp : Passage rule now e w hub journal r)
    (h : Stands rule start w₀ now e w (Journal.effects journal)) (ho : r.outcome = .ok o)
    (hc : o ≠ .cancelled) :
    ∃ attempts, Concluded rule start w₀ r.finishedAt r.world o attempts
      (Journal.effects r.journal) := by
  induction hp with
  | @goes now e w hub journal turn e' r hs hn _ ih =>
    have hstands := (h.steps hs).performed (perform_performed now turn.effects turn.world hub)
    rw [hn, ← Journal.effects_performed now turn.effects turn.world hub,
      ← Journal.effects_append] at hstands
    exact ih hstands ho
  | waits hs _ ih => exact ih (h.waits hs) ho
  | @ends now e w hub journal turn o hs hn =>
    have hstands := (h.steps hs).performed (perform_performed now turn.effects turn.world hub)
    rw [hn, ← Journal.effects_performed now turn.effects turn.world hub,
      ← Journal.effects_append] at hstands
    cases ho
    exact hstands
  | crashes => cases ho
  | cut =>
    cases ho
    exact absurd rfl hc

section Attempts

variable {entropy : Entropy} {backend : Backend}

theorem Tried.each (h : Tried rule start w₀ attempts now entropy backend) (ha : a ∈ attempts) :
    ∃ index entropy backend, mayTry rule.policy index (elapsed start a.slept) = true ∧
      a.Follows rule index a.slept entropy backend := by
  induction h with
  | nothing => cases ha
  | again _ _ hmay hfollows ih =>
    rcases List.mem_append.mp ha with ha | ha
    · exact ih ha
    · rw [List.mem_singleton.mp ha, hfollows.slept]
      exact ⟨_, _, _, hmay, hfollows⟩

theorem Tried.length_le (h : Tried rule start w₀ attempts now entropy backend) :
    attempts.length ≤ rule.policy.maxAttempts.toNat := by
  cases h with
  | nothing => exact Nat.zero_le _
  | again _ _ hmay _ =>
    rw [List.length_append, List.length_singleton]
    exact mayTry_attempts hmay

/-- A sleep is cut short by the clock only. -/
theorem Attempt.Follows.rested {index : Nat} (h : a.Follows rule index now entropy backend) :
    min a.delay.nanos (Clock.longestWait * 1000000) ≤ (a.begun - a.slept) * 1000000 := by
  have hdelay := Duration.nanos_le_millisUp a.delay
  have hbegun : a.begun - a.slept = min a.delay.millisUp Clock.longestWait := by
    rw [h.begun, Nat.add_sub_cancel_left]
    rfl
  rw [hbegun]
  omega

theorem Tried.followed (h : Tried rule start w₀ attempts now entropy backend)
    {before after : List Attempt} (hsplit : attempts = before ++ a :: after) (hne : after ≠ []) :
    a.failed = true ∧
      mayTry rule.policy (before.length + 1) (elapsed start a.check.finishedAt) = true := by
  induction h generalizing after with
  | nothing => simp at hsplit
  | @again attempts now entropy backend last htried hfailed hmay _ ih =>
    obtain ⟨after, last', rfl⟩ := List.eq_nil_or_concat' after |>.resolve_left hne
    rw [← List.cons_append, ← List.append_assoc] at hsplit
    obtain ⟨rfl, -⟩ := List.append_inj' hsplit rfl
    refine ⟨hfailed a (by simp), ?_⟩
    by_cases hafter : after = []
    · subst hafter
      have htime := htried.time
      simp only [List.getLast?_concat, Option.elim_some] at htime
      rw [← htime]
      simpa using hmay
    · exact (ih rfl hafter).2

theorem Concluded.followed_iff {effects : List (Nat × Effect)}
    (h : Concluded rule start w₀ now w o attempts effects) {before after : List Attempt}
    (hsplit : attempts = before ++ a :: after) :
    after ≠ [] ↔ a.failed = true ∧
      mayTry rule.policy (before.length + 1) (elapsed start a.check.finishedAt) = true := by
  refine ⟨h.tried.followed hsplit, ?_⟩
  rintro ⟨hfailed, hmay⟩ rfl
  have htime := h.tried.time
  rw [hsplit, List.getLast?_concat] at htime
  cases h.closes with
  | @recovers attempts last hlast =>
    obtain ⟨-, hsame⟩ := List.append_inj' hsplit rfl
    cases hsame
    simp [hlast] at hfailed
  | givesUp _ hover =>
    subst hsplit
    simp only [Option.elim_some] at htime
    rw [List.length_append, List.length_singleton, htime, hmay] at hover
    cases hover

end Attempts

structure Budgeted (rule : EpisodeRule) (start : Nat) (w₀ : World) (r : Run) (o : EpisodeOutcome)
    (attempts : List Attempt) : Prop where
  tried : Tried rule start w₀ attempts r.finishedAt r.world.entropy r.world.backend
  effects : Journal.effects r.journal = timeline rule start w₀.backend.driver attempts ++
    (ending w₀.backend.driver o).map (r.finishedAt, ·)
  pos : 1 ≤ attempts.length
  le_max : attempts.length ≤ rule.policy.maxAttempts.toNat
  in_time : ∀ a ∈ attempts, ∀ limit ∈ rule.policy.maxElapsed, elapsed start a.slept < limit
  rested : ∀ a ∈ attempts,
    min a.delay.nanos (Clock.longestWait * 1000000) ≤ (a.begun - a.slept) * 1000000
  outcome : o = .recovered attempts.length ∨ o = .abandoned attempts.length
  abandoned : o = .abandoned attempts.length ↔ (∀ a ∈ attempts, a.failed = true) ∧
    (attempts.length = rule.policy.maxAttempts.toNat ∨
      ∃ limit ∈ rule.policy.maxElapsed, limit ≤ elapsed start r.finishedAt)
  followed : ∀ before a after, attempts = before ++ a :: after →
    (after ≠ [] ↔ a.failed = true ∧ before.length + 1 < rule.policy.maxAttempts.toNat ∧
      ∀ limit ∈ rule.policy.maxElapsed, elapsed start a.check.finishedAt < limit)

theorem elapsed_self (start : Nat) : elapsed start start = .zero := by
  simp [elapsed, Duration.since, Duration.zero]

/-- No time has passed since the beginning if there was no attempt. -/
theorem Closes.pos (h : Closes rule start now attempts o) (hm : 1 ≤ rule.policy.maxAttempts.toNat)
    (htime : attempts = [] → now = start) : 1 ≤ attempts.length := by
  cases h with
  | recovers => simp
  | givesUp _ hover =>
    rcases List.eq_nil_or_concat' attempts with rfl | ⟨before, last, rfl⟩
    · rw [htime rfl, elapsed_self, List.length_nil, Policy.mayTry_at_once hm] at hover
      cases hover
    · simp

theorem Closes.outcome (h : Closes rule start now attempts o) :
    o = .recovered attempts.length ∨ o = .abandoned attempts.length := by
  cases h with
  | recovers => exact Or.inl (by rw [List.length_append, List.length_singleton])
  | givesUp => exact Or.inr rfl

theorem Closes.abandoned_iff (h : Closes rule start now attempts o)
    (hle : attempts.length ≤ rule.policy.maxAttempts.toNat) :
    o = .abandoned attempts.length ↔ (∀ a ∈ attempts, a.failed = true) ∧
      (attempts.length = rule.policy.maxAttempts.toNat ∨
        ∃ limit ∈ rule.policy.maxElapsed, limit ≤ elapsed start now) := by
  cases h with
  | @recovers attempts last hlast =>
    constructor
    · nofun
    · rintro ⟨hfailed, -⟩
      have hthis := hfailed last (by simp)
      rw [hlast] at hthis
      cases hthis
  | givesUp hfailed hover =>
    exact ⟨fun _ => ⟨hfailed, (mayTry_eq_false_iff hle).mp hover⟩, fun _ => rfl⟩

theorem Concluded.budgeted {r : Run} (hm : 1 ≤ rule.policy.maxAttempts.toNat)
    (h : Concluded rule start w₀ r.finishedAt r.world o attempts (Journal.effects r.journal)) :
    Budgeted rule start w₀ r o attempts := by
  have hle := h.tried.length_le
  refine ⟨h.tried, h.effects, ?_, hle, ?_, ?_, h.closes.outcome, h.closes.abandoned_iff hle, ?_⟩
  · refine h.closes.pos hm ?_
    intro hnil
    rw [h.tried.time, hnil]
    rfl
  · intro a ha
    obtain ⟨_, _, _, hmay, -⟩ := h.tried.each ha
    exact (mayTry_iff.mp hmay).2
  · intro a ha
    obtain ⟨_, _, _, -, hfollows⟩ := h.tried.each ha
    exact hfollows.rested
  · intro before a after hsplit
    rw [h.followed_iff hsplit, mayTry_iff]

/-- An episode that is not cancelled ends within its budgets: it makes one attempt at least, as many
as the policy allows at most, and begins none when its time is up. Each attempt sleeps for its delay
or for the longest wait of the clock, and makes one whole check. It is followed by another one just
if it has failed with attempts and time left, and so the episode is abandoned when all attempts have
failed and one of the budgets is used up. Of a target that never panics there is no other end. -/
theorem run_budgeted (rule : EpisodeRule) (start : Nat) (cancel : Option Cancellation) {w : World}
    (hub : Hub) (hm : 1 ≤ rule.policy.maxAttempts.toNat) :
    (w.backend.NeverPanics → w.tracker.OnTime start none →
      ∃ o, (run rule cancel start w hub).outcome = .ok o ∧
        (cancel = none → o ≠ .cancelled)) ∧
    ∀ o, (run rule cancel start w hub).outcome = .ok o → o ≠ .cancelled →
      ∃ attempts, Budgeted rule start w (run rule cancel start w hub) o attempts := by
  obtain ⟨honly, hends⟩ := run_outcome rule cancel start w hub
  constructor
  · intro hb ht
    obtain ⟨o, ho⟩ := hends hb ht
    refine ⟨o, ho, ?_⟩
    rintro rfl rfl
    obtain ⟨cut, hcut, -⟩ := honly ho
    cases hcut
  · intro o ho hc
    obtain ⟨attempts, hconcluded⟩ :=
      (run_passage rule cancel start w hub).concluded (.opening rfl rfl) ho hc
    exact ⟨attempts, hconcluded.budgeted hm⟩

def hastyRule : EpisodeRule := ⟨{ Policy.new 3 2 10 with maxElapsedMs := 9 }, ⟨.deep, .ofMillis 5⟩⟩

/-- An unhealthy target behind a pool that refuses every ping after three milliseconds. -/
def refusingDown : World :=
  { tracker := (Tracker.new 1 1).becomeUnhealthy
    backend := { Monitor.failingTwice with pings := ⟨[], .answer 3 (some .cancelled)⟩ }
    entropy := default }

/-- The pool lends a closed connection first, and then open ones. -/
def lentClosedRefusing : World :=
  { refusingDown with
    backend := { refusingDown.backend with connections := ⟨[.isClosed], .isOpen⟩ } }

/-- The second check ends at the ceiling, and no third one is made. -/
theorem run_budgeted_hasty : ∃ attempts, attempts.length = 2 ∧
    Budgeted hastyRule 0 lentClosedRefusing (run hastyRule none 0 lentClosedRefusing (.empty 0))
      (.abandoned 2) attempts := by
  have hm : 1 ≤ hastyRule.policy.maxAttempts.toNat := by decide
  have hb : lentClosedRefusing.backend.NeverPanics := by decide
  have ht : lentClosedRefusing.tracker.OnTime 0 none := ⟨by decide, by decide, by decide, by decide⟩
  obtain ⟨hends, hbudgeted⟩ := run_budgeted hastyRule 0 none (.empty 0) hm
  obtain ⟨o, ho, hc⟩ := hends hb ht
  have hresult :
      (run hastyRule none 0 lentClosedRefusing (.empty 0)).outcome = .ok (.abandoned 2) := by
    decide +kernel
  cases ho.symm.trans hresult
  obtain ⟨attempts, h⟩ := hbudgeted _ ho (hc rfl)
  refine ⟨attempts, ?_, h⟩
  rcases h.outcome with hnone | hlength
  · cases hnone
  · exact (EpisodeOutcome.abandoned.inj hlength).symm

/-- One attempt, after more than thirty-one years. -/
def glacialRule : EpisodeRule := ⟨Policy.new 1 1000000000000 1000000000000, ⟨.ping, .ofMillis 5⟩⟩

/-- The clock ends the sleep after thirty years, before the delay is over. -/
theorem sleep_cut_short : ∃ delay budget failure,
    (glacialRule.policy.delay 0 refusingDown.entropy).1 = delay ∧
    Journal.effects (run glacialRule none 0 refusingDown (.empty 0)).journal =
      [(0, .log (.episodeStarting 1)), (0, .emit (.reconnectStarted "target")),
        (0, .log (.attemptWaiting 1 delay)), (946080000000, .call (.ping budget)),
        (946080000003, .call .pingDone), (946080000003, .log (.attemptFailed 1 failure)),
        (946080000003, .emit (.reconnectFailed 1 failure)),
        (946080000003, .log (.episodeAbandoned 1)),
        (946080000003, .emit (.reconnectAbandoned "target" 1))] ∧
    946080000000 * 1000000 < delay.nanos :=
  ⟨.ofMillis 1000000000000, .ofMillis 5, .ofError (.ofMillis 5) .cancelled, by decide +kernel,
    by decide +kernel, by decide⟩

end Episode

end Liveness

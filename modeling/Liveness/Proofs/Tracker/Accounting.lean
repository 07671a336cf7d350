import Liveness.Proofs.Tracker.Resets
/-!
# Time is accounted for once

Time is credited at the instants of results and resets. They are accounting points from the first
result on, and the last reset after it makes a fresh start. Each gap between neighbouring points is
credited to the health that was committed all through it, and to no other, so that the gaps add up
to the time from the first point to the last.
-/
namespace Liveness.Tracker

variable {t u : Tracker} {op : Operation} {ops : List Operation} {entries : List Entry}

def Operation.instant? : Operation → Option Instant
  | .recordCheck _ now | .recordAttempt _ now | .resetTally now => some now
  | .beginEpisode _ | .abandonEpisode | .interruptEpisode => none

def instants (ops : List Operation) : List Instant := ops.filterMap Operation.instant?

/-- The instant of a result or a reset, with the health that is committed from then on. -/
structure Point where
  time : Instant
  health : Health
  reset : Bool
deriving DecidableEq

def Entry.point? (e : Entry) : Option Point :=
  e.op.instant?.map fun time => ⟨time, e.after.status.health, e.op.isReset⟩

/-- The end of a list from the last such element on, and all of it if there is none. -/
def fromLast {α : Type} (p : α → Bool) : List α → List α
  | [] => []
  | a :: rest => if rest.any p then fromLast p rest else a :: rest

/-- The points from the first result on, or from the last reset if that came later. -/
def accountingPoints (entries : List Entry) : List Point :=
  fromLast Point.reset ((entries.filterMap Entry.point?).dropWhile Point.reset)

def spent (health : Health) : List Point → Nat
  | before :: after :: rest =>
    (if before.health = health then after.time.nanos - before.time.nanos else 0) +
      spent health (after :: rest)
  | _ => 0

section Points

variable {α : Type} {p : α → Bool}

theorem fromLast_append_singleton (l : List α) (a : α) :
    fromLast p (l ++ [a]) = if p a then [a] else fromLast p l ++ [a] := by
  induction l with
  | nil => simp [fromLast]
  | cons b l ih =>
    simp only [List.cons_append, fromLast, List.any_append, ih]
    by_cases ha : p a = true
    · simp [ha]
    · by_cases hl : l.any p = true
      · simp [ha, hl]
      · simp [ha, hl]

theorem fromLast_suffix (l : List α) : fromLast p l <:+ l := by
  induction l with
  | nil => exact List.suffix_refl _
  | cons a l ih =>
    simp only [fromLast]
    split
    · exact ih.trans (List.suffix_cons a l)
    · exact List.suffix_refl _

theorem fromLast_eq_nil_iff {l : List α} : fromLast p l = [] ↔ l = [] := by
  induction l with
  | nil => simp [fromLast]
  | cons a l ih =>
    simp only [fromLast]
    split
    · rename_i hany
      rw [ih]
      constructor
      · rintro rfl
        cases hany
      · nofun
    · simp

theorem accountingPoints_same {e : Entry} (h : e.point? = none) :
    accountingPoints (entries ++ [e]) = accountingPoints entries := by
  simp [accountingPoints, h]

theorem accountingPoints_result {e : Entry} {point : Point} (h : e.point? = some point)
    (hr : point.reset = false) :
    accountingPoints (entries ++ [e]) = accountingPoints entries ++ [point] := by
  have hdrop : ((entries ++ [e]).filterMap Entry.point?).dropWhile Point.reset =
      (entries.filterMap Entry.point?).dropWhile Point.reset ++ [point] := by
    simp only [List.filterMap_append, List.filterMap_cons, h, List.filterMap_nil,
      List.dropWhile_append]
    split
    · rename_i hnone
      simp [List.isEmpty_iff.mp hnone, hr]
    · rfl
  rw [accountingPoints, hdrop, fromLast_append_singleton, hr]
  rfl

/-- A reset before the first result is no point, and any other one is the first. -/
theorem accountingPoints_reset {e : Entry} {point : Point} (h : e.point? = some point)
    (hr : point.reset = true) :
    accountingPoints (entries ++ [e]) = if accountingPoints entries = [] then [] else [point] := by
  have hempty : accountingPoints entries = [] ↔
      (entries.filterMap Entry.point?).dropWhile Point.reset = [] := fromLast_eq_nil_iff
  simp only [hempty]
  simp only [accountingPoints, List.filterMap_append, List.filterMap_cons, h, List.filterMap_nil,
    List.dropWhile_append, List.isEmpty_iff]
  split
  · simp [hr, fromLast]
  · rw [fromLast_append_singleton, if_pos hr]

def openGap (points : List Point) (health : Health) (now : Instant) : Nat :=
  points.getLast?.elim 0 fun last =>
    if last.health = health then now.nanos - last.time.nanos else 0

theorem spent_append_singleton (health : Health) (points : List Point) (point : Point) :
    spent health (points ++ [point]) = spent health points + openGap points health point.time := by
  induction points with
  | nil => rfl
  | cons first points ih =>
    cases points with
    | nil => simp [spent, openGap]
    | cons second points =>
      simp only [List.cons_append, spent] at ih ⊢
      rw [ih, Nat.add_assoc]
      simp [openGap]

/-- While one of the two is committed, and time goes on, the gaps are all the time there is. -/
theorem spent_total {points : List Point} (hk : ∀ point ∈ points, point.health ≠ .unknown)
    (hm : (points.map Point.time).Pairwise (· ≤ ·)) {first last : Point}
    (hf : points.head? = some first) (hl : points.getLast? = some last) :
    first.time.nanos + (spent .healthy points + spent .unhealthy points) = last.time.nanos := by
  induction points generalizing first with
  | nil => cases hf
  | cons point points ih =>
    cases hf
    cases points with
    | nil =>
      cases hl
      rfl
    | cons next points =>
      obtain ⟨hknown, hrest⟩ := List.forall_mem_cons.mp hk
      obtain ⟨hle, hsorted⟩ := List.pairwise_cons.mp hm
      have hnext : point.time.nanos ≤ next.time.nanos := hle next.time (List.mem_cons_self ..)
      have htotal := ih hrest hsorted rfl hl
      simp only [spent]
      cases hh : point.health with
      | unknown => exact absurd hh hknown
      | healthy =>
        simp only [reduceCtorEq, if_true, if_false]
        omega
      | unhealthy =>
        simp only [reduceCtorEq, if_true, if_false]
        omega

end Points

theorem due_eq_openGap {points : List Point}
    (ha : t.accountedAt = points.getLast?.map Point.time)
    (hh : ∀ point ∈ points.getLast?, point.health = t.status.health) (health : Health)
    (now : Instant) : t.due health now = openGap points health now := by
  unfold due openGap
  rw [ha]
  cases hl : points.getLast? with
  | none => simp
  | some last =>
    rw [hl] at hh
    simp [hh last rfl]

structure Accounted (points : List Point) (t : Tracker) : Prop where
  accountedAt : t.accountedAt = points.getLast?.map Point.time
  health : ∀ point ∈ points.getLast?, point.health = t.status.health
  uptime : t.tally.uptime.nanos = spent .healthy points
  downtime : t.tally.downtime.nanos = spent .unhealthy points
  known : ∀ point ∈ points, point.health ≠ .unknown

/-- A recording credits the time that is due, and makes its instant the accounting point. -/
structure Credits (t : Tracker) (now : Instant) (u : Tracker) : Prop where
  accountedAt : u.accountedAt = some now
  uptime : u.tally.uptime.nanos = t.tally.uptime.nanos + t.due .healthy now
  downtime : u.tally.downtime.nanos = t.tally.downtime.nanos + t.due .unhealthy now

section Steps

variable {result : CheckResult} {now : Instant} {answer : Answer} {points : List Point}

theorem PassesOn.credits {recoveries : Nat} {record : Except Crash (Tracker × Transition)}
    {transition : Transition} (hp : PassesOn recoveries (t.observe result now) record)
    (h : record = .ok (u, transition)) : t.Credits now u := by
  obtain ⟨tally, hobserved, htally, haccounted⟩ := hp.observed h
  constructor
  · exact haccounted
  · rw [htally]
    exact hobserved.uptime
  · rw [htally]
    exact hobserved.downtime

theorem Accounted.recorded (h : Accounted points t) (hc : t.Credits now u)
    (hk : u.status.health ≠ .unknown) :
    Accounted (points ++ [⟨now, u.status.health, false⟩]) u := by
  have hdue := fun health => due_eq_openGap h.accountedAt h.health health now
  constructor
  · rw [hc.accountedAt, List.getLast?_concat]
    rfl
  · intro point hpoint
    rw [List.getLast?_concat] at hpoint
    cases hpoint
    rfl
  · rw [hc.uptime, hdue, h.uptime, spent_append_singleton]
  · rw [hc.downtime, hdue, h.downtime, spent_append_singleton]
  · intro point hpoint
    rcases List.mem_append.mp hpoint with hpoint | hpoint
    · exact h.known point hpoint
    · rw [List.mem_singleton.mp hpoint]
      exact hk

theorem Accounted.reset (h : Accounted points t) (now : Instant) :
    Accounted (if points = [] then [] else [⟨now, t.status.health, true⟩]) (t.resetTally now) := by
  by_cases hp : points = []
  · rw [if_pos hp]
    have hnone : t.accountedAt = none := by
      rw [h.accountedAt, hp]
      rfl
    refine ⟨?_, nofun, rfl, rfl, nofun⟩
    simp [resetTally, hnone]
  · rw [if_neg hp]
    have hlast := List.getLast?_eq_some_getLast hp
    have hhealth := h.health _ hlast
    refine ⟨?_, ?_, rfl, rfl, ?_⟩
    · simp [resetTally, h.accountedAt, hlast]
    · intro point hpoint
      cases hpoint
      rfl
    · intro point hpoint
      have hknown := h.known _ (List.getLast_mem hp)
      rw [hhealth] at hknown
      rw [List.mem_singleton.mp hpoint]
      exact hknown

theorem Accounted.same (h : Accounted points t) (ha : u.accountedAt = t.accountedAt)
    (hh : u.status.health = t.status.health) (hu : u.tally.uptime = t.tally.uptime)
    (hd : u.tally.downtime = t.tally.downtime) : Accounted points u := by
  refine ⟨ha.trans h.accountedAt, ?_, ?_, ?_, h.known⟩
  · rw [hh]
    exact h.health
  · rw [hu]
    exact h.uptime
  · rw [hd]
    exact h.downtime

theorem Accounted.credited (h : Accounted points t)
    (hm : (points.map Point.time).Pairwise (· ≤ ·)) :
    t.tally.uptime.nanos + t.tally.downtime.nanos ≤ t.accounted := by
  rw [accounted, h.accountedAt, h.uptime, h.downtime]
  cases points with
  | nil => exact Nat.le_refl _
  | cons first rest =>
    have hlast := List.getLast?_eq_some_getLast (List.cons_ne_nil first rest)
    have htotal := spent_total h.known hm rfl hlast
    rw [hlast]
    simp only [Option.map_some, Option.elim_some]
    omega

theorem Accounted.accounted_le (h : Accounted points t) (hn : ∀ point ∈ points, point.time ≤ now) :
    t.accounted ≤ now.nanos := by
  rw [accounted, h.accountedAt]
  cases hl : points.getLast? with
  | none => exact Nat.zero_le _
  | some last => exact hn last (List.mem_of_getLast? hl)

theorem Accounted.applied (h : Accounted (accountingPoints entries) t)
    (ha : t.apply op = .ok (u, answer))
    (hk : op.result? ≠ none → u.status.health ≠ .unknown) :
    Accounted (accountingPoints (entries ++ [⟨op, answer, u⟩])) u := by
  cases op with
  | recordCheck result now =>
    obtain ⟨c, hr, -⟩ := recorded_eq_ok ha
    rw [accountingPoints_result rfl rfl]
    exact h.recorded ((t.recordCheck_passesOn result now).credits hr) (hk nofun)
  | recordAttempt result now =>
    obtain ⟨c, hr, -⟩ := recorded_eq_ok ha
    rw [accountingPoints_result rfl rfl]
    exact h.recorded ((t.recordAttempt_passesOn result now).credits hr) (hk nofun)
  | resetTally now =>
    cases ha
    rw [accountingPoints_reset rfl rfl]
    exact h.reset now
  | _ =>
    cases ha
    rw [accountingPoints_same rfl]
    exact h.same rfl rfl rfl rfl

end Steps

theorem times_sublist (entries : List Entry) :
    ((accountingPoints entries).map Point.time).Sublist (instants (entries.map Entry.op)) := by
  have htimes : (entries.filterMap Entry.point?).map Point.time =
      instants (entries.map Entry.op) := by
    rw [instants, List.filterMap_map, List.map_filterMap]
    apply List.filterMap_congr
    intro e _
    cases h : e.op.instant? <;> simp [Entry.point?, h]
  rw [← htimes]
  exact ((fromLast_suffix _).sublist.trans (List.dropWhile_suffix _).sublist).map _

variable {failures successes : UInt32}

theorem run_accounted (h : Run Orderly (new failures successes) ops t) :
    ∃ entries, (new failures successes).trace ops = .ok entries ∧
      (new failures successes).left entries = t ∧ Accounted (accountingPoints entries) t := by
  induction h with
  | nil => exact ⟨[], rfl, rfl, rfl, nofun, rfl, rfl, nofun⟩
  | @step ops t op u answer hrun ho ha ih =>
    obtain ⟨entries, htrace, hleft, haccounted⟩ := ih
    obtain ⟨htrace', hleft'⟩ := trace_append_singleton htrace (hleft ▸ ha)
    refine ⟨_, htrace', hleft', haccounted.applied ha ?_⟩
    intro hresult hunknown
    have hrecorded := (run_consistent (hrun.step ho ha)).unknown_unrecorded.mp hunknown
    rw [results_append_singleton, List.append_eq_nil_iff, Option.toList_eq_nil_iff] at hrecorded
    exact hresult hrecorded.2

theorem apply_error {c : Crash} (hfits : ∀ now ∈ op.instant?, t.credit now ≠ .error c)
    (h : t.apply op = .error c) :
    ∃ latency, op.result? = some (.ok latency) ∧ op.isReset = false ∧
      Duration.limit ≤ t.tally.latencyTotal.nanos + latency.nanos := by
  cases op with
  | recordCheck result now =>
    have hobserve := (t.recordCheck_passesOn result now).error (recorded_eq_error h)
    obtain ⟨latency, rfl, hover⟩ := observe_error (hfits now rfl) hobserve
    exact ⟨latency, rfl, rfl, hover⟩
  | recordAttempt result now =>
    have hobserve := (t.recordAttempt_passesOn result now).error (recorded_eq_error h)
    obtain ⟨latency, rfl, hover⟩ := observe_error (hfits now rfl) hobserve
    exact ⟨latency, rfl, rfl, hover⟩
  | _ => cases h

/-- If the instants of results and resets never go back, every gap between accounting points is in
the uptime or in the downtime, by the health that was committed in it, and these are all they hold.
Neither of them can overflow: an operation in time crashes only on the sum of the latencies. -/
theorem time_accounted_once (h : Run Orderly (new failures successes) ops t)
    (hm : (instants ops).Pairwise (· ≤ ·)) :
    ∃ entries, (new failures successes).trace ops = .ok entries ∧
      (new failures successes).left entries = t ∧
      t.tally.uptime.nanos = spent .healthy (accountingPoints entries) ∧
      t.tally.downtime.nanos = spent .unhealthy (accountingPoints entries) ∧
      (∀ first last, (accountingPoints entries).head? = some first →
        (accountingPoints entries).getLast? = some last →
        first.time.nanos + (t.tally.uptime.nanos + t.tally.downtime.nanos) = last.time.nanos) ∧
      ∀ op c, (∀ now ∈ op.instant?, ∀ earlier ∈ instants ops, earlier ≤ now) →
        t.apply op = .error c →
        Duration.limit ≤ ((results (sinceReset (ops ++ [op]))).map latencyNanos).sum := by
  obtain ⟨entries, htrace, hleft, haccounted⟩ := run_accounted h
  have htimes : ((accountingPoints entries).map Point.time).Sublist (instants ops) := by
    rw [← ops_of_trace htrace]
    exact times_sublist entries
  have htotal : ∀ first last, (accountingPoints entries).head? = some first →
      (accountingPoints entries).getLast? = some last →
      first.time.nanos + (t.tally.uptime.nanos + t.tally.downtime.nanos) = last.time.nanos := by
    intro first last hf hl
    rw [haccounted.uptime, haccounted.downtime]
    exact spent_total haccounted.known (hm.sublist htimes) hf hl
  refine ⟨entries, htrace, hleft, haccounted.uptime, haccounted.downtime, htotal, ?_⟩
  intro op c htime hcrash
  have hfits : ∀ now ∈ op.instant?, t.credit now ≠ .error c := by
    intro now hnow
    have hsorted := hm.sublist htimes
    refine credit_fits (haccounted.credited hsorted) (haccounted.accounted_le ?_)
    intro point hpoint
    exact htime now hnow point.time (htimes.subset (List.mem_map_of_mem hpoint))
  obtain ⟨latency, hresult, hreset, hover⟩ := apply_error hfits hcrash
  rw [run_latencies h] at hover
  rw [sinceReset_append_singleton, hreset]
  simpa [results_append_singleton, hresult, latencyNanos] using hover

/-- An outage with one reset too early to count and another one in the middle of the episode. -/
def resetInOutage : List Operation :=
  [.resetTally (.clampMillis 3), .recordCheck (.ok .zero) (.clampMillis 5),
    .recordCheck (.error .connectionClosed) (.clampMillis 20), .beginEpisode (.clampMillis 0),
    .recordAttempt (.error .cancelled) (.clampMillis 25), .resetTally (.clampMillis 30),
    .recordAttempt (.ok .zero) (.clampMillis 45), .recordCheck (.ok .zero) (.clampMillis 55)]

theorem time_accounted_once_outage : ∃ t, Run Orderly (new 1 1) resetInOutage t ∧
    (instants resetInOutage).Pairwise (· ≤ ·) ∧
    t.tally.uptime.nanos = 10000000 ∧ t.tally.downtime.nanos = 15000000 := by
  have hs : (follow Orderly (new 1 1) resetInOutage).isSome = true := by decide
  have hp : ((new 1 1).trace resetInOutage).toOption.map accountingPoints =
      some [⟨.clampMillis 30, .unhealthy, true⟩, ⟨.clampMillis 45, .healthy, false⟩,
        ⟨.clampMillis 55, .healthy, false⟩] := by decide
  have hm : (instants resetInOutage).Pairwise (· ≤ ·) := by decide
  obtain ⟨t, ht⟩ := Option.isSome_iff_exists.mp hs
  have run : Run Orderly (new 1 1) resetInOutage t := run_of_follow .nil ht
  obtain ⟨entries, htrace, -, huptime, hdowntime, -, -⟩ := time_accounted_once run hm
  rw [htrace, Except.toOption, Option.map_some, Option.some.injEq] at hp
  rw [hp] at huptime hdowntime
  exact ⟨t, run, hm, huptime, hdowntime⟩

end Liveness.Tracker

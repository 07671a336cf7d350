import Liveness.Proofs.Tracker.Totals
/-!
# Episodes and their outcomes

An episode is counted when it begins, and its outcome is counted when it recovers or is abandoned.
A reset of the totals in between forgets the beginning only. At most one episode is in progress
then, so there is never more than one outcome without its episode.
-/
namespace Liveness.Tracker

variable {t u : Tracker} {op : Operation} {answer : Answer} {ops : List Operation}

/-- One episode after the other, each of them for an unhealthy target, and outcomes only of the
episode in progress. -/
def OneByOne (t : Tracker) : Operation → Prop
  | .beginEpisode _ => t.status.health = .unhealthy ∧ t.status.reconnecting = false
  | .recordAttempt .. | .abandonEpisode => t.status.reconnecting = true
  | .recordCheck .. | .interruptEpisode | .resetTally _ => True

instance (t : Tracker) (op : Operation) : Decidable (t.OneByOne op) :=
  match op with
  | .beginEpisode _ => inferInstanceAs (Decidable (_ ∧ _))
  | .recordAttempt .. | .abandonEpisode =>
    inferInstanceAs (Decidable (t.status.reconnecting = true))
  | .recordCheck .. | .interruptEpisode | .resetTally _ => isTrue trivial

inductive Moves : Bool → Option EventKind → Bool → Prop where
  | begins : Moves false (some .reconnectStarted) true
  | fails : Moves true (some .reconnectFailed) true
  | recovers : Moves true (some .reconnectSuccess) false
  | abandons : Moves true (some .reconnectAbandoned) false
  | stays {reconnecting} : Moves reconnecting none reconnecting
  | leaves {reconnecting} : Moves reconnecting none false

theorem Checked.moves {o : Tracker} {result : CheckResult} {c : Transition}
    (h : Checked o result u c) : Moves o.status.reconnecting none u.status.reconnecting := by
  cases h with
  | rises => exact .leaves
  | succeeds => exact .stays
  | falls => exact .stays
  | fails => exact .stays

theorem Applied.moves (h : Applied t op u answer) (ho : t.OneByOne op) :
    Moves t.status.reconnecting op.tells? u.status.reconnecting := by
  cases h with
  | @checked result now tally _ _ hc =>
    rw [← t.observed_reconnecting result now tally]
    exact hc.moves
  | began =>
    rw [ho.2]
    exact .begins
  | attempted ha =>
    have hr : t.status.reconnecting = true := ho
    cases ha with
    | reconnects =>
      rw [hr]
      exact .recovers
    | fails =>
      change Moves t.status.reconnecting (some .reconnectFailed) t.status.reconnecting
      rw [hr]
      exact .fails
  | abandoned =>
    have hr : t.status.reconnecting = true := ho
    rw [hr]
    exact .abandons
  | interrupted => exact .leaves
  | reset => exact .stays

def firstCounted (kinds : List EventKind) : Option EventKind := kinds.find? (· ≠ .reconnectFailed)

/-- An episode from before all this was still in progress: it still is, or its outcome comes
first. -/
def carried (kinds : List EventKind) (reconnecting : Bool) : Bool :=
  (firstCounted kinds).elim reconnecting (· ≠ .reconnectStarted)

/-- Every outcome has its episode, and so has the episode in progress, but for one at most. -/
def Settled (kinds : List EventKind) (reconnecting : Bool) : Prop :=
  kinds.count .reconnectSuccess + kinds.count .reconnectAbandoned + reconnecting.toNat ≤
    kinds.count .reconnectStarted + (carried kinds reconnecting).toNat

section Moves

variable {kinds : List EventKind} {kind : Option EventKind} {before after : Bool}

theorem firstCounted_append (kinds later : List EventKind) :
    firstCounted (kinds ++ later) = (firstCounted kinds).or (firstCounted later) :=
  List.find?_append

theorem carried_of_none (h : firstCounted kinds = none) (reconnecting : Bool) :
    carried kinds reconnecting = reconnecting := by
  rw [carried, h, Option.elim_none]

theorem carried_of_some {first : EventKind} (h : firstCounted kinds = some first)
    (reconnecting : Bool) : carried kinds reconnecting = decide (first ≠ .reconnectStarted) := by
  rw [carried, h, Option.elim_some]

/-- What is carried is settled by the first beginning or outcome. -/
theorem carried_append {first : EventKind} (h : firstCounted kinds = some first)
    (later : List EventKind) (reconnecting : Bool) :
    carried (kinds ++ later) reconnecting = decide (first ≠ .reconnectStarted) := by
  apply carried_of_some
  rw [firstCounted_append, h, Option.some_or]

theorem carried_append_of_none (h : firstCounted kinds = none) (later : List EventKind)
    (reconnecting : Bool) : carried (kinds ++ later) reconnecting = carried later reconnecting := by
  rw [carried, firstCounted_append, h, Option.none_or, carried]

theorem Settled.moved (h : Settled kinds before) (hm : Moves before kind after) :
    Settled (kinds ++ kind.toList) after := by
  unfold Settled at *
  simp only [List.count_append]
  cases hf : firstCounted kinds with
  | none =>
    rw [carried_of_none hf] at h
    rw [carried_append_of_none hf]
    cases hm <;> simp [carried, firstCounted] at h ⊢ <;> omega
  | some first =>
    rw [carried_of_some hf] at h
    rw [carried_append hf]
    cases hm <;> simp at h ⊢ <;> omega

theorem Moves.carried (hm : Moves before kind after)
    (hc : carried (kinds ++ kind.toList) after = true) : carried kinds before = true := by
  cases hf : firstCounted kinds with
  | none =>
    rw [carried_append_of_none hf] at hc
    rw [carried_of_none hf]
    cases hm with
    | begins => cases hc
    | stays => exact hc
    | leaves => cases hc
    | _ => rfl
  | some first =>
    rw [carried_append hf] at hc
    rw [carried_of_some hf]
    exact hc

end Moves

variable {failures successes : UInt32}

theorem run_settled (h : Run OneByOne (new failures successes) ops t) :
    Settled (told (sinceReset ops)) t.status.reconnecting := by
  induction h with
  | nil => exact Nat.le_refl _
  | @step ops t op u answer _ ho ha ih =>
    rw [sinceReset_append_singleton]
    by_cases hr : op.isReset = true
    · rw [if_pos hr]
      simp [Settled, carried, firstCounted]
    · rw [if_neg hr, told_append_singleton]
      exact ih.moved ((apply_eq_ok ha).moves ho)

def ResetMidway (start : Tracker) (ops : List Operation) : Prop :=
  ∃ before now since t, ops = before ++ .resetTally now :: since ∧
    (∀ op ∈ since, op.isReset = false) ∧ Run OneByOne start before t ∧
    t.status.reconnecting = true

theorem run_carried (h : Run OneByOne (new failures successes) ops t)
    (hc : carried (told (sinceReset ops)) t.status.reconnecting = true) :
    ResetMidway (new failures successes) ops := by
  induction h with
  | nil => cases hc
  | @step ops t op u answer hrun ho ha ih =>
    rw [sinceReset_append_singleton] at hc
    by_cases hr : op.isReset = true
    · rw [if_pos hr] at hc
      cases op with
      | resetTally now =>
        cases ha
        exact ⟨ops, now, [], t, rfl, nofun, hrun, hc⟩
      | _ => cases hr
    · rw [if_neg hr, told_append_singleton] at hc
      obtain ⟨before, now, since, m, rfl, hsince, hbefore, hm⟩ :=
        ih (((apply_eq_ok ha).moves ho).carried hc)
      refine ⟨before, now, since ++ [op], m, by simp, ?_, hbefore, hm⟩
      intro op' hop'
      rcases List.mem_append.mp hop' with hop' | hop'
      · exact hsince op' hop'
      · rw [List.mem_singleton.mp hop']
        simpa using hr

/-- Since the totals were last reset, an outcome was counted before any episode was. -/
def outlives (ops : List Operation) : Bool :=
  (firstCounted (told (sinceReset ops))).any (· ≠ .reconnectStarted)

/-- Every counted recovery and every counted abandonment has a counted episode, but for the outcome
of the one that was in progress when the totals were last reset. -/
theorem outcomes_have_episodes (h : Run OneByOne (new failures successes) ops t) :
    t.tally.recoveries + t.tally.abandoned ≤ t.tally.episodes + (outlives ops).toNat ∧
      (outlives ops = true → ResetMidway (new failures successes) ops) := by
  have hcounts := run_counts h
  have hsettled := run_settled h
  have hcarried := run_carried h
  rw [hcounts.recoveries, hcounts.abandoned, hcounts.episodes]
  unfold Settled at hsettled
  cases hf : firstCounted (told (sinceReset ops)) with
  | none =>
    rw [carried_of_none hf] at hsettled
    rw [outlives, hf, Option.any_none]
    exact ⟨by omega, nofun⟩
  | some first =>
    rw [carried_of_some hf] at hsettled hcarried
    rw [outlives, hf, Option.any_some]
    exact ⟨by omega, hcarried⟩

def abandonedAfterReset : List Operation :=
  [.recordCheck (.error .connectionClosed) .zero, .beginEpisode .zero, .resetTally .zero,
    .abandonEpisode]

theorem outcome_without_episode : ¬ ∀ (failures successes : UInt32) (ops : List Operation)
    (t : Tracker), Run OneByOne (new failures successes) ops t →
      t.tally.recoveries + t.tally.abandoned ≤ t.tally.episodes := by
  intro hall
  have hs : ((follow OneByOne (new 1 1) abandonedAfterReset).map fun t =>
      (t.tally.episodes, t.tally.abandoned)) = some (0, 1) := by decide
  obtain ⟨t, ht, htally⟩ := Option.map_eq_some_iff.mp hs
  obtain ⟨hepisodes, habandoned⟩ := Prod.mk.inj htally
  have hle := hall 1 1 abandonedAfterReset t (run_of_follow .nil ht)
  omega

theorem outcomes_have_episodes_after_reset : ∃ t,
    Run OneByOne (new 1 1) abandonedAfterReset t ∧ outlives abandonedAfterReset = true ∧
    t.tally.recoveries + t.tally.abandoned ≤ t.tally.episodes + 1 ∧
    ResetMidway (new 1 1) abandonedAfterReset := by
  have hs : (follow OneByOne (new 1 1) abandonedAfterReset).isSome = true := by decide
  have ho : outlives abandonedAfterReset = true := by decide
  obtain ⟨t, ht⟩ := Option.isSome_iff_exists.mp hs
  have run : Run OneByOne (new 1 1) abandonedAfterReset t := run_of_follow .nil ht
  obtain ⟨hle, hmidway⟩ := outcomes_have_episodes run
  rw [ho] at hle
  exact ⟨t, run, ho, hle, hmidway ho⟩

end Liveness.Tracker

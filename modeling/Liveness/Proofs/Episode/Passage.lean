import Liveness.Proofs.Episode.Endurance
/-!
# Passages of an episode

All the ways in which an episode can come to its end: it goes on where it has something to do, time
passes where it waits, and it can be cancelled wherever it could wait, be it before or after what is
due then. A run with its bound on steps and waits is one of them.
-/
namespace Liveness

namespace Episode

inductive Passage (rule : EpisodeRule) : Nat → Episode → World → Hub → Journal → Run → Prop where
  | goes {now e w hub journal turn e' r} : e.step rule now w = some turn → turn.next = .going e' →
      Passage rule now e' (perform now turn.effects turn.world hub).1
        (perform now turn.effects turn.world hub).2.1
        (journal ++ (perform now turn.effects turn.world hub).2.2.map (now, ·)) r →
      Passage rule now e w hub journal r
  | waits {now e w hub journal r} : e.step rule now w = none →
      Passage rule (e.wakeAt now) e w hub journal r → Passage rule now e w hub journal r
  | ends {now e w hub journal turn o} : e.step rule now w = some turn → turn.next = .ended o →
      Passage rule now e w hub journal
        ⟨now, (perform now turn.effects turn.world hub).1,
          (perform now turn.effects turn.world hub).2.1,
          journal ++ (perform now turn.effects turn.world hub).2.2.map (now, ·), .ok o⟩
  | crashes {now e w hub journal turn c} : e.step rule now w = some turn →
      turn.next = .crashed c →
      Passage rule now e w hub journal
        ⟨now, (perform now turn.effects turn.world hub).1,
          (perform now turn.effects turn.world hub).2.1,
          journal ++ (perform now turn.effects turn.world hub).2.2.map (now, ·), .error c⟩
  | cut {now e w hub journal time} : e.isCancellable = true → now ≤ time →
      Passage rule now e w hub journal
        ⟨time, (perform time (e.cut w).2 (e.cut w).1 hub).1,
          (perform time (e.cut w).2 (e.cut w).1 hub).2.1,
          journal ++ (perform time (e.cut w).2 (e.cut w).1 hub).2.2.map (time, ·),
          .ok .cancelled⟩

variable {rule : EpisodeRule} {now : Nat} {e : Episode} {w : World}

/-- The fuel is no end of its own, and no time of a cancellation is missed. -/
theorem runFrom_passage {cancelled : Bool} {cancel : Option Cancellation} {fuel : Nat} (hub : Hub)
    (journal : Journal) (hf : Fuelled rule now e w fuel) (hb : e.InBudget rule.policy)
    (hc : cancelled = false → ∀ cut ∈ cancel, now ≤ cut.time) :
    Passage rule now e w hub journal
      (runFrom rule cancelled cancel fuel now e w hub journal) := by
  induction fuel generalizing now e w hub journal with
  | zero => exact absurd (hf.pos hb) (Nat.lt_irrefl 0)
  | succ fuel ih =>
    by_cases hcut : (cancelled && e.isCancellable) = true
    · simp only [runFrom, if_pos hcut]
      exact .cut (Bool.and_eq_true_iff.mp hcut).2 (Nat.le_refl _)
    · cases hs : e.step rule now w with
      | some turn =>
        cases hn : turn.next with
        | going e' =>
          obtain ⟨hfuel, hbudget⟩ := hf.steps hb hs hn
          simp only [runFrom, if_neg hcut, hs, hn]
          exact .goes hs hn (ih _ _ hfuel hbudget hc)
        | ended o =>
          simp only [runFrom, if_neg hcut, hs, hn]
          exact .ends hs hn
        | crashed c =>
          simp only [runFrom, if_neg hcut, hs, hn]
          exact .crashes hs hn
      | none =>
        have hrests := cancellable_of_waits hs
        have hlive : cancelled = false := by simpa [hrests] using hcut
        cases hfilter : cancel.filter (·.before (e.wakeAt now)) with
        | some cut =>
          simp only [runFrom, if_neg hcut, hs, hfilter]
          obtain ⟨hcut, -⟩ := Option.filter_eq_some_iff.mp hfilter
          exact .cut hrests (hc hlive cut hcut)
        | none =>
          simp only [runFrom, if_neg hcut, hs, hfilter]
          refine .waits hs (ih _ _ (hf.waits hs) hb ?_)
          intro _ cut hcut
          exact cut.le_of_not_before (Option.filter_eq_none_iff.mp hfilter cut hcut)

theorem run_passage (rule : EpisodeRule) (cancel : Option Cancellation) (now : Nat) (w : World)
    (hub : Hub) : Passage rule now .opening w hub [] (run rule cancel now w hub) := by
  refine runFrom_passage hub [] (fuelled_run rule now w) trivial ?_
  intro hlive cut hcut
  exact cut.le_of_not_before (Bool.eq_false_iff.mp ((Option.any_eq_false _ _).mp hlive cut hcut))

end Episode

end Liveness

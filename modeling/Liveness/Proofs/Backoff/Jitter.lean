import Liveness.Proofs.Backoff.Draw
/-!
# Delays with jitter

A jittered delay is half the base delay and a draw below the base delay, capped by the policy and then by
what 64 bits of nanoseconds hold. Both caps bind again after the draw, so they apply to both ends of the
band.
-/
namespace Liveness

open Entropy (Ends accept?)

namespace Policy

variable {p : Policy} {attempt : Nat} {e : Entropy}

def spread (p : Policy) (base : Duration) (offset : Nat) : Duration :=
  .clampNanos (min (min (base.nanos / 2 + offset) p.maxBackoff.nanos) (2 ^ 64 - 1))

/-- Both caps are durations. -/
theorem spread_nanos (p : Policy) (base : Duration) (offset : Nat) :
    (p.spread base offset).nanos =
      min (min (base.nanos / 2 + offset) p.maxBackoff.nanos) (2 ^ 64 - 1) := by
  have hfits : min (min (base.nanos / 2 + offset) p.maxBackoff.nanos) (2 ^ 64 - 1) <
      Duration.limit := by
    rw [Duration.limit_eq]
    omega
  unfold spread Duration.clampNanos
  rw [dif_pos hfits]

theorem delay_plain (h : p.jitter = false ∨ (p.baseDelay attempt).nanos = 0) :
    p.delay attempt e = (p.baseDelay attempt, e) := by
  unfold delay
  rcases h with h | h <;> simp [h]

theorem delay_jittered {offset : Nat} {rest : Entropy} (hjitter : p.jitter = true)
    (hbase : (p.baseDelay attempt).nanos ≠ 0)
    (hdraw : e.draw (p.baseDelay attempt).nanos = (offset, rest)) :
    p.delay attempt e = (p.spread (p.baseDelay attempt) offset, rest) := by
  unfold delay spread
  simp only [hjitter, hbase, hdraw, Bool.not_true, decide_false, Bool.or_false, Bool.false_eq_true,
    if_false, Nat.pow_eq]

theorem spread_lower (p : Policy) (base : Duration) (offset : Nat) :
    min (min (base.nanos / 2) p.maxBackoff.nanos) (2 ^ 64 - 1) ≤ (p.spread base offset).nanos := by
  rw [spread_nanos]
  omega

theorem spread_upper (p : Policy) {base : Duration} {offset : Nat} (h : offset < base.nanos) :
    (p.spread base offset).nanos ≤
      min (min (base.nanos / 2 + base.nanos - 1) p.maxBackoff.nanos) (2 ^ 64 - 1) := by
  rw [spread_nanos]
  omega

/-- A delay that is drawn, and the words that are left. The search for a pair that is accepted ends one
round beyond the words at the latest. -/
structure Jittered (p : Policy) (base : Duration) (e : Entropy) (result : Duration × Entropy) :
    Prop where
  drawn : ∃ round offset, Ends (accept? base.nanos) e.word round offset ∧
    2 * round ≤ e.words.length + 1 ∧ offset < base.nanos ∧
    result = (p.spread base offset, e.after (round + 1))
  lower : min (min (base.nanos / 2) p.maxBackoff.nanos) (2 ^ 64 - 1) ≤ result.1.nanos
  upper : result.1.nanos ≤
    min (min (base.nanos / 2 + base.nanos - 1) p.maxBackoff.nanos) (2 ^ 64 - 1)

theorem jittered_delay (hjitter : p.jitter = true) (hbase : (p.baseDelay attempt).nanos ≠ 0) :
    Jittered p (p.baseDelay attempt) e (p.delay attempt e) := by
  obtain ⟨round, offset, hends, hdraw, hround⟩ :=
    Entropy.draw_ends (p.baseDelay attempt).nanos e
  have hoffset := hends.lt (Nat.pos_of_ne_zero hbase)
  rw [delay_jittered hjitter hbase hdraw]
  constructor
  case drawn => exact ⟨round, offset, hends, hround, hoffset, rfl⟩
  case lower => exact spread_lower p _ offset
  case upper => exact spread_upper p hoffset

theorem Jittered.draws {base : Duration} {result : Duration × Entropy}
    (h : Jittered p base e result) : result.2 ≠ e := by
  obtain ⟨round, offset, -, -, -, rfl⟩ := h.drawn
  intro heq
  have hused : e.used + 2 * (round + 1) = e.used := congrArg Entropy.used heq
  omega

theorem delay_plain_iff : p.delay attempt e = (p.baseDelay attempt, e) ↔
    p.jitter = false ∨ (p.baseDelay attempt).nanos = 0 := by
  refine ⟨fun hplain => ?_, delay_plain⟩
  cases hjitter : p.jitter with
  | false => exact .inl rfl
  | true =>
    refine .inr (Decidable.byContradiction fun hbase => ?_)
    exact (jittered_delay hjitter hbase).draws (e := e) (congrArg Prod.snd hplain)

/-- A base delay is in whole milliseconds, so half of it is exact. -/
theorem baseDelay_even (p : Policy) (attempt : Nat) : (p.baseDelay attempt).nanos % 2 = 0 := by
  unfold baseDelay Duration.ofMillis
  simp only
  omega

/-- The band of a delay under a cap that is not below the base delay and fits in 64 bits. -/
theorem delay_within_half (hcap : (p.baseDelay attempt).nanos ≤ p.maxBackoff.nanos)
    (hfits : p.maxBackoff.nanos ≤ 2 ^ 64 - 1) :
    (p.baseDelay attempt).nanos ≤ 2 * (p.delay attempt e).1.nanos ∧
      2 * (p.delay attempt e).1.nanos ≤ 3 * (p.baseDelay attempt).nanos := by
  have heven := baseDelay_even p attempt
  by_cases hplain : p.jitter = false ∨ (p.baseDelay attempt).nanos = 0
  · rw [delay_plain hplain]
    simp only
    omega
  · obtain ⟨hjitter, hbase⟩ := not_or.mp hplain
    have hdrawn := jittered_delay (Bool.of_not_eq_false hjitter) hbase (e := e)
    have hlower := hdrawn.lower
    have hupper := hdrawn.upper
    omega

/-- The delay before an attempt, for every stream of words. Only the words of the rounds up to the first
pair that is accepted count. -/
theorem delay_in_band (p : Policy) (attempt : Nat) (e : Entropy) :
    (p.delay attempt e = (p.baseDelay attempt, e) ↔
      p.jitter = false ∨ (p.baseDelay attempt).nanos = 0) ∧
    (p.jitter = true → (p.baseDelay attempt).nanos ≠ 0 →
      Jittered p (p.baseDelay attempt) e (p.delay attempt e) ∧
      (p.delay attempt e).1 ≤ p.maxBackoff ∧
      ∀ stream round offset, Ends (accept? (p.baseDelay attempt).nanos) stream round offset →
        p.delay attempt (.ofRounds stream (round + 1)) =
          (p.spread (p.baseDelay attempt) offset, ⟨[], 2 * (round + 1)⟩)) ∧
    ((p.baseDelay attempt).nanos ≤ p.maxBackoff.nanos → p.maxBackoff.nanos ≤ 2 ^ 64 - 1 →
      (p.baseDelay attempt).nanos ≤ 2 * (p.delay attempt e).1.nanos ∧
      2 * (p.delay attempt e).1.nanos ≤ 3 * (p.baseDelay attempt).nanos) := by
  refine ⟨delay_plain_iff, fun hjitter hbase => ⟨jittered_delay hjitter hbase, ?_, ?_⟩,
    delay_within_half⟩
  · have hupper := (jittered_delay hjitter hbase (e := e)).upper
    show (p.delay attempt e).1.nanos ≤ p.maxBackoff.nanos
    omega
  · intro stream round offset hends
    exact delay_jittered hjitter hbase hends.draw_ofRounds

/-- The numbers of a stream whose first pair the standard policy rejects. -/
def secondRound : Nat → UInt64 :=
  (Entropy.ofWords [7119789164694009477, 166020696663, 0, 9223372036854775808]).word

/-- The standard policy takes four words of that stream for the first delay, the base delay itself. -/
theorem delay_in_band_second :
    (standard.baseDelay 0).nanos = 100000000 ∧ standard.maxBackoff.nanos = 30000000000 ∧
    Jittered standard (standard.baseDelay 0) (.ofRounds secondRound 2)
      (standard.delay 0 (.ofRounds secondRound 2)) ∧
    standard.delay 0 (.ofRounds secondRound 2) = (.ofMillis 100, ⟨[], 4⟩) ∧
    100000000 ≤ 2 * (standard.delay 0 (.ofRounds secondRound 2)).1.nanos ∧
    2 * (standard.delay 0 (.ofRounds secondRound 2)).1.nanos ≤ 300000000 := by
  have hbase : (standard.baseDelay 0).nanos = 100000000 := by decide +kernel
  have hcap : standard.maxBackoff.nanos = 30000000000 := rfl
  have hends : Ends (accept? (standard.baseDelay 0).nanos) secondRound 1 50000000 := by
    rw [hbase]
    exact ⟨by decide +kernel, by decide +kernel⟩
  have hspread : standard.spread (standard.baseDelay 0) 50000000 = .ofMillis 100 := by
    decide +kernel
  obtain ⟨-, hjittered, hhalf⟩ := delay_in_band standard 0 (.ofRounds secondRound 2)
  obtain ⟨hdrawn, -, hstream⟩ := hjittered rfl (by rw [hbase]; decide)
  have hdelay := hstream secondRound 1 50000000 hends
  rw [hspread] at hdelay
  rw [hbase, hcap] at hhalf
  obtain ⟨hlower, hupper⟩ := hhalf (by decide) (by decide)
  exact ⟨hbase, hcap, hdrawn, hdelay, hlower, hupper⟩

end Policy

end Liveness

import Liveness.Proofs.Backoff.Jitter
import Mathlib.Algebra.BigOperators.Group.Finset.Basic
import Mathlib.Algebra.Field.Rat
import Mathlib.Algebra.Order.Floor.Div
import Mathlib.Data.Set.Card
import Mathlib.Order.Interval.Finset.Nat
/-!
# The spread of jittered delays

One round of a draw multiplies the number of its pair of words by the range and splits the product at 128
bits: the high half is the result, and the low half decides whether it is accepted. The numbers that are
accepted for one result lie side by side, and there are equally many of them for every result.
-/
namespace Liveness

open Entropy (accept? leadingZeros)

namespace Entropy

section Windows

variable {range limit count result v : ℕ}

theorem mul_window_iff (hrange : 0 < range) (hlimit : 0 < limit) (hcount : range * count ≤ limit) :
    v * range % limit < range * count ∧ v * range / limit = result ↔
      v ∈ Finset.Ico (result * limit ⌈/⌉ range) (result * limit ⌈/⌉ range + count) := by
  have hwindow : v * range % limit < range * count ∧ v * range / limit = result ↔
      result * limit ≤ range * v ∧ range * v < result * limit + range * count := by
    have hsplit := Nat.div_add_mod' (range * v) limit
    rw [Nat.mul_comm v range]
    constructor
    · rintro ⟨hlow, rfl⟩
      omega
    · rintro ⟨hle, hlt⟩
      have hdiv : range * v / limit = result := by
        rw [Nat.div_eq_iff hlimit]
        omega
      rw [hdiv] at hsplit
      omega
  have hfirst : result * limit ⌈/⌉ range ≤ v ↔ result * limit ≤ range * v :=
    ceilDiv_le_iff_le_mul hrange
  have hlast : v < result * limit ⌈/⌉ range + count ↔
      range * v < result * limit + range * count := by
    rcases Nat.lt_or_ge v count with hlt | hge
    · have := Nat.mul_lt_mul_of_pos_left hlt hrange
      omega
    · obtain ⟨u, rfl⟩ := Nat.exists_eq_add_of_le' hge
      have hnext : result * limit ⌈/⌉ range ≤ u ↔ result * limit ≤ range * u :=
        ceilDiv_le_iff_le_mul hrange
      rw [Nat.mul_add]
      omega
  rw [hwindow, Finset.mem_Ico, hfirst, hlast]

end Windows

variable {range n v : ℕ}

theorem shifted_bounds (hrange : 0 < range) (hfits : range < 2 ^ 128) :
    2 ^ 127 ≤ range * 2 ^ leadingZeros range ∧ range * 2 ^ leadingZeros range < 2 ^ 128 := by
  have hlog : range.log2 ≤ 127 :=
    Nat.lt_succ_iff.mp ((Nat.log2_lt (Nat.ne_of_gt hrange)).mpr hfits)
  have hsum : range.log2 + leadingZeros range = 127 := Nat.add_sub_cancel' hlog
  constructor
  · calc 2 ^ 127 = 2 ^ range.log2 * 2 ^ leadingZeros range := by rw [← pow_add, hsum]
      _ ≤ range * 2 ^ leadingZeros range :=
        Nat.mul_le_mul_right _ (Nat.log2_self_le (Nat.ne_of_gt hrange))
  · calc range * 2 ^ leadingZeros range < 2 ^ (range.log2 + 1) * 2 ^ leadingZeros range :=
        Nat.mul_lt_mul_of_pos_right Nat.lt_log2_self (Nat.two_pow_pos _)
      _ = 2 ^ 128 := by rw [← pow_add, Nat.add_right_comm, hsum]

def window (range n : ℕ) : Finset ℕ :=
  Finset.Ico (n * 2 ^ 128 ⌈/⌉ range) (n * 2 ^ 128 ⌈/⌉ range + 2 ^ leadingZeros range)

theorem card_window (range n : ℕ) : (window range n).card = 2 ^ leadingZeros range := by
  rw [window, Nat.card_Ico, Nat.add_sub_cancel_left]

theorem zone_iff (hrange : 0 < range) (low : ℕ) :
    low ≤ zone range ↔ low < range * 2 ^ leadingZeros range := by
  have hpos := Nat.mul_pos hrange (Nat.two_pow_pos (leadingZeros range))
  unfold zone
  rw [Nat.pow_eq]
  omega

theorem accept?_eq_some_iff_mem (hrange : 0 < range) (hfits : range < 2 ^ 128) :
    accept? range v = some n ↔ v ∈ window range n := by
  rw [accept?_eq_some_iff, zone_iff hrange]
  exact mul_window_iff hrange (Nat.two_pow_pos _) (Nat.le_of_lt (shifted_bounds hrange hfits).2)

theorem lt_of_mem_window (hrange : 0 < range) (hfits : range < 2 ^ 128) (hn : n < range)
    (hv : v ∈ window range n) : v < 2 ^ 128 := by
  rw [← accept?_eq_some_iff_mem hrange hfits, accept?_eq_some_iff] at hv
  obtain ⟨-, rfl⟩ := hv
  have hlt : v * range < range * 2 ^ 128 := (Nat.div_lt_iff_lt_mul (Nat.two_pow_pos _)).mp hn
  rw [Nat.mul_comm range] at hlt
  exact Nat.lt_of_mul_lt_mul_right hlt

theorem disjoint_windows (hrange : 0 < range) (hfits : range < 2 ^ 128) (s : Set ℕ) :
    s.PairwiseDisjoint (window range) := by
  intro n _ m _ hne
  refine Finset.disjoint_left.mpr fun v hn hm => hne ?_
  rw [← accept?_eq_some_iff_mem hrange hfits] at hn hm
  exact Option.some.inj (hn.symm.trans hm)

def number (w : UInt64 × UInt64) : ℕ := pair w.1 w.2

theorem number_injective : Function.Injective number := by
  rintro ⟨low, high⟩ ⟨low', high'⟩ h
  have hlow := low.toNat_lt
  have hlow' := low'.toNat_lt
  simp only [number, pair, Nat.pow_eq] at h
  obtain rfl : low = low' := UInt64.toNat_inj.mp (by omega)
  obtain rfl : high = high' := UInt64.toNat_inj.mp (by omega)
  rfl

theorem exists_number (hv : v < 2 ^ 128) : ∃ w, number w = v := by
  have hhigh : v / 2 ^ 64 < UInt64.size := Nat.div_lt_of_lt_mul hv
  have hlow : v % 2 ^ 64 < UInt64.size := Nat.mod_lt _ (Nat.two_pow_pos _)
  refine ⟨(.ofNat (v % 2 ^ 64), .ofNat (v / 2 ^ 64)), ?_⟩
  simp only [number, pair, UInt64.toNat_ofNat_of_lt' hlow, UInt64.toNat_ofNat_of_lt' hhigh,
    Nat.pow_eq]
  exact Nat.div_add_mod' v _

theorem ncard_number_mem (s : Finset ℕ) (h : ∀ v ∈ s, v < 2 ^ 128) :
    {w | number w ∈ s}.ncard = s.card := by
  rw [← Set.ncard_coe_finset s]
  exact Set.ncard_preimage_of_injective_subset_range number_injective
    fun v hv => exists_number (h v hv)

theorem ncard_pairs : (Set.univ : Set (UInt64 × UInt64)).ncard = 2 ^ 128 := by
  have hall : (Set.univ : Set (UInt64 × UInt64)) = {w | number w ∈ Finset.range (2 ^ 128)} := by
    ext w
    exact ⟨fun _ => Finset.mem_range.mpr (pair_lt _ _), fun _ => trivial⟩
  rw [hall, ncard_number_mem _ fun v hv => Finset.mem_range.mp hv, Finset.card_range]

theorem ncard_result (hrange : 0 < range) (hfits : range < 2 ^ 128) (hn : n < range) :
    {w | accept? range (number w) = some n}.ncard = 2 ^ leadingZeros range := by
  simp only [accept?_eq_some_iff_mem hrange hfits]
  rw [ncard_number_mem _ fun v hv => lt_of_mem_window hrange hfits hn hv, card_window]

/-- The pairs of words that end a draw. -/
def accepted (range : ℕ) : Set (UInt64 × UInt64) :=
  {w | number w * range % 2 ^ 128 ≤ range * 2 ^ leadingZeros range - 1}

theorem mem_accepted_iff {w : UInt64 × UInt64} :
    w ∈ accepted range ↔ ∃ n, accept? range (number w) = some n := by
  simp only [accept?_eq_some_iff, exists_and_left, exists_eq', and_true]
  rfl

theorem ncard_accepted (hrange : 0 < range) (hfits : range < 2 ^ 128) :
    (accepted range).ncard = range * 2 ^ leadingZeros range := by
  have hunion : accepted range =
      {w | number w ∈ (Finset.range range).biUnion (window range)} := by
    ext w
    simp only [mem_accepted_iff, Set.mem_ofPred_eq, Finset.mem_biUnion, Finset.mem_range,
      ← accept?_eq_some_iff_mem hrange hfits]
    constructor
    · rintro ⟨n, hn⟩
      exact ⟨n, accept?_lt hn (pair_lt _ _) hrange, hn⟩
    · rintro ⟨n, -, hn⟩
      exact ⟨n, hn⟩
  have hlt : ∀ v ∈ (Finset.range range).biUnion (window range), v < 2 ^ 128 := by
    intro v hv
    obtain ⟨n, hn, hv⟩ := Finset.mem_biUnion.mp hv
    exact lt_of_mem_window hrange hfits (Finset.mem_range.mp hn) hv
  rw [hunion, ncard_number_mem _ hlt, Finset.card_biUnion (disjoint_windows hrange hfits _)]
  simp only [card_window, Finset.sum_const, Finset.card_range, smul_eq_mul]

end Entropy

theorem Duration.nanos_lt_two_pow (d : Duration) : d.nanos < 2 ^ 128 :=
  Nat.lt_trans d.nanos_lt (by decide)

namespace Policy

open Entropy (number accepted mem_accepted_iff accept?_lt)

variable {p : Policy} {attempt n : ℕ} {base d : Duration} {w : UInt64 × UInt64}

/-- The pairs of words that a delay is drawn with in one round, whatever words follow. -/
def returning (p : Policy) (attempt : ℕ) (d : Duration) : Set (UInt64 × UInt64) :=
  {w | ∀ rest used, p.delay attempt ⟨w.1 :: w.2 :: rest, used⟩ = (d, ⟨rest, used + 2⟩)}

def Roomy (p : Policy) (base : Duration) : Prop :=
  base.nanos / 2 + base.nanos - 1 ≤ min p.maxBackoff.nanos (2 ^ 64 - 1)

theorem spread_eq_iff (hroomy : p.Roomy base) (hn : n < base.nanos) :
    p.spread base n = d ↔ d.nanos = base.nanos / 2 + n := by
  have hnanos : (p.spread base n).nanos = base.nanos / 2 + n := by
    unfold Roomy at hroomy
    rw [spread_nanos]
    omega
  rw [← hnanos]
  exact ⟨fun h => h ▸ rfl, fun h => Duration.nanos_inj h.symm⟩

section Round

variable (hjitter : p.jitter = true) (hbase : (p.baseDelay attempt).nanos ≠ 0)

include hjitter hbase

theorem delay_accepted (h : accept? (p.baseDelay attempt).nanos (number w) = some n)
    (rest : List UInt64) (used : ℕ) : p.delay attempt ⟨w.1 :: w.2 :: rest, used⟩ =
      (p.spread (p.baseDelay attempt) n, ⟨rest, used + 2⟩) :=
  delay_jittered hjitter hbase (Entropy.draw_accepted h rest used)

theorem delay_rejected (h : w ∉ accepted (p.baseDelay attempt).nanos)
    (rest : List UInt64) (used : ℕ) :
    p.delay attempt ⟨w.1 :: w.2 :: rest, used⟩ = p.delay attempt ⟨rest, used + 2⟩ := by
  have hnone : accept? (p.baseDelay attempt).nanos (number w) = none :=
    Option.eq_none_iff_forall_ne_some.mpr fun n hn => h (mem_accepted_iff.mpr ⟨n, hn⟩)
  obtain ⟨round, offset, -, hdraw, -⟩ :=
    Entropy.draw_ends (p.baseDelay attempt).nanos ⟨rest, used + 2⟩
  rw [delay_jittered hjitter hbase hdraw]
  exact delay_jittered hjitter hbase ((Entropy.draw_rejected hnone rest used).trans hdraw)

theorem mem_returning_iff : w ∈ p.returning attempt d ↔
    ∃ n, accept? (p.baseDelay attempt).nanos (number w) = some n ∧
      p.spread (p.baseDelay attempt) n = d := by
  constructor
  · intro hd
    by_cases hw : w ∈ accepted (p.baseDelay attempt).nanos
    · obtain ⟨n, hn⟩ := mem_accepted_iff.mp hw
      have hdelay := hd [] 0
      rw [delay_accepted hjitter hbase hn] at hdelay
      exact ⟨n, hn, congrArg Prod.fst hdelay⟩
    · -- the next round would have taken two more words
      have hlater := hd [] 0
      rw [delay_rejected hjitter hbase hw] at hlater
      exact absurd (congrArg Prod.snd hlater) (jittered_delay hjitter hbase).draws
  · rintro ⟨n, hn, rfl⟩ rest used
    exact delay_accepted hjitter hbase hn rest used

variable (hroomy : p.Roomy (p.baseDelay attempt))

include hroomy

/-- Where no cap binds, a delay stands for one result. -/
theorem mem_returning_iff_nanos : w ∈ p.returning attempt d ↔
    ∃ n, accept? (p.baseDelay attempt).nanos (number w) = some n ∧
      n < (p.baseDelay attempt).nanos ∧ d.nanos = (p.baseDelay attempt).nanos / 2 + n := by
  rw [mem_returning_iff hjitter hbase]
  refine exists_congr fun n => and_congr_right fun hn => ?_
  have hlt := accept?_lt hn (Entropy.pair_lt _ _) (Nat.pos_of_ne_zero hbase)
  rw [spread_eq_iff hroomy hlt, and_iff_right hlt]

theorem mem_returning_iff_number : w ∈ p.returning attempt d ↔
    w ∈ accepted (p.baseDelay attempt).nanos ∧ d.nanos = (p.baseDelay attempt).nanos / 2 +
      number w * (p.baseDelay attempt).nanos / 2 ^ 128 := by
  rw [mem_returning_iff_nanos hjitter hbase hroomy]
  constructor
  · rintro ⟨n, hn, -, hd⟩
    obtain ⟨-, rfl⟩ := Entropy.accept?_eq_some_iff.mp hn
    exact ⟨mem_accepted_iff.mpr ⟨_, hn⟩, hd⟩
  · rintro ⟨hw, hd⟩
    obtain ⟨n, hn⟩ := mem_accepted_iff.mp hw
    have hlt := accept?_lt hn (Entropy.pair_lt _ _) (Nat.pos_of_ne_zero hbase)
    obtain ⟨-, rfl⟩ := Entropy.accept?_eq_some_iff.mp hn
    exact ⟨_, hn, hlt, hd⟩

theorem returning_eq (hn : n < (p.baseDelay attempt).nanos)
    (hd : d.nanos = (p.baseDelay attempt).nanos / 2 + n) :
    p.returning attempt d = {w | accept? (p.baseDelay attempt).nanos (number w) = some n} := by
  ext w
  rw [mem_returning_iff_nanos hjitter hbase hroomy, Set.mem_ofPred_eq]
  constructor
  · rintro ⟨m, hm, -, hnanos⟩
    rw [hm, Nat.add_left_cancel (hnanos.symm.trans hd)]
  · intro haccept
    exact ⟨n, haccept, hn, hd⟩

theorem ncard_returning (hlow : (p.baseDelay attempt).nanos / 2 ≤ d.nanos)
    (hhigh : d.nanos < (p.baseDelay attempt).nanos / 2 + (p.baseDelay attempt).nanos) :
    (p.returning attempt d).ncard = 2 ^ leadingZeros (p.baseDelay attempt).nanos := by
  obtain ⟨n, hd⟩ := Nat.exists_eq_add_of_le hlow
  rw [hd] at hhigh
  have hn := Nat.lt_of_add_lt_add_left hhigh
  rw [returning_eq hjitter hbase hroomy hn hd,
    Entropy.ncard_result (Nat.pos_of_ne_zero hbase) (p.baseDelay attempt).nanos_lt_two_pow hn]

theorem returning_eq_empty (hd : d.nanos < (p.baseDelay attempt).nanos / 2 ∨
    (p.baseDelay attempt).nanos / 2 + (p.baseDelay attempt).nanos ≤ d.nanos) :
    p.returning attempt d = ∅ := by
  refine Set.eq_empty_iff_forall_notMem.mpr fun w hw => ?_
  obtain ⟨n, -, hlt, hnanos⟩ := (mem_returning_iff_nanos hjitter hbase hroomy).mp hw
  omega

theorem returning_odds (hlow : (p.baseDelay attempt).nanos / 2 ≤ d.nanos)
    (hhigh : d.nanos < (p.baseDelay attempt).nanos / 2 + (p.baseDelay attempt).nanos) :
    ((p.returning attempt d).ncard / (accepted (p.baseDelay attempt).nanos).ncard : ℚ) =
      1 / (p.baseDelay attempt).nanos := by
  have hcount : ((2 ^ leadingZeros (p.baseDelay attempt).nanos : ℕ) : ℚ) ≠ 0 :=
    Nat.cast_ne_zero.mpr (Nat.ne_of_gt (Nat.two_pow_pos _))
  rw [ncard_returning hjitter hbase hroomy hlow hhigh,
    Entropy.ncard_accepted (Nat.pos_of_ne_zero hbase) (p.baseDelay attempt).nanos_lt_two_pow,
    Nat.cast_mul, div_mul_cancel_right₀ hcount, one_div]

end Round

/-- What one round of a draw makes of the pairs of words. Given that a pair is accepted, every delay of
the band is as likely as any other, and a pair that is not leaves the draw to the next round. -/
structure SpreadEvenly (p : Policy) (attempt : ℕ) (base : Duration) : Prop where
  shift : 2 ^ 127 ≤ base.nanos * 2 ^ leadingZeros base.nanos ∧
    base.nanos * 2 ^ leadingZeros base.nanos < 2 ^ 128
  rule : ∀ w d, w ∈ p.returning attempt d ↔ w ∈ accepted base.nanos ∧
    d.nanos = base.nanos / 2 + number w * base.nanos / 2 ^ 128
  rejected : ∀ w ∉ accepted base.nanos, ∀ rest used,
    p.delay attempt ⟨w.1 :: w.2 :: rest, used⟩ = p.delay attempt ⟨rest, used + 2⟩
  even : ∀ d : Duration, base.nanos / 2 ≤ d.nanos → d.nanos < base.nanos / 2 + base.nanos →
    (p.returning attempt d).ncard = 2 ^ leadingZeros base.nanos
  outside : ∀ d : Duration, d.nanos < base.nanos / 2 ∨ base.nanos / 2 + base.nanos ≤ d.nanos →
    p.returning attempt d = ∅
  pairs : (Set.univ : Set (UInt64 × UInt64)).ncard = 2 ^ 128
  ends : (accepted base.nanos).ncard = base.nanos * 2 ^ leadingZeros base.nanos
  half : 2 ^ 127 ≤ (accepted base.nanos).ncard
  odds : ∀ d : Duration, base.nanos / 2 ≤ d.nanos → d.nanos < base.nanos / 2 + base.nanos →
    ((p.returning attempt d).ncard / (accepted base.nanos).ncard : ℚ) = 1 / base.nanos

/-- A delay that is drawn below its caps is spread evenly over its band. -/
theorem delay_spread_evenly (p : Policy) (attempt : ℕ) (hjitter : p.jitter = true)
    (hbase : (p.baseDelay attempt).nanos ≠ 0) (hroomy : p.Roomy (p.baseDelay attempt)) :
    p.SpreadEvenly attempt (p.baseDelay attempt) := by
  have hpos := Nat.pos_of_ne_zero hbase
  have hfits := (p.baseDelay attempt).nanos_lt_two_pow
  have hshift := Entropy.shifted_bounds hpos hfits
  have hends := Entropy.ncard_accepted hpos hfits
  constructor
  case shift => exact hshift
  case rule => exact fun w d => mem_returning_iff_number hjitter hbase hroomy
  case rejected => exact fun w hw => delay_rejected hjitter hbase hw
  case even => exact fun d => ncard_returning hjitter hbase hroomy
  case outside => exact fun d => returning_eq_empty hjitter hbase hroomy
  case pairs => exact Entropy.ncard_pairs
  case ends => exact hends
  case half => exact hends ▸ hshift.1
  case odds => exact fun d => returning_odds hjitter hbase hroomy

/-- The first delay of the standard policy is 75 milliseconds for one pair of words in 2^27, and 40
milliseconds for none. -/
theorem delay_spread_evenly_standard :
    (standard.baseDelay 0).nanos = 100000000 ∧ standard.Roomy (standard.baseDelay 0) ∧
    standard.SpreadEvenly 0 (standard.baseDelay 0) ∧
    (standard.returning 0 (.ofMillis 75)).ncard = 2 ^ 101 ∧
    standard.returning 0 (.ofMillis 40) = ∅ := by
  have hbase : (standard.baseDelay 0).nanos = 100000000 := by decide +kernel
  have hroomy : standard.Roomy (standard.baseDelay 0) := by
    unfold Roomy
    rw [hbase]
    decide
  have hspread := delay_spread_evenly standard 0 rfl (by rw [hbase]; decide) hroomy
  have hshift : leadingZeros 100000000 = 101 := by decide +kernel
  have heven := hspread.even (.ofMillis 75)
  have houtside := hspread.outside (.ofMillis 40)
  rw [hbase, hshift] at heven
  rw [hbase] at houtside
  exact ⟨hbase, hroomy, hspread, heven (by decide) (by decide), houtside (by decide)⟩

end Policy
end Liveness

import Liveness.Proofs.Numeric.Decimals
import Liveness.Proofs.Numeric.Rounding
/-!
# Decimals that read back

Every quotient in the interval of a double is rounded to it. Seventeen digits suffice to hit that
interval, and no layout changes the value of what is written, so that every finite double is read back
from its numeral.
-/
namespace Liveness

/-- An integer that a quotient is rounded to: it is half a unit away at the most, and less than that if
it is odd. -/
structure Nearest (num den c : Nat) : Prop where
  low : 2 * (den * c) ≤ 2 * num + den
  high : 2 * num ≤ 2 * (den * c) + den
  tie : c % 2 = 0 ∨ 2 * (den * c) < 2 * num + den ∧ 2 * num < 2 * (den * c) + den

theorem Nearest.roundQuotient_eq {num den c : Nat} (h : Nearest num den c) (hden : 0 < den) :
    roundQuotient num den = c := by
  obtain ⟨hlow, hhigh, htie⟩ := h
  have hsplit := Nat.div_add_mod num den
  have hrest := Nat.mod_lt num hden
  have hcases := roundQuotient_cases num den
  have hnext : den * (num / den + 1) = den * (num / den) + den := Nat.mul_succ ..
  have hbelow : num / den ≤ c := by
    by_contra hlt
    have hle : den * (c + 1) ≤ den * (num / den) := Nat.mul_le_mul_left _ (by omega)
    rw [Nat.mul_succ] at hle
    omega
  have habove : c ≤ num / den + 1 := by
    by_contra hlt
    have hle : den * (num / den + 1 + 1) ≤ den * c := Nat.mul_le_mul_left _ (by omega)
    rw [Nat.mul_succ] at hle
    omega
  rcases Nat.lt_or_eq_of_le hbelow with hlt | heq
  · obtain rfl : c = num / den + 1 := by omega
    omega
  · subst heq
    omega

namespace Binary64

section Rounded

variable {num den m s : Nat}

theorem excess_eq (hden : 0 < den) (hlow : s = 0 ∨ 2 ^ 52 * 2 ^ s * den ≤ num)
    (hhigh : num < 2 ^ 53 * 2 ^ s * den) : excess num den = s := by
  have hlt : num / den < 2 ^ (53 + s) := by
    rw [Nat.div_lt_iff_lt_mul hden, Nat.pow_add]
    exact hhigh
  have hupper : (num / den).log2 < 53 + s ∨ num / den = 0 := by
    by_cases hzero : num / den = 0
    · exact .inr hzero
    · exact .inl ((Nat.log2_lt hzero).mpr hlt)
  unfold excess
  rcases hlow with rfl | hlow
  · rcases hupper with hupper | hzero
    · omega
    · rw [hzero]
      rfl
  · have hge : 2 ^ (52 + s) ≤ num / den := by
      rw [Nat.le_div_iff_mul_le hden, Nat.pow_add]
      exact hlow
    have hne : num / den ≠ 0 := by
      have hpos := Nat.two_pow_pos (52 + s)
      omega
    have hlower : 52 + s ≤ (num / den).log2 := (Nat.le_log2 hne).mpr hge
    omega

/-- What is nearest on its own grid. -/
theorem rounded_eq (hden : 0 < den) (hgrid : s = 0 ∨ 2 ^ 52 * 2 ^ s * den ≤ num)
    (hfits : num < 2 ^ 53 * 2 ^ s * den) (h : Nearest num (den * 2 ^ s) m) :
    rounded num den = m * 2 ^ s := by
  have hpos : 0 < den * 2 ^ s := Nat.mul_pos hden (Nat.two_pow_pos s)
  rw [rounded, excess_eq hden hgrid hfits, h.roundQuotient_eq hpos]

end Rounded

section Fields

variable {e e' : Fin 2047} {f f' : Fin (Nat.pow 2 52)}

/-- How many gaps a double is away from zero, where `2 ^ shift` is the gap to the next double. -/
def mantissa (e : Fin 2047) (f : Fin (Nat.pow 2 52)) : Nat :=
  if e.val = 0 then f.val else 2 ^ 52 + f.val

def shift (e : Fin 2047) : Nat := e.val - 1

theorem magnitude_eq (e : Fin 2047) (f : Fin (Nat.pow 2 52)) :
    magnitude e f = mantissa e f * 2 ^ shift e := by
  obtain ⟨k, hk⟩ := e
  cases k with
  | zero => exact (Nat.mul_one _).symm
  | succ k => exact magnitude_succ hk f

theorem mantissa_lt : mantissa e f < 2 ^ 53 := by
  have hf : f.val < 2 ^ 52 := f.isLt
  unfold mantissa
  split <;> omega

theorem mantissa_normal (f : Fin (Nat.pow 2 52)) : shift e = 0 ∨ 2 ^ 52 ≤ mantissa e f := by
  unfold mantissa shift
  split <;> omega

theorem mantissa_even : mantissa e f % 2 = f.val % 2 := by
  unfold mantissa
  split <;> omega

theorem mantissa_eq_edge (h : 1 < e.val) : mantissa e f = 2 ^ 52 ↔ f.val = 0 := by
  unfold mantissa
  split <;> omega

theorem shift_le (e : Fin 2047) : shift e ≤ 2045 := by
  unfold shift
  omega

theorem magnitude_lt_overflow (e : Fin 2047) (f : Fin (Nat.pow 2 52)) : magnitude e f < overflow := by
  rw [magnitude_eq, overflow]
  have hpow : 2 ^ shift e ≤ 2 ^ 2045 := by
    apply Nat.pow_le_pow_right
    · decide
    · exact shift_le e
  exact Nat.lt_of_lt_of_le (Nat.mul_lt_mul_of_pos_right mantissa_lt (Nat.two_pow_pos _))
    (Nat.mul_le_mul_left _ hpow)

theorem magnitude_lt (h : shift e < shift e') : magnitude e f < magnitude e' f' := by
  have hnormal := (mantissa_normal f').resolve_left (Nat.ne_of_gt (Nat.zero_lt_of_lt h))
  rw [magnitude_eq, magnitude_eq]
  calc mantissa e f * 2 ^ shift e < 2 ^ 53 * 2 ^ shift e :=
        Nat.mul_lt_mul_of_pos_right mantissa_lt (Nat.two_pow_pos _)
    _ = 2 ^ 52 * 2 ^ (shift e + 1) := two_pow_carry _
    _ ≤ mantissa e' f' * 2 ^ shift e' :=
        Nat.mul_le_mul hnormal (Nat.pow_le_pow_right Nat.two_pos h)

theorem magnitude_inj (h : magnitude e f = magnitude e' f') : e = e' ∧ f = f' := by
  have hshift : shift e = shift e' := by
    rcases Nat.lt_trichotomy (shift e) (shift e') with hlt | heq | hgt
    · exact absurd h (Nat.ne_of_lt (magnitude_lt hlt))
    · exact heq
    · exact absurd h (Nat.ne_of_gt (magnitude_lt hgt))
  rw [magnitude_eq, magnitude_eq, hshift] at h
  have hmantissa := Nat.eq_of_mul_eq_mul_right (Nat.two_pow_pos _) h
  have hf : f.val < 2 ^ 52 := f.isLt
  have hf' : f'.val < 2 ^ 52 := f'.isLt
  simp only [mantissa, shift] at hmantissa hshift
  constructor
  · apply Fin.ext
    split at hmantissa <;> split at hmantissa <;> omega
  · apply Fin.ext
    split at hmantissa <;> split at hmantissa <;> omega

theorem Packs.eq_finite {negative : Bool} {x : Binary64} (h : Packs negative (magnitude e f) x) :
    x = .finite negative e f := by
  cases h with
  | finite heq _ =>
    obtain ⟨rfl, rfl⟩ := magnitude_inj heq
    rfl
  | infinite hle => exact absurd (magnitude_lt_overflow e f) (Nat.not_lt.mpr hle)

end Fields

end Binary64

namespace Shortest

open Binary64

structure Interval.Contains (i : Interval) (num den : Nat) : Prop where
  low : i.low * den ≤ 4 * num
  high : 4 * num ≤ i.high * den
  inner : i.closed = false → i.low * den < 4 * num ∧ 4 * num < i.high * den

section Interval

variable {e : Fin 2047} {f : Fin (Nat.pow 2 52)} {num den num' den' : Nat}

theorem Interval.Contains.congr {i : Interval} (h : i.Contains num den) (hden : 0 < den)
    (hden' : 0 < den') (hratio : num * den' = num' * den) : i.Contains num' den' := by
  have hscale : 4 * num * den' = 4 * num' * den := by
    rw [Nat.mul_assoc, hratio, Nat.mul_assoc]
  have hswap : ∀ a, a * den * den' = a * den' * den := fun a => Nat.mul_right_comm ..
  have hlow : ∀ a, a * den ≤ 4 * num ↔ a * den' ≤ 4 * num' := by
    intro a
    calc a * den ≤ 4 * num ↔ a * den * den' ≤ 4 * num * den' :=
          (Nat.mul_le_mul_right_iff hden').symm
      _ ↔ a * den' * den ≤ 4 * num' * den := by rw [hswap, hscale]
      _ ↔ a * den' ≤ 4 * num' := Nat.mul_le_mul_right_iff hden
  have hhigh : ∀ a, 4 * num ≤ a * den ↔ 4 * num' ≤ a * den' := by
    intro a
    calc 4 * num ≤ a * den ↔ 4 * num * den' ≤ a * den * den' :=
          (Nat.mul_le_mul_right_iff hden').symm
      _ ↔ 4 * num' * den ≤ a * den' * den := by rw [hswap, hscale]
      _ ↔ 4 * num' ≤ a * den' := Nat.mul_le_mul_right_iff hden
  refine ⟨(hlow _).mp h.low, (hhigh _).mp h.high, fun hopen => ?_⟩
  obtain ⟨habove, hbelow⟩ := h.inner hopen
  rw [← Nat.not_le] at habove hbelow ⊢
  rw [← Nat.not_le]
  exact ⟨fun hle => habove ((hhigh _).mpr hle), fun hle => hbelow ((hlow _).mpr hle)⟩

def reach (e : Fin 2047) (f : Fin (Nat.pow 2 52)) (gap : Nat) : Nat :=
  if f.val = 0 ∧ 1 < e.val then gap else 2 * gap

theorem reach_le (gap : Nat) : reach e f gap ≤ 2 * gap := by
  unfold reach
  split <;> omega

/-- The ends of the interval, in terms of the gap to the next double. -/
theorem interval_ends (e : Fin 2047) (f : Fin (Nat.pow 2 52)) (den : Nat) :
    (interval e f).low * den =
      4 * (den * 2 ^ shift e * mantissa e f) - reach e f (den * 2 ^ shift e) ∧
    (interval e f).high * den = 4 * (den * 2 ^ shift e * mantissa e f) + 2 * (den * 2 ^ shift e) := by
  have hunits : magnitude e f * den = den * 2 ^ shift e * mantissa e f := by
    rw [magnitude_eq]
    ring
  have hgap : Nat.pow 2 (e.val - 1) * den = den * 2 ^ shift e := Nat.mul_comm _ _
  constructor
  · simp only [interval, reach]
    rw [Nat.sub_mul, Nat.mul_assoc, hunits]
    split
    · rw [hgap]
    · rw [Nat.mul_assoc 2 _ den, hgap]
  · simp only [interval]
    rw [Nat.add_mul, Nat.mul_assoc, Nat.mul_assoc, hunits, hgap]

theorem Interval.Contains.even_or_inner (h : (interval e f).Contains num den) :
    mantissa e f % 2 = 0 ∨
      (interval e f).low * den < 4 * num ∧ 4 * num < (interval e f).high * den := by
  by_cases hclosed : (interval e f).closed = false
  · exact .inr (h.inner hclosed)
  · left
    rw [mantissa_even]
    simpa [interval] using hclosed

/-- Below a power of two the doubles lie twice as close, and the lower part of the interval is rounded
on their grid. -/
theorem rounded_below_edge (hden : 0 < den) (hs : shift e ≠ 0)
    (hlow : 4 * (den * 2 ^ shift e * 2 ^ 52) ≤ 4 * num + den * 2 ^ shift e)
    (hhigh : num < den * 2 ^ shift e * 2 ^ 52) : rounded num den = 2 ^ 52 * 2 ^ shift e := by
  obtain ⟨s, hshift⟩ : ∃ s, shift e = s + 1 := ⟨shift e - 1, by omega⟩
  have hhalf : den * 2 ^ shift e = 2 * (den * 2 ^ s) := by
    rw [hshift]
    ring
  have hlarge : 2 ^ 53 * 2 ^ s * den = den * 2 ^ s * 2 ^ 53 := by ring
  have hsmall : 2 ^ 52 * 2 ^ s * den = den * 2 ^ s * 2 ^ 52 := by ring
  rw [hhalf] at hlow hhigh
  rw [hshift, ← two_pow_carry]
  apply Binary64.rounded_eq hden
  · right
    omega
  · omega
  · exact ⟨by omega, by omega, .inl (by decide)⟩

/-- What is read from the interval of a double is rounded to it. -/
theorem Interval.Contains.rounded_eq (h : (interval e f).Contains num den) (hden : 0 < den) :
    rounded num den = magnitude e f := by
  obtain ⟨hlow, hhigh⟩ := interval_ends e f den
  have hbounds := h.low
  have hbounds' := h.high
  have htie := h.even_or_inner
  have hgap : 0 < den * 2 ^ shift e := Nat.mul_pos hden (Nat.two_pow_pos _)
  have hfits : den * 2 ^ shift e * (mantissa e f + 1) ≤ den * 2 ^ shift e * 2 ^ 53 :=
    Nat.mul_le_mul_left _ mantissa_lt
  have hlarge : 2 ^ 53 * 2 ^ shift e * den = den * 2 ^ shift e * 2 ^ 53 := by ring
  have hsmall : 2 ^ 52 * 2 ^ shift e * den = den * 2 ^ shift e * 2 ^ 52 := by ring
  rw [Nat.mul_succ] at hfits
  rw [hlow] at hbounds htie
  rw [hhigh] at hbounds' htie
  by_cases hnarrow : f.val = 0 ∧ 1 < e.val
  · have hedge := (mantissa_eq_edge hnarrow.2).mpr hnarrow.1
    have hs : shift e ≠ 0 := by
      unfold shift
      omega
    rw [reach, if_pos hnarrow] at hbounds
    rw [magnitude_eq]
    rw [hedge] at hbounds hbounds' ⊢
    by_cases hside : den * 2 ^ shift e * 2 ^ 52 ≤ num
    · apply Binary64.rounded_eq hden
      · right
        omega
      · omega
      · exact ⟨by omega, by omega, .inl (by decide)⟩
    · exact rounded_below_edge hden hs (by omega) (by omega)
  · rw [reach, if_neg hnarrow] at hbounds htie
    rw [magnitude_eq]
    apply Binary64.rounded_eq hden
    · by_cases hs : shift e = 0
      · exact .inl hs
      · have hone : 1 < e.val := by
          unfold shift at hs
          omega
        have hedge := mantissa_eq_edge (f := f) hone
        have hnormal := (mantissa_normal f).resolve_left hs
        have habove : den * 2 ^ shift e * (2 ^ 52 + 1) ≤ den * 2 ^ shift e * mantissa e f := by
          apply Nat.mul_le_mul_left
          omega
        right
        omega
    · omega
    · exact ⟨by omega, by omega, by omega⟩

theorem Interval.Contains.ofUnits_eq (h : (interval e f).Contains num den) (hden : 0 < den)
    (negative : Bool) : ofUnits negative num den = .finite negative e f := by
  have hpacks := packs_ofUnits negative num hden
  rw [h.rounded_eq hden] at hpacks
  exact hpacks.eq_finite

def Interval.HasDecimal (i : Interval) (d : Nat) (g : Int) : Prop :=
  i.Contains (d * tens g * unitsPerOne) (tens (-g))

theorem Interval.holds_iff {i : Interval} {d : Nat} {g : Int} :
    i.holds d g = true ↔ i.HasDecimal d g := by
  have hvalue : d * Nat.pow 10 g.toNat * quartersPerOne = 4 * (d * tens g * unitsPerOne) := by
    simp only [quartersPerOne, tens]
    ring
  have hscale : Nat.pow 10 (-g).toNat = tens (-g) := rfl
  unfold Interval.holds
  simp only [hvalue, hscale]
  split
  case isTrue hclosed =>
    simp only [Bool.and_eq_true, decide_eq_true_eq]
    constructor
    · rintro ⟨hlow, hhigh⟩
      refine ⟨hlow, hhigh, fun hopen => ?_⟩
      rw [hclosed] at hopen
      cases hopen
    · exact fun h => ⟨h.low, h.high⟩
  case isFalse hopen =>
    simp only [Bool.and_eq_true, decide_eq_true_eq]
    constructor
    · rintro ⟨hlow, hhigh⟩
      exact ⟨Nat.le_of_lt hlow, Nat.le_of_lt hhigh, fun _ => ⟨hlow, hhigh⟩⟩
    · exact fun h => h.inner (Bool.of_not_eq_true hopen)

/-- Zeros behind the digits are the same as a larger power of ten. -/
theorem Interval.hasDecimal_mul {i : Interval} {d k : Nat} {g : Int} :
    i.HasDecimal (d * 10 ^ k) g ↔ i.HasDecimal d (g + k) := by
  have hratio : d * 10 ^ k * tens g * unitsPerOne * tens (-(g + k)) =
      d * tens (g + k) * unitsPerOne * tens (-g) := by
    calc d * 10 ^ k * tens g * unitsPerOne * tens (-(g + k))
        = d * unitsPerOne * (10 ^ k * tens g * tens (-(g + k))) := by ring
      _ = d * unitsPerOne * (tens (g + k) * tens (-g)) := by rw [tens_add]
      _ = d * tens (g + k) * unitsPerOne * tens (-g) := by ring
  constructor
  · exact fun h => Interval.Contains.congr h (tens_pos _) (tens_pos _) hratio
  · exact fun h => Interval.Contains.congr h (tens_pos _) (tens_pos _) hratio.symm

end Interval

section Reading

variable {e : Fin 2047} {f : Fin (Nat.pow 2 52)} {c : Nat} {x : Int}

theorem overflow_eq : overflow = 2 ^ 1024 * unitsPerOne := by
  have hexponents : ∀ a b c d, a + b = c + d → 2 ^ a * 2 ^ b = 2 ^ c * Nat.pow 2 d := by
    intro a b c d h
    rw [Nat.pow_eq, ← Nat.pow_add, ← Nat.pow_add, h]
  unfold overflow unitsPerOne
  apply hexponents
  rfl

theorem mantissa_pos (h : 0 < magnitude e f) : 0 < mantissa e f := by
  rw [magnitude_eq] at h
  exact Nat.pos_of_mul_pos_right h

/-- A decimal of a double is 2^1024 at the most. -/
theorem Interval.HasDecimal.le (h : (interval e f).HasDecimal c x) :
    c * tens x ≤ 2 ^ 1024 * tens (-x) := by
  have hends := (interval_ends e f (tens (-x))).2
  have hhigh := h.high
  have hfits : tens (-x) * 2 ^ shift e * (mantissa e f + 1) ≤ tens (-x) * 2 ^ shift e * 2 ^ 53 :=
    Nat.mul_le_mul_left _ mantissa_lt
  have hpow : tens (-x) * 2 ^ shift e * 2 ^ 53 ≤ tens (-x) * overflow := by
    rw [Nat.mul_assoc, overflow, Nat.mul_comm (2 ^ shift e)]
    apply Nat.mul_le_mul_left
    apply Nat.mul_le_mul_left
    apply Nat.pow_le_pow_right
    · decide
    · exact shift_le e
  have hsum : c * tens x * unitsPerOne ≤ tens (-x) * 2 ^ shift e * 2 ^ 53 := by
    rw [hends] at hhigh
    rw [Nat.mul_succ] at hfits
    omega
  apply Nat.le_of_mul_le_mul_right _ unitsPerOne_pos
  calc c * tens x * unitsPerOne ≤ tens (-x) * 2 ^ shift e * 2 ^ 53 := hsum
    _ ≤ tens (-x) * (2 ^ 1024 * unitsPerOne) := by
      rw [← overflow_eq]
      exact hpow
    _ = 2 ^ 1024 * tens (-x) * unitsPerOne := by rw [Nat.mul_left_comm, ← Nat.mul_assoc]

theorem Interval.HasDecimal.pos (h : (interval e f).HasDecimal c x) (hpos : 0 < magnitude e f) :
    tens (-x) ≤ c * tens x * (2 * unitsPerOne) := by
  have hends := (interval_ends e f (tens (-x))).1
  have hlow := h.low
  have hgap : tens (-x) * 1 ≤ tens (-x) * 2 ^ shift e := Nat.mul_le_mul_left _ (Nat.two_pow_pos _)
  have hone : tens (-x) * 2 ^ shift e * 1 ≤ tens (-x) * 2 ^ shift e * mantissa e f :=
    Nat.mul_le_mul_left _ (mantissa_pos hpos)
  have hreach := reach_le (e := e) (f := f) (tens (-x) * 2 ^ shift e)
  rw [hends] at hlow
  have hdouble : c * tens x * (2 * unitsPerOne) = 2 * (c * tens x * unitsPerOne) := by ring
  rw [hdouble]
  omega

/-- Powers of ten that the doubles lie between, far from the ends that are not computed. -/
theorem Interval.HasDecimal.top (h : (interval e f).HasDecimal c x) (hpos : 0 < magnitude e f) :
    c ≠ 0 ∧ -400 ≤ x + (decimalDigits c).length ∧ x + (decimalDigits c).length ≤ 400 := by
  have hlow := h.pos hpos
  have hhigh := h.le
  have hcpos : 0 < c := by
    apply Nat.pos_of_ne_zero
    rintro rfl
    rw [Nat.zero_mul, Nat.zero_mul] at hlow
    exact absurd (tens_pos (-x)) (Nat.not_lt.mpr hlow)
  have hlength := length_pos c
  have hleast : 2 * unitsPerOne ≤ 10 ^ 324 := by decide +kernel
  have hmost : 2 ^ 1024 < 10 ^ 309 := by decide +kernel
  refine ⟨Nat.ne_of_gt hcpos, ?_, ?_⟩
  · have hlt : 10 ^ (-x).toNat < 10 ^ ((decimalDigits c).length + x.toNat + 324) := by
      calc tens (-x) ≤ c * tens x * (2 * unitsPerOne) := hlow
        _ ≤ c * tens x * 10 ^ 324 := Nat.mul_le_mul_left _ hleast
        _ < 10 ^ (decimalDigits c).length * tens x * 10 ^ 324 := by
          apply Nat.mul_lt_mul_of_pos_right
          · exact Nat.mul_lt_mul_of_pos_right (lt_pow_length c) (tens_pos x)
          · apply Nat.pow_pos
            decide
        _ = 10 ^ ((decimalDigits c).length + x.toNat + 324) := by
          rw [Nat.pow_add, Nat.pow_add]
          rfl
    have hexponents := (Nat.pow_lt_pow_iff_right (by decide)).mp hlt
    omega
  · have hlt : 10 ^ ((decimalDigits c).length - 1 + x.toNat) < 10 ^ (309 + (-x).toNat) := by
      calc 10 ^ ((decimalDigits c).length - 1 + x.toNat)
          = 10 ^ ((decimalDigits c).length - 1) * tens x := Nat.pow_add ..
        _ ≤ c * tens x := Nat.mul_le_mul_right _ (pow_length_le hcpos)
        _ ≤ 2 ^ 1024 * tens (-x) := hhigh
        _ < 10 ^ 309 * tens (-x) := Nat.mul_lt_mul_of_pos_right hmost (tens_pos _)
        _ = 10 ^ (309 + (-x).toNat) := by
          rw [Nat.pow_add]
          rfl
    have hexponents := (Nat.pow_lt_pow_iff_right (by decide)).mp hlt
    omega

/-- A decimal in the interval of a double is read as that double. -/
theorem Interval.HasDecimal.toBinary64_eq (h : (interval e f).HasDecimal c x)
    (hpos : 0 < magnitude e f) (negative : Bool) :
    Decimal.toBinary64 ⟨negative, c, x⟩ = .finite negative e f := by
  obtain ⟨hne, hlow, hhigh⟩ := h.top hpos
  have hguard : ¬((decide (c = 0) || decide (x + (decimalDigits c).length < -Decimal.farExponent)) =
      true) := by
    rw [Bool.or_eq_true, decide_eq_true_eq, decide_eq_true_eq, Decimal.farExponent]
    omega
  have hguard' : ¬ Decimal.farExponent < x + (decimalDigits c).length := Int.not_lt.mpr hhigh
  unfold Decimal.toBinary64
  simp only [if_neg hguard, if_neg hguard']
  exact Interval.Contains.ofUnits_eq h (tens_pos _) negative

end Reading

section Search

variable {tie : Tie} {i : Interval} {units : Nat} {g : Int} {d : Nat}

theorem hasDecimal_of_onGrid? (h : onGrid? tie i units g = some d) : i.HasDecimal d g := by
  rw [← Interval.holds_iff]
  unfold onGrid? at h
  simp only at h
  generalize units * Nat.pow 10 (-g).toNat / (Nat.pow 10 g.toNat * unitsPerOne) = below at h
  split at h
  case h_1 => cases h
  case h_2 hbelow _ =>
    obtain rfl := Option.some.inj h
    exact hbelow
  case h_3 _ habove =>
    obtain rfl := Option.some.inj h
    exact habove
  case h_4 hbelow habove =>
    split at h
    · obtain rfl := Option.some.inj h
      exact hbelow
    · split at h
      · obtain rfl := Option.some.inj h
        exact habove
      · cases tie with
        | up =>
          obtain rfl := Option.some.inj h
          exact habove
        | toEven =>
          obtain rfl := Option.some.inj h
          rcases Nat.mod_two_eq_zero_or_one below with heven | hodd
          · rw [heven, Nat.add_zero]
            exact hbelow
          · rw [hodd]
            exact habove

theorem exists_onGrid? (tie : Tie)
    (h : i.HasDecimal (units * tens (-g) / (tens g * unitsPerOne)) g ∨
      i.HasDecimal (units * tens (-g) / (tens g * unitsPerOne) + 1) g) :
    ∃ d, onGrid? tie i units g = some d := by
  rw [← Interval.holds_iff, ← Interval.holds_iff] at h
  unfold onGrid?
  simp only
  split
  case h_1 hbelow habove =>
    rcases h with h | h
    · exact absurd h (Bool.eq_false_iff.mp hbelow)
    · exact absurd h (Bool.eq_false_iff.mp habove)
  case h_2 => exact ⟨_, rfl⟩
  case h_3 => exact ⟨_, rfl⟩
  case h_4 =>
    split
    · exact ⟨_, rfl⟩
    · split
      · exact ⟨_, rfl⟩
      · cases tie <;> exact ⟨_, rfl⟩

theorem search_hasDecimal {top : Int} {digits tries : Nat}
    (h : ∃ d, onGrid? tie i units (top - (digits + tries : Nat) + 1) = some d) :
    i.HasDecimal (search tie i units top digits (tries + 1)).1
      (search tie i units top digits (tries + 1)).2 := by
  induction tries generalizing digits with
  | zero =>
    obtain ⟨d, hd⟩ := h
    rw [Nat.add_zero] at hd
    rw [search, hd]
    exact hasDecimal_of_onGrid? hd
  | succ tries ih =>
    rw [search]
    split
    case h_1 d hd => exact hasDecimal_of_onGrid? hd
    case h_2 =>
      apply ih
      rwa [Nat.add_right_comm, Nat.add_assoc]

end Search

section Digits

variable {e : Fin 2047} {f : Fin (Nat.pow 2 52)} {num den : Nat} {g : Int}

theorem contains_of_near (hpos : 0 < magnitude e f)
    (hlow : 4 * (den * 2 ^ shift e * mantissa e f) < 4 * num + reach e f (den * 2 ^ shift e))
    (hhigh : 4 * num < 4 * (den * 2 ^ shift e * mantissa e f) + 2 * (den * 2 ^ shift e)) :
    (interval e f).Contains num den := by
  obtain ⟨hends, hends'⟩ := interval_ends e f den
  have hreach := reach_le (e := e) (f := f) (den * 2 ^ shift e)
  have hone : den * 2 ^ shift e * 1 ≤ den * 2 ^ shift e * mantissa e f :=
    Nat.mul_le_mul_left _ (mantissa_pos hpos)
  have hinner : (interval e f).low * den < 4 * num := by
    rw [hends]
    omega
  have hinner' : 4 * num < (interval e f).high * den := by
    rw [hends']
    exact hhigh
  exact ⟨Nat.le_of_lt hinner, Nat.le_of_lt hinner', fun _ => ⟨hinner, hinner'⟩⟩

/-- Two neighbours on a grid of one part in 10^16 of the double do not both miss its interval. -/
theorem seventeen_digits (hpos : 0 < magnitude e f)
    (hfine : 10 ^ 16 * (tens g * unitsPerOne) ≤ magnitude e f * tens (-g)) :
    (interval e f).HasDecimal (magnitude e f * tens (-g) / (tens g * unitsPerOne)) g ∨
      (interval e f).HasDecimal (magnitude e f * tens (-g) / (tens g * unitsPerOne) + 1) g := by
  have hgrid : 0 < tens g * unitsPerOne := Nat.mul_pos (tens_pos g) unitsPerOne_pos
  have hgap : 0 < tens (-g) * 2 ^ shift e := Nat.mul_pos (tens_pos _) (Nat.two_pow_pos _)
  have hunits : magnitude e f * tens (-g) = tens (-g) * 2 ^ shift e * mantissa e f := by
    rw [magnitude_eq]
    ring
  have hwide : 4 * (tens g * unitsPerOne) <
      reach e f (tens (-g) * 2 ^ shift e) + 2 * (tens (-g) * 2 ^ shift e) := by
    rw [hunits] at hfine
    unfold reach
    split
    case isTrue hnarrow =>
      have hedge := (mantissa_eq_edge hnarrow.2).mpr hnarrow.1
      rw [hedge] at hfine
      omega
    case isFalse =>
      have hfits : tens (-g) * 2 ^ shift e * mantissa e f ≤ tens (-g) * 2 ^ shift e * 2 ^ 53 :=
        Nat.mul_le_mul_left _ (Nat.le_of_lt mantissa_lt)
      omega
  have hsplit := Nat.div_add_mod (magnitude e f * tens (-g)) (tens g * unitsPerOne)
  have hrest := Nat.mod_lt (magnitude e f * tens (-g)) hgrid
  generalize magnitude e f * tens (-g) / (tens g * unitsPerOne) = below at hsplit ⊢
  have hbelow : below * tens g * unitsPerOne = tens g * unitsPerOne * below := by ring
  have habove : (below + 1) * tens g * unitsPerOne =
      tens g * unitsPerOne * below + tens g * unitsPerOne := by ring
  rw [hunits] at hsplit hrest
  by_cases hnear : 4 * (tens (-g) * 2 ^ shift e * mantissa e f) <
      4 * (tens g * unitsPerOne * below) + reach e f (tens (-g) * 2 ^ shift e)
  · left
    apply contains_of_near hpos
    · rw [hbelow]
      exact hnear
    · rw [hbelow]
      omega
  · right
    apply contains_of_near hpos
    · rw [habove]
      omega
    · rw [habove]
      omega

theorem tens_sub_fine {top : Int} (hg : g + 16 = top)
    (htop : tens top * unitsPerOne ≤ magnitude e f * tens (-top)) :
    10 ^ 16 * (tens g * unitsPerOne) ≤ magnitude e f * tens (-g) := by
  have hshift := tens_add g 16
  have hcast : g + (16 : Nat) = top := hg
  rw [hcast] at hshift
  apply Nat.le_of_mul_le_mul_right _ (tens_pos (-top))
  calc 10 ^ 16 * (tens g * unitsPerOne) * tens (-top)
      = 10 ^ 16 * tens g * tens (-top) * unitsPerOne := by ring
    _ = tens top * unitsPerOne * tens (-g) := by
      rw [← hshift]
      ring
    _ ≤ magnitude e f * tens (-top) * tens (-g) := Nat.mul_le_mul_right _ htop
    _ = magnitude e f * tens (-g) * tens (-top) := by ring

theorem Interval.HasDecimal.dropZeros {i : Interval} {d : Nat} {x : Int} (h : i.HasDecimal d x)
    (fuel : Nat) : i.HasDecimal (dropZeros d x fuel).1 (dropZeros d x fuel).2 := by
  obtain ⟨k, hd, hx⟩ := dropZeros_eq d x fuel
  rw [hd] at h
  rw [hx]
  exact Interval.hasDecimal_mul.mp h

theorem decimal_hasDecimal (tie : Tie) (hpos : 0 < magnitude e f) :
    (interval e f).HasDecimal (decimal tie e f).1 (decimal tie e f).2 := by
  have htop := tens_magnitudeOfTen_le hpos unitsPerOne_pos
  simp only [decimal]
  generalize magnitudeOfTen (magnitude e f) unitsPerOne = top at htop ⊢
  apply Interval.HasDecimal.dropZeros
  apply search_hasDecimal
  have hgrid : top - (1 + 16 : Nat) + 1 = top - 16 := by omega
  rw [hgrid]
  exact exists_onGrid? tie (seventeen_digits hpos (tens_sub_fine (Int.sub_add_cancel _ 16) htop))

end Digits

end Shortest

section Layout

open Shortest

theorem Numeral.coefficient_toDecimal (n : Numeral) : n.toDecimal.coefficient =
    n.whole * 10 ^ n.fraction.length + ofDecimalDigits n.fraction := by
  rw [toDecimal, ofDecimalDigits_append, ofDecimalDigits_decimalDigits]

def Shortest.Interval.HasNumeral (i : Interval) (n : Numeral) : Prop :=
  i.HasDecimal n.toDecimal.coefficient n.toDecimal.exponent

namespace FloatLayout

variable {i : Interval} {c : Nat} {x : Int}

theorem hasNumeral_of_whole {k : Nat} {fraction : List (Fin 10)} (negative : Bool)
    (h : i.HasDecimal c k) (hzero : ofDecimalDigits fraction = 0) :
    i.HasNumeral ⟨negative, c * 10 ^ k, fraction, none⟩ := by
  rw [Interval.HasNumeral, Numeral.coefficient_toDecimal]
  simp only [Numeral.toDecimal, Option.getD_none, hzero, Nat.add_zero]
  rw [Interval.hasDecimal_mul, Int.sub_add_cancel, Interval.hasDecimal_mul, Int.zero_add]
  exact h

theorem positional_whole {k : Nat} (l : FloatLayout) (negative : Bool) (h : i.HasDecimal c k) :
    i.HasNumeral (l.positional negative (decimalDigits c) (k + (decimalDigits c).length)) := by
  have hpoint : ((k : Int) + (decimalDigits c).length).toNat = k + (decimalDigits c).length := by
    omega
  have hbefore : (-((k : Int) + (decimalDigits c).length)).toNat = 0 := by omega
  have hlength : (decimalDigits c ++ List.replicate k 0).length ≤ k + (decimalDigits c).length := by
    rw [List.length_append, List.length_replicate, Nat.add_comm]
  have hwhole : ofDecimalDigits (decimalDigits c ++ List.replicate k 0) = c * 10 ^ k := by
    rw [ofDecimalDigits_append, ofDecimalDigits_decimalDigits, ofDecimalDigits_zeros,
      List.length_replicate, Nat.add_zero]
  unfold positional
  simp only [hpoint, hbefore, Nat.add_sub_cancel, List.take_of_length_le hlength,
    List.drop_of_length_le hlength, hwhole, List.replicate_zero, List.nil_append]
  apply hasNumeral_of_whole negative h
  split <;> rfl

/-- The point stands among the digits or before them. -/
theorem positional_fraction (l : FloatLayout) (negative : Bool) (h : i.HasDecimal c x) (hx : x < 0) :
    i.HasNumeral (l.positional negative (decimalDigits c) (x + (decimalDigits c).length)) := by
  have hlength := length_pos c
  have hpad : (x + (decimalDigits c).length).toNat - (decimalDigits c).length = 0 := by omega
  unfold positional
  simp only [hpad, List.replicate_zero, List.append_nil]
  generalize hbefore : (-(x + (decimalDigits c).length)).toNat = before
  generalize hpoint : (x + (decimalDigits c).length).toNat = point
  have hrest : (decimalDigits c).drop point ≠ [] := by
    rw [Ne, List.drop_eq_nil_iff]
    omega
  have hempty : (List.replicate before 0 ++ (decimalDigits c).drop point).isEmpty = false := by
    rw [List.isEmpty_eq_false_iff]
    exact List.append_ne_nil_of_right_ne_nil _ hrest
  have hvalue : ofDecimalDigits ((decimalDigits c).take point) *
      10 ^ (List.replicate before 0 ++ (decimalDigits c).drop point).length +
      ofDecimalDigits (List.replicate before 0 ++ (decimalDigits c).drop point) = c := by
    have hside : before = 0 ∨ point = 0 := by omega
    rcases hside with rfl | rfl
    · rw [List.replicate_zero, List.nil_append, ← ofDecimalDigits_append, List.take_append_drop,
        ofDecimalDigits_decimalDigits]
    · rw [List.take_zero, List.drop_zero, ofDecimalDigits_append, ofDecimalDigits_zeros,
        ofDecimalDigits_decimalDigits, Nat.zero_mul, Nat.zero_add]
      exact (congrArg (· + c) (Nat.zero_mul _)).trans (Nat.zero_add c)
  simp only [hempty, Bool.false_and, Bool.false_eq_true, if_false]
  rw [Interval.HasNumeral, Numeral.coefficient_toDecimal]
  simp only [Numeral.toDecimal, Option.getD_none]
  rw [hvalue, List.length_append, List.length_replicate, List.length_drop]
  have hexponent : (0 : Int) - (before + ((decimalDigits c).length - point) : Nat) = x := by omega
  rw [hexponent]
  exact h

theorem scientific_hasNumeral (negative : Bool) (h : i.HasDecimal c x) :
    i.HasNumeral (scientific negative (decimalDigits c) (x + (decimalDigits c).length)) := by
  have hlength := length_pos c
  have hcoefficient : (scientific negative (decimalDigits c)
      (x + (decimalDigits c).length)).toDecimal.coefficient = c := by
    rw [Numeral.coefficient_toDecimal]
    simp only [scientific]
    rw [← ofDecimalDigits_append, List.take_append_drop, ofDecimalDigits_decimalDigits]
  have hexponent : (scientific negative (decimalDigits c)
      (x + (decimalDigits c).length)).toDecimal.exponent = x := by
    simp only [scientific, Numeral.toDecimal, Option.getD_some, List.length_drop]
    omega
  rw [Interval.HasNumeral, hcoefficient, hexponent]
  exact h

theorem positional_hasNumeral (l : FloatLayout) (negative : Bool) (h : i.HasDecimal c x) :
    i.HasNumeral (l.positional negative (decimalDigits c) (x + (decimalDigits c).length)) := by
  rcases Int.lt_or_le x 0 with hx | hx
  · exact positional_fraction l negative h hx
  · obtain ⟨k, rfl⟩ := Int.eq_ofNat_of_zero_le hx
    exact positional_whole l negative h

/-- The zeros have a numeral of their own. -/
theorem positional_zero (l : FloatLayout) (negative : Bool) :
    (l.positional negative [0] 1).toBinary64 = .signedZero negative := by
  have hcoefficient : (l.positional negative [0] 1).toDecimal.coefficient = 0 := by
    rw [Numeral.coefficient_toDecimal, positional]
    cases l.pointAlways <;> rfl
  rw [Numeral.toBinary64, Decimal.toBinary64]
  simp only [hcoefficient, decide_true, Bool.true_or, if_true]
  rfl

/-- However a double is laid out, its numeral is read as that double. -/
theorem numeral?_reads_back (l : FloatLayout) {x : Binary64} (hfinite : x.isFinite = true) :
    ∃ n, l.numeral? x = some n ∧ n.toBinary64 = x := by
  cases x with
  | nan => cases hfinite
  | infinite => cases hfinite
  | finite negative e f =>
    by_cases hzero : Binary64.magnitude e f = 0
    · obtain ⟨rfl, rfl⟩ : e = 0 ∧ f = 0 := Binary64.magnitude_inj hzero
      exact ⟨_, rfl, positional_zero l negative⟩
    · have hpos : 0 < Binary64.magnitude e f := Nat.pos_of_ne_zero hzero
      have hread : ∀ n : Numeral, n.negative = negative → (interval e f).HasNumeral n →
          n.toBinary64 = .finite negative e f := by
        intro n hnegative h
        rw [← hnegative]
        exact Interval.HasDecimal.toBinary64_eq h hpos n.negative
      have hdecimal := decimal_hasDecimal l.tie hpos
      simp only [numeral?, if_neg hzero]
      refine ⟨_, rfl, ?_⟩
      split
      · exact hread _ rfl (positional_hasNumeral l negative hdecimal)
      · exact hread _ rfl (scientific_hasNumeral negative hdecimal)

end FloatLayout

end Layout

end Liveness

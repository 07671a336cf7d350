import Liveness.Numeric.Binary64
import Mathlib.Data.Nat.Log
import Mathlib.Tactic.Positivity
import Mathlib.Tactic.Ring
/-!
# Rounding to doubles

Doubles that are not negative are compared with numbers of units. Rounding keeps the order and does not
pass a number that is a double itself, whatever is rounded: a quotient, a product, a number of any size.
-/
namespace Liveness

section Quotient

variable {num num' den c : Nat}

theorem roundQuotient_cases (num den : Nat) :
    2 * (num % den) < den ∧ roundQuotient num den = num / den ∨
    den < 2 * (num % den) ∧ roundQuotient num den = num / den + 1 ∨
    2 * (num % den) = den ∧ roundQuotient num den = num / den + num / den % 2 := by
  unfold roundQuotient
  simp only
  split
  · exact .inl ⟨‹_›, rfl⟩
  · split
    · exact .inr (.inl ⟨‹_›, rfl⟩)
    · exact .inr (.inr ⟨by omega, rfl⟩)

theorem le_roundQuotient (hden : 0 < den) (h : c * den ≤ num) : c ≤ roundQuotient num den := by
  have hc : c ≤ num / den := (Nat.le_div_iff_mul_le hden).mpr h
  have hcases := roundQuotient_cases num den
  omega

theorem roundQuotient_le (hden : 0 < den) (h : num ≤ c * den) : roundQuotient num den ≤ c := by
  have hcases := roundQuotient_cases num den
  rcases Nat.lt_or_eq_of_le h with hlt | rfl
  · have hc : num / den < c := (Nat.div_lt_iff_lt_mul hden).mpr hlt
    omega
  · rw [Nat.mul_mod_left, Nat.mul_div_cancel c hden] at hcases
    omega

theorem roundQuotient_mono (h : num ≤ num') : roundQuotient num den ≤ roundQuotient num' den := by
  have hquotient : num / den ≤ num' / den := Nat.div_le_div_right h
  have hsplit := Nat.div_add_mod num den
  have hsplit' := Nat.div_add_mod num' den
  have hcases := roundQuotient_cases num den
  have hcases' := roundQuotient_cases num' den
  rcases Nat.lt_or_eq_of_le hquotient with hlt | heq
  · omega
  · rw [heq] at hsplit hcases
    omega

theorem roundQuotient_near (num : Nat) (hden : 0 < den) :
    2 * num ≤ 2 * (den * roundQuotient num den) + den ∧
      2 * (den * roundQuotient num den) ≤ 2 * num + den := by
  have hsplit := Nat.div_add_mod num den
  have hnext : den * (num / den + 1) = den * (num / den) + den := Nat.mul_succ ..
  rcases roundQuotient_cases num den with ⟨hrest, heq⟩ | ⟨hrest, heq⟩ | ⟨hrest, heq⟩
  · rw [heq]
    omega
  · rw [heq, hnext]
    have hlt := Nat.mod_lt num hden
    omega
  · rw [heq]
    rcases Nat.mod_two_eq_zero_or_one (num / den) with heven | hodd
    · rw [heven, Nat.add_zero]
      omega
    · rw [hodd, hnext]
      omega

end Quotient

namespace Binary64

def excess (num den : Nat) : Nat := (num / den).log2 - 52

/-- The number of units that a quotient is rounded to, as if there were no largest double. -/
def rounded (num den : Nat) : Nat :=
  roundQuotient num (den * 2 ^ excess num den) * 2 ^ excess num den

def overflow : Nat := 2 ^ 53 * 2 ^ 2045

/-- Every double has such a number of units, and every such number below the overflow is a double. -/
def Representable (units : Nat) : Prop := ∃ m k, units = m * 2 ^ k ∧ m ≤ 2 ^ 53

section Rounded

variable {num num' den g : Nat}

theorem le_of_excess (hden : 0 < den) (h : excess num den ≠ 0) :
    2 ^ 52 * 2 ^ excess num den * den ≤ num := by
  unfold excess at h ⊢
  have hlog : (num / den).log2 = 52 + ((num / den).log2 - 52) := by omega
  have hne : num / den ≠ 0 := by
    intro hzero
    rw [hzero] at h
    exact h rfl
  rw [← Nat.le_div_iff_mul_le hden, ← Nat.pow_add, ← hlog]
  exact Nat.log2_self_le hne

theorem lt_of_excess (num : Nat) (hden : 0 < den) : num < 2 ^ 53 * 2 ^ excess num den * den := by
  unfold excess
  rw [← Nat.div_lt_iff_lt_mul hden, ← Nat.pow_add]
  refine Nat.lt_of_lt_of_le Nat.lt_log2_self (Nat.pow_le_pow_right (by decide) ?_)
  omega

theorem excess_mono (h : num ≤ num') : excess num den ≤ excess num' den := by
  have hlog : (num / den).log2 ≤ (num' / den).log2 := by
    rw [Nat.log2_eq_log_two, Nat.log2_eq_log_two]
    exact Nat.log_mono_right (Nat.div_le_div_right h)
  unfold excess
  omega

theorem rounded_mantissa (num : Nat) (hden : 0 < den) :
    roundQuotient num (den * 2 ^ excess num den) ≤ 2 ^ 53 ∧
      (excess num den = 0 ∨ 2 ^ 52 ≤ roundQuotient num (den * 2 ^ excess num den)) := by
  have hpos : 0 < den * 2 ^ excess num den := Nat.mul_pos hden (Nat.two_pow_pos _)
  constructor
  · apply roundQuotient_le hpos
    have hlt := lt_of_excess num hden
    rw [Nat.mul_assoc, Nat.mul_comm _ den] at hlt
    exact Nat.le_of_lt hlt
  · by_cases h : excess num den = 0
    · exact .inl h
    · refine .inr (le_roundQuotient hpos ?_)
      have hle := le_of_excess hden h
      rwa [Nat.mul_assoc, Nat.mul_comm _ den] at hle

/-- A finer grid than that of the doubles around the quotient ends where their grid begins. -/
theorem le_of_finer {m k : Nat} (hm : m ≤ 2 ^ 53) (hk : k < excess num den) :
    m * 2 ^ k ≤ 2 ^ 52 * 2 ^ excess num den := by
  calc m * 2 ^ k ≤ 2 ^ 53 * 2 ^ k := Nat.mul_le_mul_right _ hm
    _ = 2 ^ 52 * 2 ^ (k + 1) := by ring
    _ ≤ 2 ^ 52 * 2 ^ excess num den :=
      Nat.mul_le_mul_left _ (Nat.pow_le_pow_right (by decide) hk)

/-- On a grid that is not finer, a bound is a bound on the mantissa. -/
theorem coarser_mul {m k : Nat} (hk : excess num den ≤ k) :
    m * 2 ^ k = m * 2 ^ (k - excess num den) * 2 ^ excess num den := by
  rw [Nat.mul_assoc, ← Nat.pow_add, Nat.sub_add_cancel hk]

theorem le_rounded (hden : 0 < den) (hg : Representable g) (h : g * den ≤ num) :
    g ≤ rounded num den := by
  obtain ⟨m, k, rfl, hm⟩ := hg
  have hpos : 0 < den * 2 ^ excess num den := Nat.mul_pos hden (Nat.two_pow_pos _)
  rcases Nat.lt_or_ge k (excess num den) with hk | hk
  · have hnormal := (rounded_mantissa num hden).2.resolve_left (by omega)
    exact Nat.le_trans (le_of_finer hm hk) (Nat.mul_le_mul_right _ hnormal)
  · rw [coarser_mul hk]
    apply Nat.mul_le_mul_right
    apply le_roundQuotient hpos
    rw [coarser_mul hk] at h
    calc m * 2 ^ (k - excess num den) * (den * 2 ^ excess num den)
        = m * 2 ^ (k - excess num den) * 2 ^ excess num den * den := by ring
      _ ≤ num := h

theorem rounded_le (hden : 0 < den) (hg : Representable g) (h : num ≤ g * den) :
    rounded num den ≤ g := by
  obtain ⟨m, k, rfl, hm⟩ := hg
  have hpos : 0 < den * 2 ^ excess num den := Nat.mul_pos hden (Nat.two_pow_pos _)
  rcases Nat.lt_or_ge k (excess num den) with hk | hk
  · -- the bound lies on the edge between the two grids
    have hlow := le_of_excess hden (Nat.ne_of_gt (Nat.lt_of_le_of_lt (Nat.zero_le k) hk))
    have hfine := le_of_finer hm hk
    have hedge : 2 ^ 52 * 2 ^ excess num den ≤ m * 2 ^ k :=
      Nat.le_of_mul_le_mul_right (Nat.le_trans hlow h) hden
    refine Nat.le_trans (Nat.mul_le_mul_right _ (roundQuotient_le (c := 2 ^ 52) hpos ?_)) hedge
    calc num ≤ m * 2 ^ k * den := h
      _ ≤ 2 ^ 52 * 2 ^ excess num den * den := Nat.mul_le_mul_right _ hfine
      _ = 2 ^ 52 * (den * 2 ^ excess num den) := by ring
  · rw [coarser_mul hk]
    apply Nat.mul_le_mul_right
    apply roundQuotient_le hpos
    rw [coarser_mul hk] at h
    calc num ≤ m * 2 ^ (k - excess num den) * 2 ^ excess num den * den := h
      _ = m * 2 ^ (k - excess num den) * (den * 2 ^ excess num den) := by ring

theorem rounded_mono (hden : 0 < den) (h : num ≤ num') : rounded num den ≤ rounded num' den := by
  have hexcess : excess num den ≤ excess num' den := excess_mono h
  rcases Nat.lt_or_eq_of_le hexcess with hlt | heq
  · -- the grid becomes coarser at a double between the two
    have hedge : Representable (2 ^ 52 * 2 ^ excess num' den) := ⟨_, _, rfl, by decide⟩
    have hbelow : 2 ^ 53 * 2 ^ excess num den ≤ 2 ^ 52 * 2 ^ excess num' den :=
      le_of_finer (Nat.le_refl _) hlt
    have hhigh : rounded num den ≤ 2 ^ 52 * 2 ^ excess num' den := by
      apply rounded_le hden hedge
      exact Nat.le_trans (Nat.le_of_lt (lt_of_excess num hden)) (Nat.mul_le_mul_right _ hbelow)
    have hlow : 2 ^ 52 * 2 ^ excess num' den ≤ rounded num' den :=
      le_rounded hden hedge (le_of_excess hden (by omega))
    exact Nat.le_trans hhigh hlow
  · unfold rounded
    rw [heq]
    exact Nat.mul_le_mul_right _ (roundQuotient_mono h)

end Rounded

inductive AtLeast (n : Nat) : Binary64 → Prop where
  | finite {e f} : n ≤ magnitude e f → AtLeast n (.finite false e f)
  | infinite : AtLeast n (.infinite false)

inductive AtMost (n : Nat) : Binary64 → Prop where
  | finite {e f} : magnitude e f ≤ n → AtMost n (.finite false e f)

theorem AtLeast.mono {a b : Nat} {x : Binary64} (h : x.AtLeast a) (hle : b ≤ a) : x.AtLeast b := by
  cases h with
  | finite hx => exact .finite (Nat.le_trans hle hx)
  | infinite => exact .infinite

theorem magnitude_zero (f : Fin (Nat.pow 2 52)) : magnitude 0 f = f.val := rfl

theorem magnitude_succ {k : Nat} (h : k + 1 < 2047) (f : Fin (Nat.pow 2 52)) :
    magnitude ⟨k + 1, h⟩ f = (2 ^ 52 + f.val) * 2 ^ k := rfl

theorem two_pow_carry (s : Nat) : 2 ^ 53 * 2 ^ s = 2 ^ 52 * 2 ^ (s + 1) := by ring

section Mantissa

variable {m s : Nat} (negative : Bool)

theorem ofMantissa_subnormal (hm : m < 2 ^ 52) (s : Nat) :
    ofMantissa negative m s = .finite negative 0 ⟨m, hm⟩ := by
  have hne : m ≠ Nat.pow 2 53 := by
    simp only [Nat.pow_eq]
    omega
  have hlt : m < Nat.pow 2 52 := hm
  unfold ofMantissa
  simp only [if_neg hne, if_pos hlt, Nat.mod_eq_of_lt hlt]

theorem ofMantissa_normal (hm : 2 ^ 52 ≤ m) (hm' : m < 2 ^ 53) (hs : s + 1 < 2047) :
    ofMantissa negative m s =
      .finite negative ⟨s + 1, hs⟩ ⟨m - 2 ^ 52, by simp only [Nat.pow_eq]; omega⟩ := by
  have hne : m ≠ Nat.pow 2 53 := Nat.ne_of_lt hm'
  have hge : ¬ m < Nat.pow 2 52 := Nat.not_lt.mpr hm
  have hmod : (m - Nat.pow 2 52) % Nat.pow 2 52 = m - Nat.pow 2 52 := by
    simp only [Nat.pow_eq]
    omega
  unfold ofMantissa
  simp only [if_neg hne, if_neg hge, dif_pos hs, hmod]
  rfl

theorem ofMantissa_infinite (hm : 2 ^ 52 ≤ m) (hm' : m < 2 ^ 53) (hs : ¬ s + 1 < 2047) :
    ofMantissa negative m s = .infinite negative := by
  have hne : m ≠ Nat.pow 2 53 := Nat.ne_of_lt hm'
  have hge : ¬ m < Nat.pow 2 52 := Nat.not_lt.mpr hm
  unfold ofMantissa
  simp only [if_neg hne, if_neg hge, dif_neg hs]

theorem ofMantissa_carry (s : Nat) :
    ofMantissa negative (2 ^ 53) s = ofMantissa negative (2 ^ 52) (s + 1) := by
  unfold ofMantissa
  rfl

/-- A double of so many units, unless they are too many for one. -/
inductive Packs (units : Nat) : Binary64 → Prop where
  | finite {e f} : magnitude e f = units → units < overflow → Packs units (.finite negative e f)
  | infinite : overflow ≤ units → Packs units (.infinite negative)

theorem packs_normal (hm : 2 ^ 52 ≤ m) (hm' : m < 2 ^ 53) :
    Packs negative (m * 2 ^ s) (ofMantissa negative m s) := by
  by_cases hs : s + 1 < 2047
  · rw [ofMantissa_normal negative hm hm' hs]
    constructor
    · rw [magnitude_succ]
      simp only
      rw [Nat.add_sub_cancel' hm]
    · have hexponent : 2 ^ s ≤ 2 ^ 2045 := by
        apply Nat.pow_le_pow_right
        · decide
        · omega
      calc m * 2 ^ s < 2 ^ 53 * 2 ^ s := Nat.mul_lt_mul_of_pos_right hm' (Nat.two_pow_pos s)
        _ ≤ 2 ^ 53 * 2 ^ 2045 := Nat.mul_le_mul_left _ hexponent
  · rw [ofMantissa_infinite negative hm hm' hs]
    constructor
    have hexponent : 2 ^ (2045 + 1) ≤ 2 ^ s := by
      apply Nat.pow_le_pow_right
      · decide
      · omega
    rw [overflow, two_pow_carry]
    exact Nat.mul_le_mul hm hexponent

theorem packs_mantissa (hm : m ≤ 2 ^ 53) (hs : s = 0 ∨ 2 ^ 52 ≤ m) :
    Packs negative (m * 2 ^ s) (ofMantissa negative m s) := by
  rcases Nat.lt_or_ge m (2 ^ 52) with hlt | hge
  · obtain rfl : s = 0 := by omega
    rw [ofMantissa_subnormal negative hlt, Nat.pow_zero, Nat.mul_one]
    refine .finite (magnitude_zero _) ?_
    have hsmall : m < 2 ^ 53 := Nat.lt_trans hlt (by decide)
    exact Nat.lt_of_lt_of_le hsmall (Nat.le_mul_of_pos_right _ (by positivity))
  · rcases Nat.lt_or_eq_of_le hm with hlt | rfl
    · exact packs_normal negative hge hlt
    · rw [ofMantissa_carry, two_pow_carry]
      exact packs_normal negative (Nat.le_refl _) (by decide)

end Mantissa

theorem packs_ofUnits (negative : Bool) (num : Nat) {den : Nat} (hden : 0 < den) :
    Packs negative (rounded num den) (ofUnits negative num den) := by
  obtain ⟨hm, hs⟩ := rounded_mantissa num hden
  exact packs_mantissa negative hm hs

section Packs

variable {units n : Nat} {x : Binary64}

theorem Packs.atLeast_iff (h : Packs false units x) :
    x.AtLeast n ↔ n ≤ units ∨ overflow ≤ units := by
  cases h with
  | finite heq hlt =>
    subst heq
    constructor
    · rintro ⟨hx⟩
      exact .inl hx
    · intro hor
      exact .finite (hor.resolve_right (Nat.not_le.mpr hlt))
  | infinite hle => exact ⟨fun _ => .inr hle, fun _ => .infinite⟩

theorem Packs.atMost_iff (h : Packs false units x) :
    x.AtMost n ↔ units ≤ n ∧ units < overflow := by
  cases h with
  | finite heq hlt =>
    subst heq
    constructor
    · rintro ⟨hx⟩
      exact ⟨hx, hlt⟩
    · rintro ⟨hx, -⟩
      exact .finite hx
  | infinite hle => exact ⟨nofun, fun hn => absurd hle (Nat.not_le.mpr hn.2)⟩

end Packs

section Operations

variable {x y : Binary64} {num den a b g n : Nat}

theorem ofUnits_atLeast (hden : 0 < den) (hg : Representable g) (h : g * den ≤ num) :
    (ofUnits false num den).AtLeast g :=
  (packs_ofUnits false num hden).atLeast_iff.mpr (.inl (le_rounded hden hg h))

theorem ofUnits_atMost (hden : 0 < den) (hg : Representable g) (hlt : g < overflow)
    (h : num ≤ g * den) : (ofUnits false num den).AtMost g := by
  have hle := rounded_le hden hg h
  exact (packs_ofUnits false num hden).atMost_iff.mpr ⟨hle, Nat.lt_of_le_of_lt hle hlt⟩

theorem unitsPerOne_pos : 0 < unitsPerOne := by
  unfold unitsPerOne
  generalize 1074 = k
  exact Nat.two_pow_pos k

theorem mul_finite (e e' : Fin 2047) (f f' : Fin (Nat.pow 2 52)) :
    mul (.finite false e f) (.finite false e' f') =
      ofUnits false (magnitude e f * magnitude e' f') unitsPerOne := by
  simp only [mul, bne_self_eq_false]

theorem mul_infinite_right {e : Fin 2047} {f : Fin (Nat.pow 2 52)} (h : 0 < magnitude e f) :
    mul (.finite false e f) (.infinite false) = .infinite false := by
  simp only [mul, if_neg (Nat.ne_of_gt h), bne_self_eq_false]

theorem mul_infinite_left {e : Fin 2047} {f : Fin (Nat.pow 2 52)} (h : 0 < magnitude e f) :
    mul (.infinite false) (.finite false e f) = .infinite false := by
  simp only [mul, if_neg (Nat.ne_of_gt h), bne_self_eq_false]

/-- A product is rounded, and so is not below a double that is not above the exact one. -/
theorem mul_atLeast (hx : x.AtLeast a) (hy : y.AtLeast b) (ha : 0 < a) (hb : 0 < b)
    (hg : Representable g) (h : g * unitsPerOne ≤ a * b) : (x.mul y).AtLeast g := by
  cases hx with
  | finite hx =>
    cases hy with
    | finite hy =>
      rw [mul_finite]
      exact ofUnits_atLeast unitsPerOne_pos hg (Nat.le_trans h (Nat.mul_le_mul hx hy))
    | infinite =>
      rw [mul_infinite_right (Nat.lt_of_lt_of_le ha hx)]
      exact .infinite
  | infinite =>
    cases hy with
    | finite hy =>
      rw [mul_infinite_left (Nat.lt_of_lt_of_le hb hy)]
      exact .infinite
    | infinite => exact .infinite

theorem mul_atMost (hx : x.AtMost a) (hy : y.AtMost b) (hg : Representable g) (hlt : g < overflow)
    (h : a * b ≤ g * unitsPerOne) : (x.mul y).AtMost g := by
  cases hx with
  | finite hx =>
    cases hy with
    | finite hy =>
      rw [mul_finite]
      exact ofUnits_atMost unitsPerOne_pos hg hlt (Nat.le_trans (Nat.mul_le_mul hx hy) h)

theorem minNumber_eq_or (x y : Binary64) : x.minNumber y = x ∨ x.minNumber y = y := by
  unfold minNumber
  split
  · exact .inr rfl
  · split
    · exact .inl rfl
    · split
      · exact .inr rfl
      · exact .inl rfl

theorem minNumber_atLeast (hx : x.AtLeast n) (hy : y.AtLeast n) : (x.minNumber y).AtLeast n := by
  rcases minNumber_eq_or x y with heq | heq
  · rw [heq]
    exact hx
  · rw [heq]
    exact hy

theorem minNumber_finite (e e' : Fin 2047) (f f' : Fin (Nat.pow 2 52)) :
    minNumber (.finite false e f) (.finite false e' f') =
      if magnitude e' f' < magnitude e f then .finite false e' f' else .finite false e f := by
  unfold minNumber
  rw [if_neg nofun, if_neg nofun]
  simp only [lt, signedUnits, Bool.false_eq_true, if_false, decide_eq_true_eq, Nat.cast_lt]

theorem minNumber_atMost_right (hx : x.AtLeast 0) (hy : y.AtMost n) :
    (x.minNumber y).AtMost n := by
  cases hy with
  | finite hy =>
    cases hx with
    | infinite => exact .finite hy
    | finite _ =>
      rw [minNumber_finite]
      split
      · exact .finite hy
      · exact .finite (Nat.le_trans (Nat.le_of_not_lt ‹_›) hy)

theorem minNumber_atMost_left (hx : x.AtMost n) (hy : y.AtLeast 0) :
    (x.minNumber y).AtMost n := by
  cases hx with
  | finite hx =>
    cases hy with
    | infinite => exact .finite hx
    | finite _ =>
      rw [minNumber_finite]
      split
      · exact .finite (Nat.le_trans (Nat.le_of_lt ‹_›) hx)
      · exact .finite hx

theorem toNat_truncate_finite (e : Fin 2047) (f : Fin (Nat.pow 2 52)) :
    (truncate (.finite false e f)).toNat = min (magnitude e f / unitsPerOne) (2 ^ 64 - 1) := by
  have hfits : min (magnitude e f / unitsPerOne) (2 ^ 64 - 1) < 2 ^ 64 :=
    Nat.lt_of_le_of_lt (Nat.min_le_right _ _) (by decide)
  simp only [truncate, UInt64.toNat_ofNat', Nat.pow_eq]
  exact Nat.mod_eq_of_lt hfits

theorem le_truncate (h : x.AtLeast n) : min (n / unitsPerOne) (2 ^ 64 - 1) ≤ x.truncate.toNat := by
  cases h with
  | finite hx =>
    rw [toNat_truncate_finite]
    have hquotient := Nat.div_le_div_right (c := unitsPerOne) hx
    omega
  | infinite => exact Nat.min_le_right _ _

theorem truncate_le (h : x.AtMost n) : x.truncate.toNat ≤ min (n / unitsPerOne) (2 ^ 64 - 1) := by
  cases h with
  | finite hx =>
    rw [toNat_truncate_finite]
    have hquotient := Nat.div_le_div_right (c := unitsPerOne) hx
    omega

end Operations

section Integers

variable {n : Nat}

theorem representable_rounded {num den : Nat} (hden : 0 < den) : Representable (rounded num den) :=
  ⟨_, _, rfl, (rounded_mantissa num hden).1⟩

theorem representable_integer (h : n ≤ 2 ^ 53) : Representable (n * unitsPerOne) := by
  unfold unitsPerOne
  generalize 1074 = k
  exact ⟨n, k, rfl, h⟩

theorem integer_lt_overflow (h : n ≤ 2 ^ 64) : n * unitsPerOne < overflow := by
  have hexponents : ∀ k l, 11 + k < l → n * Nat.pow 2 k < 2 ^ 53 * 2 ^ l := by
    intro k l hlt
    calc n * 2 ^ k ≤ 2 ^ 64 * 2 ^ k := Nat.mul_le_mul_right _ h
      _ = 2 ^ 53 * 2 ^ (11 + k) := by ring
      _ < 2 ^ 53 * 2 ^ l :=
        Nat.mul_lt_mul_of_pos_left (Nat.pow_lt_pow_right (by decide) hlt) (by decide)
  unfold unitsPerOne overflow
  apply hexponents
  decide

def nearestUnits (n : Nat) : Nat := rounded (n * unitsPerOne) 1

theorem nearestUnits_mono {m : Nat} (h : m ≤ n) : nearestUnits m ≤ nearestUnits n :=
  rounded_mono Nat.one_pos (Nat.mul_le_mul_right _ h)

theorem nearestUnits_eq (h : n ≤ 2 ^ 53) : nearestUnits n = n * unitsPerOne := by
  have hg := representable_integer h
  apply Nat.le_antisymm
  · exact rounded_le Nat.one_pos hg (Nat.le_of_eq (Nat.mul_one _).symm)
  · exact le_rounded Nat.one_pos hg (Nat.le_of_eq (Nat.mul_one _))

theorem packs_ofNat (n : Nat) : Packs false (nearestUnits n) (ofNat n) :=
  packs_ofUnits false (n * unitsPerOne) Nat.one_pos

/-- The nearest double is off by one part in 2^53 at the most. -/
theorem nearestUnits_near (n : Nat) :
    (2 ^ 53 - 1) * (n * unitsPerOne) ≤ 2 ^ 53 * nearestUnits n ∧
      2 ^ 53 * nearestUnits n ≤ (2 ^ 53 + 1) * (n * unitsPerOne) := by
  unfold nearestUnits rounded
  generalize n * unitsPerOne = num
  have hnear := roundQuotient_near num (Nat.mul_pos Nat.one_pos (Nat.two_pow_pos (excess num 1)))
  have hgrid : excess num 1 = 0 ∨ 2 ^ 52 * 2 ^ excess num 1 ≤ num := by
    by_cases h : excess num 1 = 0
    · exact .inl h
    · have hle := le_of_excess Nat.one_pos h
      rw [Nat.mul_one] at hle
      exact .inr hle
  simp only [Nat.one_mul] at hnear ⊢
  rw [Nat.mul_comm (roundQuotient _ _)]
  rcases hgrid with hgrid | hgrid
  · -- an integer number of units on the grid of single units
    rw [hgrid, Nat.pow_zero] at hnear ⊢
    omega
  · omega

theorem dvd_nearestUnits (n : Nat) : unitsPerOne ∣ nearestUnits n := by
  rcases Nat.le_total n (2 ^ 53) with hle | hle
  · rw [nearestUnits_eq hle]
    exact Nat.dvd_mul_left _ _
  · unfold nearestUnits unitsPerOne
    generalize 1074 = k
    have hlarge : 2 ^ (53 + k) ≤ n * Nat.pow 2 k := by
      rw [Nat.pow_add]
      exact Nat.mul_le_mul_right _ hle
    have hne : n * Nat.pow 2 k ≠ 0 := by
      have hpos := Nat.two_pow_pos (53 + k)
      omega
    have hlog : 53 + k ≤ (n * Nat.pow 2 k / 1).log2 := by
      rwa [Nat.div_one, Nat.le_log2 hne]
    have hexcess : k ≤ excess (n * Nat.pow 2 k) 1 := by
      unfold excess
      omega
    exact Nat.dvd_mul_left_of_dvd (Nat.pow_dvd_pow 2 hexcess) _

def nearestInteger (n : Nat) : Nat := nearestUnits n / unitsPerOne

theorem nearestInteger_mul (n : Nat) : nearestInteger n * unitsPerOne = nearestUnits n :=
  Nat.div_mul_cancel (dvd_nearestUnits n)

theorem nearestInteger_eq (h : n ≤ 2 ^ 53) : nearestInteger n = n := by
  rw [nearestInteger, nearestUnits_eq h, Nat.mul_div_cancel _ unitsPerOne_pos]

theorem nearestInteger_near (n : Nat) :
    (2 ^ 53 - 1) * n ≤ 2 ^ 53 * nearestInteger n ∧
      2 ^ 53 * nearestInteger n ≤ (2 ^ 53 + 1) * n := by
  obtain ⟨hlow, hhigh⟩ := nearestUnits_near n
  rw [← nearestInteger_mul, ← Nat.mul_assoc, ← Nat.mul_assoc] at hlow hhigh
  exact ⟨Nat.le_of_mul_le_mul_right hlow unitsPerOne_pos,
    Nat.le_of_mul_le_mul_right hhigh unitsPerOne_pos⟩

theorem nearestUnits_lt_overflow (h : n ≤ 2 ^ 64) : nearestUnits n < overflow := by
  have hg : Representable (2 ^ 64 * unitsPerOne) := by
    unfold unitsPerOne
    generalize 1074 = k
    exact ⟨1, 64 + k, by rw [Nat.one_mul, Nat.pow_add, Nat.pow_eq], by decide⟩
  have hle : nearestUnits n ≤ 2 ^ 64 * unitsPerOne := by
    apply rounded_le Nat.one_pos hg
    rw [Nat.mul_one]
    exact Nat.mul_le_mul_right _ h
  exact Nat.lt_of_le_of_lt hle (integer_lt_overflow (Nat.le_refl _))

theorem ofNat_atLeast (n : Nat) : (ofNat n).AtLeast (nearestUnits n) :=
  (packs_ofNat n).atLeast_iff.mpr (.inl (Nat.le_refl _))

theorem ofNat_atMost (h : n ≤ 2 ^ 64) : (ofNat n).AtMost (nearestUnits n) :=
  (packs_ofNat n).atMost_iff.mpr ⟨Nat.le_refl _, nearestUnits_lt_overflow h⟩

theorem truncate_ofNat (h : n ≤ 2 ^ 64) :
    (ofNat n).truncate.toNat = min (nearestInteger n) (2 ^ 64 - 1) :=
  Nat.le_antisymm (truncate_le (ofNat_atMost h)) (le_truncate (ofNat_atLeast n))

end Integers

end Binary64

end Liveness

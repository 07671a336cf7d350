import Liveness.Backoff
import Liveness.Proofs.Backoff.Jitter
import Liveness.Proofs.Numeric.Rounding
import Liveness.Proofs.Settings.Valid
/-!
# The growth of delays

The base delay is computed in doubles. Below 2^53 every product of whole numbers is exact, and no rounded
product falls below 2^53 again, so that whole multipliers give exactly the capped power. For any
multiplier the delay lies between the doubles nearest to the initial delay and to the cap.
-/
namespace Liveness

namespace Binary64

/-- What a product keeps of its factors, a power keeps of its base. -/
theorem pow_induction {P : Nat → Binary64 → Prop} {base : Binary64}
    (hmul : ∀ {i j x y}, P i x → P j y → P (i + j) (x.mul y)) (hone : P 0 one) (hbase : P 1 base)
    (n : Nat) : P n (base.pow n) := by
  have haux : ∀ (n : Nat) {acc base : Binary64} {i j : Nat}, P i acc → P j base →
      P (i + j * n) (powAux acc base n) := by
    intro n
    induction n using Nat.strongRecOn with
    | ind n ih =>
      intro acc base i j hacc hbase
      have hdigit : P (i + j * (n % 2)) (if n % 2 = 1 then acc.mul base else acc) := by
        rcases Nat.mod_two_eq_zero_or_one n with heven | hodd
        · rw [if_neg (by omega), heven]
          exact hacc
        · rw [if_pos hodd, hodd, Nat.mul_one]
          exact hmul hacc hbase
      have hsplit : j * n = (j + j) * (n / 2) + j * (n % 2) := by
        conv_lhs => rw [← Nat.div_add_mod n 2]
        ring
      rw [powAux]
      split
      case isTrue hlast =>
        rw [hlast, Nat.mul_zero, Nat.zero_add] at hsplit
        rw [hsplit]
        exact hdigit
      case isFalse hmore =>
        have hrest := ih (n / 2) (by omega) hdigit (hmul hbase hbase)
        rw [hsplit, Nat.add_comm ((j + j) * _), ← Nat.add_assoc]
        exact hrest
  have hpow := haux n hone hbase
  rwa [Nat.zero_add, Nat.one_mul] at hpow

/-- The double is this integer, if that is at most 2^53; else it is 2^53 or more as well. -/
structure StandsFor (v : Nat) (x : Binary64) : Prop where
  atLeast : x.AtLeast (min v (2 ^ 53) * unitsPerOne)
  atMost : v ≤ 2 ^ 53 → x.AtMost (v * unitsPerOne)

section StandsFor

variable {v w cap : Nat} {x y : Binary64}

theorem standsFor_ofNat (n : Nat) : (ofNat n).StandsFor n := by
  constructor
  · refine (packs_ofNat n).atLeast_iff.mpr (.inl ?_)
    rw [← nearestUnits_eq (Nat.min_le_right n _)]
    exact nearestUnits_mono (Nat.min_le_left n _)
  · intro hle
    rw [(packs_ofNat n).atMost_iff, nearestUnits_eq hle]
    exact ⟨Nat.le_refl _, integer_lt_overflow (Nat.le_trans hle (by decide))⟩

theorem one_atLeast : one.AtLeast unitsPerOne := by
  have hone := (standsFor_ofNat 1).atLeast
  rwa [Nat.min_eq_left (by decide), Nat.one_mul] at hone

theorem atLeast_one (hfinite : x.isFinite = true) (hlt : x.lt one = false) :
    x.AtLeast unitsPerOne := by
  have hone := one_atLeast
  revert hlt hone
  -- one is a number of units that must not be computed
  generalize one = y
  intro hlt hone
  have hpos := unitsPerOne_pos
  cases x with
  | nan => cases hfinite
  | infinite => cases hfinite
  | finite negative e f =>
    cases hone with
    | infinite => cases hlt
    | finite hle =>
      simp only [lt, signedUnits, decide_eq_false_iff_not, Bool.false_eq_true, if_false] at hlt
      cases negative with
      | true =>
        simp only [if_true] at hlt
        omega
      | false =>
        simp only [Bool.false_eq_true, if_false] at hlt
        exact .finite (by omega)

theorem pow_atLeast_one (h : x.AtLeast unitsPerOne) (n : Nat) :
    (x.pow n).AtLeast unitsPerOne := by
  apply pow_induction (P := fun _ x => x.AtLeast unitsPerOne)
  · intro i j x y hx hy
    have hone := representable_integer (show 1 ≤ 2 ^ 53 by decide)
    rw [Nat.one_mul] at hone
    exact mul_atLeast hx hy unitsPerOne_pos unitsPerOne_pos hone (Nat.le_refl _)
  · exact one_atLeast
  · exact h

theorem StandsFor.mul (hx : x.StandsFor v) (hy : y.StandsFor w) (hv : 0 < v) (hw : 0 < w) :
    (x.mul y).StandsFor (v * w) := by
  constructor
  · have hle : min (v * w) (2 ^ 53) ≤ min v (2 ^ 53) * min w (2 ^ 53) := by
      rcases Nat.le_total v (2 ^ 53) with hv' | hv'
      · rcases Nat.le_total w (2 ^ 53) with hw' | hw'
        · rw [Nat.min_eq_left hv', Nat.min_eq_left hw']
          exact Nat.min_le_left _ _
        · rw [Nat.min_eq_left hv', Nat.min_eq_right hw']
          exact Nat.le_trans (Nat.min_le_right _ _) (Nat.le_mul_of_pos_left _ hv)
      · rw [Nat.min_eq_right hv']
        exact Nat.le_trans (Nat.min_le_right _ _) (Nat.le_mul_of_pos_right _ (by omega))
    apply mul_atLeast hx.atLeast hy.atLeast
    · exact Nat.mul_pos (by omega) unitsPerOne_pos
    · exact Nat.mul_pos (by omega) unitsPerOne_pos
    · exact representable_integer (Nat.min_le_right _ _)
    · calc min (v * w) (2 ^ 53) * unitsPerOne * unitsPerOne
          ≤ min v (2 ^ 53) * min w (2 ^ 53) * unitsPerOne * unitsPerOne :=
            Nat.mul_le_mul_right _ (Nat.mul_le_mul_right _ hle)
        _ = min v (2 ^ 53) * unitsPerOne * (min w (2 ^ 53) * unitsPerOne) := by ring
  · intro hle
    have hv' : v ≤ 2 ^ 53 := Nat.le_trans (Nat.le_mul_of_pos_right v hw) hle
    have hw' : w ≤ 2 ^ 53 := Nat.le_trans (Nat.le_mul_of_pos_left w hv) hle
    apply mul_atMost (hx.atMost hv') (hy.atMost hw') (representable_integer hle)
    · exact integer_lt_overflow (Nat.le_trans hle (by decide))
    · apply Nat.le_of_eq
      ring

theorem standsFor_pow {m : Nat} (hm : 0 < m) (n : Nat) : ((ofNat m).pow n).StandsFor (m ^ n) := by
  apply pow_induction (P := fun n x => x.StandsFor (m ^ n))
  · intro i j x y hx hy
    rw [Nat.pow_add]
    exact hx.mul hy (Nat.pow_pos hm) (Nat.pow_pos hm)
  · exact standsFor_ofNat 1
  · rw [Nat.pow_one]
    exact standsFor_ofNat m

/-- A cap that is exact makes the result exact. -/
theorem StandsFor.capped (hx : x.StandsFor v) (hcap : cap ≤ 2 ^ 53) :
    (x.minNumber (ofNat cap)).truncate.toNat = min v cap := by
  have hy := standsFor_ofNat cap
  have hfits : 2 ^ 53 ≤ 2 ^ 64 - 1 := by decide
  apply Nat.le_antisymm
  · have hhigh : (x.minNumber (ofNat cap)).AtMost (min v cap * unitsPerOne) := by
      rcases Nat.le_total v cap with hle | hle
      · rw [Nat.min_eq_left hle]
        exact minNumber_atMost_left (hx.atMost (Nat.le_trans hle hcap)) (hy.atLeast.mono (by omega))
      · rw [Nat.min_eq_right hle]
        exact minNumber_atMost_right (hx.atLeast.mono (by omega)) (hy.atMost hcap)
    have htruncate := truncate_le hhigh
    rw [Nat.mul_div_cancel _ unitsPerOne_pos] at htruncate
    omega
  · have hlow : (x.minNumber (ofNat cap)).AtLeast (min v cap * unitsPerOne) := by
      have hv : min v cap ≤ min v (2 ^ 53) := by omega
      have hw : min v cap ≤ min cap (2 ^ 53) := by omega
      apply minNumber_atLeast
      · exact hx.atLeast.mono (Nat.mul_le_mul_right unitsPerOne hv)
      · exact hy.atLeast.mono (Nat.mul_le_mul_right unitsPerOne hw)
    have htruncate := le_truncate hlow
    rw [Nat.mul_div_cancel _ unitsPerOne_pos] at htruncate
    omega

end StandsFor

end Binary64

namespace Policy

theorem nanos_baseDelay (p : Policy) (attempt : Nat) :
    (p.baseDelay attempt).nanos = (p.scaledDelay attempt).truncate.toNat * 1000000 := rfl

/-- The largest exponent does not show below the cap: by then the power of anything but one is above. -/
theorem capped_pow_eq {initial m cap limit : Nat} (hinitial : 0 < initial) (hm : 0 < m)
    (hcap : cap ≤ 2 ^ 53) (hlimit : 53 ≤ limit) (n : Nat) :
    min (initial * m ^ min n limit) cap = min (initial * m ^ n) cap := by
  rcases Nat.le_total n limit with hle | hle
  · rw [Nat.min_eq_left hle]
  · rw [Nat.min_eq_right hle]
    rcases Nat.lt_or_eq_of_le hm with hm | rfl
    · have habove : ∀ k, 53 ≤ k → cap ≤ initial * m ^ k := by
        intro k hk
        calc cap ≤ 2 ^ 53 := hcap
          _ ≤ 2 ^ k := Nat.pow_le_pow_right (by decide) hk
          _ ≤ m ^ k := Nat.pow_le_pow_left hm k
          _ ≤ initial * m ^ k := Nat.le_mul_of_pos_left _ hinitial
      rw [Nat.min_eq_right (habove limit hlimit), Nat.min_eq_right (habove n (by omega))]
    · rw [Nat.one_pow, Nat.one_pow]

theorem one_le_of_valid {p : Policy} {m : Nat} (h : p.Valid) (hm : p.multiplier = .ofNat m) :
    0 < m := by
  apply Nat.pos_of_ne_zero
  rintro rfl
  have hone := h.one_le
  rw [hm] at hone
  revert hone
  decide +kernel

/-- With a whole multiplier the base delay is what the formula says in whole numbers of any size. -/
theorem baseDelay_of_whole_multiplier (p : Policy) (m attempt : Nat) (h : p.check = .ok ())
    (hm : p.multiplier = .ofNat m) (hcap : p.maxBackoffMs.toNat ≤ 2 ^ 53) :
    (p.baseDelay attempt).nanos =
      min (p.initialBackoffMs.toNat * m ^ attempt) p.maxBackoffMs.toNat * 1000000 := by
  have hvalid := check_eq_ok_iff.mp h
  have hpos := one_le_of_valid hvalid hm
  have hpow := Binary64.standsFor_pow hpos (min attempt (Nat.pow 2 31 - 1))
  have hscaled := (Binary64.standsFor_ofNat p.initialBackoffMs.toNat).mul hpow hvalid.initial
    (Nat.pow_pos hpos)
  have hcapped := hscaled.capped hcap
  rw [capped_pow_eq hvalid.initial hpos hcap (by decide), ← hm] at hcapped
  rw [nanos_baseDelay, scaledDelay, hcapped]

def tripling : Policy :=
  { maxAttempts := 1
    initialBackoffMs := 7
    maxBackoffMs := 9007199254740992
    multiplier := Binary64.ofNat 3
    jitter := false
    maxElapsedMs := 0 }

/-- The largest power below the cap is reached exactly, and then the cap, however many attempts follow. -/
theorem baseDelay_of_whole_multiplier_tripling :
    tripling.check = .ok () ∧ tripling.maxBackoffMs.toNat = 2 ^ 53 ∧
      (tripling.baseDelay 31).nanos = 7 * 3 ^ 31 * 1000000 ∧
      (tripling.baseDelay 4294967295).nanos = 9007199254740992 * 1000000 := by
  have hcheck : tripling.check = .ok () := by decide +kernel
  have hm : tripling.multiplier = .ofNat 3 := by simp only [tripling]
  have hinitial : tripling.initialBackoffMs.toNat = 7 := rfl
  have hmax : tripling.maxBackoffMs.toNat = 2 ^ 53 := rfl
  have hcap : tripling.maxBackoffMs.toNat ≤ 2 ^ 53 := Nat.le_of_eq hmax
  have hlast := baseDelay_of_whole_multiplier tripling 3 31 hcheck hm hcap
  have hbeyond := baseDelay_of_whole_multiplier tripling 3 4294967295 hcheck hm hcap
  rw [hinitial, hmax] at hlast hbeyond
  have habove : ∀ k, 53 ≤ k → 2 ^ 53 ≤ 7 * 3 ^ k := by
    intro k hk
    calc 2 ^ 53 ≤ 3 ^ 53 := by decide
      _ ≤ 3 ^ k := Nat.pow_le_pow_right (by decide) hk
      _ ≤ 7 * 3 ^ k := Nat.le_mul_of_pos_left _ (by decide)
  rw [Nat.min_eq_right (habove _ (by decide))] at hbeyond
  exact ⟨hcheck, hmax, hlast, hbeyond⟩

section Bounds

variable {p : Policy}

/-- The product that the cap is applied to is not below the initial delay, as a double. -/
theorem product_atLeast (h : p.Valid) (n : Nat) :
    ((Binary64.ofNat p.initialBackoffMs.toNat).mul (p.multiplier.pow n)).AtLeast
      (Binary64.nearestUnits p.initialBackoffMs.toNat) := by
  have hpos : 0 < Binary64.nearestUnits p.initialBackoffMs.toNat := by
    have hone : Binary64.nearestUnits 1 = 1 * Binary64.unitsPerOne :=
      Binary64.nearestUnits_eq (by decide)
    rw [Nat.one_mul] at hone
    apply Nat.lt_of_lt_of_le Binary64.unitsPerOne_pos
    rw [← hone]
    exact Binary64.nearestUnits_mono h.initial
  have hpow := Binary64.pow_atLeast_one (Binary64.atLeast_one h.finite h.one_le) n
  apply Binary64.mul_atLeast (Binary64.ofNat_atLeast _) hpow hpos Binary64.unitsPerOne_pos
  · exact Binary64.representable_rounded Nat.one_pos
  · exact Nat.le_refl _

theorem scaledDelay_atLeast (h : p.Valid) (attempt : Nat) :
    (p.scaledDelay attempt).AtLeast (Binary64.nearestUnits p.initialBackoffMs.toNat) := by
  apply Binary64.minNumber_atLeast
  · exact product_atLeast h _
  · exact (Binary64.ofNat_atLeast _).mono (Binary64.nearestUnits_mono h.cap)

theorem scaledDelay_atMost (h : p.Valid) (attempt : Nat) :
    (p.scaledDelay attempt).AtMost (Binary64.nearestUnits p.maxBackoffMs.toNat) := by
  apply Binary64.minNumber_atMost_right
  · exact (product_atLeast h _).mono (Nat.zero_le _)
  · exact Binary64.ofNat_atMost (Nat.le_of_lt p.maxBackoffMs.toNat_lt)

end Bounds

def roundedMillis (ms : UInt64) : Duration := .ofMillis (Binary64.ofNat ms.toNat).truncate

section RoundedMillis

variable (ms : UInt64)

theorem nanos_roundedMillis : (roundedMillis ms).nanos =
    min (Binary64.nearestInteger ms.toNat) (2 ^ 64 - 1) * 1000000 := by
  have hnanos : (roundedMillis ms).nanos =
      (Binary64.ofNat ms.toNat).truncate.toNat * 1000000 := rfl
  rw [hnanos, Binary64.truncate_ofNat (Nat.le_of_lt ms.toNat_lt)]

theorem roundedMillis_eq (h : ms.toNat ≤ 2 ^ 53) : roundedMillis ms = .ofMillis ms := by
  apply Duration.nanos_inj
  rw [nanos_roundedMillis, Binary64.nearestInteger_eq h, Nat.min_eq_left (by omega)]
  rfl

theorem roundedMillis_near :
    (2 ^ 53 - 1) * (Duration.ofMillis ms).nanos ≤ 2 ^ 53 * (roundedMillis ms).nanos ∧
      2 ^ 53 * (roundedMillis ms).nanos ≤ (2 ^ 53 + 1) * (Duration.ofMillis ms).nanos := by
  have hfits := ms.toNat_lt
  obtain ⟨hlow, hhigh⟩ := Binary64.nearestInteger_near ms.toNat
  rw [nanos_roundedMillis]
  change (2 ^ 53 - 1) * (ms.toNat * 1000000) ≤ _ ∧ _ ≤ (2 ^ 53 + 1) * (ms.toNat * 1000000)
  omega

end RoundedMillis

/-- A delay between the initial delay and the cap, up to the rounding of these to doubles. -/
structure Bounded (p : Policy) (d : Duration) : Prop where
  lower : roundedMillis p.initialBackoffMs ≤ d
  upper : d ≤ roundedMillis p.maxBackoffMs
  lower_exact : p.initialBackoffMs.toNat ≤ 2 ^ 53 → p.initialBackoff ≤ d
  upper_exact : p.maxBackoffMs.toNat ≤ 2 ^ 53 → d ≤ p.maxBackoff
  lower_near : (2 ^ 53 - 1) * p.initialBackoff.nanos ≤ 2 ^ 53 * d.nanos
  upper_near : 2 ^ 53 * d.nanos ≤ (2 ^ 53 + 1) * p.maxBackoff.nanos

/-- The bounds of every delay without jitter. They are exact up to 2^53 ms, and beyond that off by one
part in 2^53 at the most. -/
theorem baseDelay_bounded (p : Policy) (attempt : Nat) (h : p.check = .ok ()) :
    p.Bounded (p.baseDelay attempt) ∧
      (p.jitter = false → ∀ e, p.delay attempt e = (p.baseDelay attempt, e)) := by
  have hvalid := check_eq_ok_iff.mp h
  have hlower : roundedMillis p.initialBackoffMs ≤ p.baseDelay attempt := by
    show (roundedMillis _).nanos ≤ (p.baseDelay attempt).nanos
    rw [nanos_roundedMillis, nanos_baseDelay]
    exact Nat.mul_le_mul_right _ (Binary64.le_truncate (scaledDelay_atLeast hvalid attempt))
  have hupper : p.baseDelay attempt ≤ roundedMillis p.maxBackoffMs := by
    show (p.baseDelay attempt).nanos ≤ (roundedMillis _).nanos
    rw [nanos_roundedMillis, nanos_baseDelay]
    exact Nat.mul_le_mul_right _ (Binary64.truncate_le (scaledDelay_atMost hvalid attempt))
  refine ⟨⟨hlower, hupper, ?_, ?_, ?_, ?_⟩, fun hplain e => delay_plain (.inl hplain)⟩
  · intro hexact
    rw [roundedMillis_eq _ hexact] at hlower
    exact hlower
  · intro hexact
    rw [roundedMillis_eq _ hexact] at hupper
    exact hupper
  · exact Nat.le_trans (roundedMillis_near _).1 (Nat.mul_le_mul_left _ hlower)
  · exact Nat.le_trans (Nat.mul_le_mul_left _ hupper) (roundedMillis_near _).2

/-- The one delay of 2^53 + 3 ms, which is not a double. -/
def wide : Policy := Policy.new 1 9007199254740995 9007199254740995

theorem baseDelay_bounded_wide :
    wide.check = .ok () ∧ wide.jitter = false ∧ wide.Bounded (wide.baseDelay 7) ∧
      wide.delay 7 (.ofWords []) = (wide.baseDelay 7, .ofWords []) := by
  have hcheck : wide.check = .ok () := by decide +kernel
  have hplain : wide.jitter = false := rfl
  obtain ⟨hbounded, hdelay⟩ := baseDelay_bounded wide 7 hcheck
  exact ⟨hcheck, hplain, hbounded, hdelay hplain _⟩

/-- Beyond 2^53 ms the double nearest to the cap may be above it. -/
theorem baseDelay_above_cap : ¬ ∀ (p : Policy) (attempt : Nat), p.check = .ok () →
    p.initialBackoff ≤ p.baseDelay attempt ∧ p.baseDelay attempt ≤ p.maxBackoff := by
  intro hbounds
  have hwide := hbounds wide 0 (by decide +kernel)
  exact absurd hwide.2 (by decide +kernel)

end Policy

end Liveness

import Liveness.Numeric.Shortest
import Mathlib.Data.List.Induction
import Mathlib.Tactic.Ring
/-!
# Digits and powers of ten

What digits say about the size of a number, and powers of ten with an exponent of either sign: such a
power is a quotient of two natural numbers, one of which is one.
-/
namespace Liveness

section Digits

variable {n : Nat}

theorem decimalDigits_of_lt (h : n < 10) : decimalDigits n = [⟨n, h⟩] := by
  rw [decimalDigits, dif_pos h]

theorem decimalDigits_of_ge (h : ¬ n < 10) :
    decimalDigits n = decimalDigits (n / 10) ++ [⟨n % 10, Nat.mod_lt _ (by decide)⟩] := by
  rw [decimalDigits, dif_neg h]

theorem decimalDigits_eq_cons (n : Nat) :
    ∃ d ds, decimalDigits n = d :: ds ∧ (0 < n → 0 < d.val) ∧ ¬(d.val = 0 ∧ ds ≠ []) := by
  induction n using Nat.strongRecOn with
  | ind n ih =>
    by_cases h : n < 10
    · exact ⟨_, _, decimalDigits_of_lt h, id, fun hzero => hzero.2 rfl⟩
    · obtain ⟨d, ds, heq, hpos, -⟩ := ih (n / 10) (by omega)
      have hd : 0 < d.val := hpos (by omega)
      rw [decimalDigits_of_ge h, heq]
      exact ⟨d, _, rfl, fun _ => hd, fun hzero => Nat.ne_of_gt hd hzero.1⟩

theorem ofDecimalDigits_append (ds es : List (Fin 10)) :
    ofDecimalDigits (ds ++ es) = ofDecimalDigits ds * 10 ^ es.length + ofDecimalDigits es := by
  induction es using List.reverseRecOn with
  | nil => rw [List.append_nil, List.length_nil, Nat.pow_zero, Nat.mul_one]; rfl
  | append_singleton es d ih =>
    rw [← List.append_assoc, ofDecimalDigits_append_singleton, ofDecimalDigits_append_singleton, ih,
      List.length_append, List.length_singleton, Nat.pow_succ]
    ring

theorem ofDecimalDigits_zeros (k : Nat) : ofDecimalDigits (List.replicate k 0) = 0 := by
  induction k with
  | zero => rfl
  | succ k ih => rw [List.replicate_succ', ofDecimalDigits_append_singleton, ih]; rfl

theorem ofDecimalDigits_lt (ds : List (Fin 10)) : ofDecimalDigits ds < 10 ^ ds.length := by
  induction ds using List.reverseRecOn with
  | nil => exact Nat.one_pos
  | append_singleton ds d ih =>
    have hd := d.isLt
    rw [ofDecimalDigits_append_singleton, List.length_append, List.length_singleton, Nat.pow_succ]
    omega

theorem lt_pow_length (n : Nat) : n < 10 ^ (decimalDigits n).length := by
  have hlt := ofDecimalDigits_lt (decimalDigits n)
  rwa [ofDecimalDigits_decimalDigits] at hlt

theorem pow_length_le (h : 0 < n) : 10 ^ ((decimalDigits n).length - 1) ≤ n := by
  obtain ⟨d, ds, heq, hpos, -⟩ := decimalDigits_eq_cons n
  have hvalue := ofDecimalDigits_append [d] ds
  rw [List.singleton_append, ← heq, ofDecimalDigits_decimalDigits] at hvalue
  have hd : ofDecimalDigits [d] = d.val := Nat.zero_add _
  rw [heq, List.length_cons, Nat.add_sub_cancel, hvalue, hd]
  exact Nat.le_trans (Nat.le_mul_of_pos_left _ (hpos h)) (Nat.le_add_right _ _)

theorem length_pos (n : Nat) : 0 < (decimalDigits n).length := by
  obtain ⟨d, ds, heq, -, -⟩ := decimalDigits_eq_cons n
  rw [heq]
  exact Nat.succ_pos _

end Digits

def tens (g : Int) : Nat := Nat.pow 10 g.toNat

section Tens

theorem tens_pos (g : Int) : 0 < tens g := Nat.pow_pos (by decide)

theorem tens_ofNat (k : Nat) : tens k = 10 ^ k := rfl

theorem tens_neg_ofNat (k : Nat) : tens (-k) = 1 := by
  rw [tens, Int.toNat_neg_natCast]

/-- `10 ^ (g + k)` is `10 ^ k` times `10 ^ g`. -/
theorem tens_add (g : Int) (k : Nat) :
    tens (g + k) * tens (-g) = 10 ^ k * tens g * tens (-(g + k)) := by
  have hexponents : (g + k).toNat + (-g).toNat = k + g.toNat + (-(g + k)).toNat := by omega
  simp only [tens, Nat.pow_eq]
  rw [← Nat.pow_add, ← Nat.pow_add, ← Nat.pow_add, hexponents]

end Tens

namespace Shortest

theorem tens_magnitudeOfTen_le {num den : Nat} (hnum : 0 < num) (hden : 0 < den) :
    tens (magnitudeOfTen num den) * den ≤ num * tens (-magnitudeOfTen num den) := by
  unfold magnitudeOfTen
  by_cases hle : den ≤ num
  · have hquotient : 0 < num / den := Nat.div_pos hle hden
    have hlength := length_pos (num / den)
    have hexponent : ((decimalDigits (num / den)).length : Int) - 1 =
        ((decimalDigits (num / den)).length - 1 : Nat) := by omega
    rw [if_pos hle, hexponent, tens_ofNat, tens_neg_ofNat, Nat.mul_one]
    exact (Nat.le_div_iff_mul_le hden).mp (pow_length_le hquotient)
  · rw [if_neg hle]
    have hlength := length_pos (den / num)
    simp only
    split
    case isTrue hexact =>
      rw [tens_neg_ofNat, Int.neg_neg, tens_ofNat, Nat.one_mul]
      exact Nat.le_of_eq hexact
    case isFalse =>
      have hexponent : -(((decimalDigits (den / num)).length - 1 : Nat) : Int) - 1 =
          -((decimalDigits (den / num)).length : Int) := by omega
      have hlt := (Nat.div_lt_iff_lt_mul hnum).mp (lt_pow_length (den / num))
      rw [hexponent, tens_neg_ofNat, Int.neg_neg, tens_ofNat, Nat.one_mul, Nat.mul_comm]
      exact Nat.le_of_lt hlt

theorem dropZeros_eq (d : Nat) (e : Int) (fuel : Nat) :
    ∃ k : Nat, d = (dropZeros d e fuel).1 * 10 ^ k ∧ (dropZeros d e fuel).2 = e + k := by
  induction fuel generalizing d e with
  | zero => exact ⟨0, (Nat.mul_one d).symm, (Int.add_zero e).symm⟩
  | succ fuel ih =>
    rw [dropZeros]
    by_cases h : d ≠ 0 ∧ d % 10 = 0
    · obtain ⟨k, hd, he⟩ := ih (d / 10) (e + 1)
      rw [if_pos h]
      refine ⟨k + 1, ?_, by omega⟩
      rw [Nat.pow_succ, ← Nat.mul_assoc, ← hd]
      omega
    · rw [if_neg h]
      exact ⟨0, (Nat.mul_one d).symm, (Int.add_zero e).symm⟩

end Shortest

end Liveness

import Liveness.Settings.Basic
/-!
# Settings that pass their check

The checks as predicates, with one field for each fault that they exclude.
-/
namespace Liveness

theorem if_error_eq_ok_iff {ε : Type} {c : Prop} [Decidable c] {fault : ε}
    {rest : Except ε Unit} :
    (if c then .error fault else rest) = .ok () ↔ ¬c ∧ rest = .ok () := by
  by_cases h : c <;> simp [h]

theorem UInt64.ne_zero_iff {n : UInt64} : ¬n = 0 ↔ 0 < n.toNat := by
  rw [← UInt64.toNat_inj, UInt64.toNat_zero]
  omega

theorem UInt32.not_lt_one_iff {n : UInt32} : ¬n < 1 ↔ 0 < n.toNat := by
  rw [UInt32.lt_iff_toNat_lt, UInt32.toNat_one]
  omega

theorem UInt64.not_lt_iff {m n : UInt64} : ¬m < n ↔ n.toNat ≤ m.toNat := by
  rw [UInt64.lt_iff_toNat_lt]
  omega

structure Policy.Valid (p : Policy) : Prop where
  attempts : 0 < p.maxAttempts.toNat
  initial : 0 < p.initialBackoffMs.toNat
  cap : p.initialBackoffMs.toNat ≤ p.maxBackoffMs.toNat
  finite : p.multiplier.isFinite = true
  one_le : p.multiplier.lt .one = false

theorem Policy.check_eq_ok_iff {p : Policy} : p.check = .ok () ↔ p.Valid := by
  simp only [check, if_error_eq_ok_iff, UInt32.not_lt_one_iff, UInt64.ne_zero_iff,
    UInt64.not_lt_iff, Bool.not_eq_true, Bool.or_eq_false_iff, Bool.not_eq_false', and_true]
  constructor
  · rintro ⟨ha, hi, hc, hf, ho⟩
    exact ⟨ha, hi, hc, hf, ho⟩
  · rintro ⟨ha, hi, hc, hf, ho⟩
    exact ⟨ha, hi, hc, hf, ho⟩

/-- The policy counts only if reconnecting is enabled. -/
structure Settings.Valid (s : Settings) : Prop where
  interval : 0 < s.intervalMs.toNat
  timeout : 0 < s.timeoutMs.toNat
  timeout_le : s.timeoutMs.toNat ≤ s.intervalMs.toNat
  failures : 0 < s.failureThreshold.toNat
  successes : 0 < s.successThreshold.toNat
  policy : s.autoReconnect = true → s.policy.Valid

theorem Settings.check_eq_ok_iff {s : Settings} : s.check = .ok () ↔ s.Valid := by
  have hp : (if s.autoReconnect = true then s.policy.check.mapError Fault.policy
      else .ok ()) = .ok () ↔ (s.autoReconnect = true → s.policy.Valid) := by
    have hm : s.policy.check.mapError Fault.policy = .ok () ↔ s.policy.check = .ok () := by
      cases s.policy.check with
      | error fault => exact iff_of_false nofun nofun
      | ok => exact iff_of_true rfl rfl
    by_cases ha : s.autoReconnect = true
    · rw [if_pos ha, hm, Policy.check_eq_ok_iff]
      exact ⟨fun h _ => h, fun h => h ha⟩
    · rw [if_neg ha]
      exact ⟨fun _ h => absurd h ha, fun _ => rfl⟩
  simp only [check, if_error_eq_ok_iff, UInt32.not_lt_one_iff, UInt64.ne_zero_iff,
    UInt64.not_lt_iff, hp]
  constructor
  · rintro ⟨hi, ht, hl, hf, hs, hp⟩
    exact ⟨hi, ht, hl, hf, hs, hp⟩
  · rintro ⟨hi, ht, hl, hf, hs, hp⟩
    exact ⟨hi, ht, hl, hf, hs, hp⟩

end Liveness

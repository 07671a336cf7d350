import Liveness.Backoff
import Mathlib.Algebra.Group.Nat.Defs
/-!
# Draws from random words

A draw takes its words in pairs, one pair a round, and ends with the first round that is accepted. What it
gives lies below its range. Words that are followed by zeros bring every draw to an end, because a round
of zeros is always accepted.
-/
namespace Liveness.Entropy

variable {range v : Nat}

theorem pair_lt (low high : UInt64) : pair low high < 2 ^ 128 := by
  have hlow := low.toNat_lt
  have hhigh := high.toNat_lt
  unfold pair
  simp only [Nat.pow_eq]
  omega

theorem accept?_eq_some_iff {result : Nat} : accept? range v = some result ↔
    v * range % 2 ^ 128 ≤ zone range ∧ v * range / 2 ^ 128 = result := by
  unfold accept?
  simp only [Nat.pow_eq]
  split
  case isTrue h => exact ⟨fun heq => ⟨h, Option.some.inj heq⟩, fun heq => congrArg some heq.2⟩
  case isFalse h => exact ⟨nofun, fun heq => absurd heq.1 h⟩

theorem accept?_lt {result : Nat} (h : accept? range v = some result) (hv : v < 2 ^ 128)
    (hr : 0 < range) : result < range := by
  obtain ⟨-, rfl⟩ := accept?_eq_some_iff.mp h
  exact Nat.div_lt_of_lt_mul (Nat.mul_lt_mul_of_pos_right hv hr)

theorem accept?_zero (range : Nat) : accept? range 0 = some 0 := by
  rw [accept?_eq_some_iff, Nat.zero_mul]
  exact ⟨Nat.zero_le _, rfl⟩

variable {accept : Nat → Option Nat} {stream : Nat → UInt64} {round result : Nat}

def roundOf (stream : Nat → UInt64) (round : Nat) : Nat :=
  pair (stream (2 * round)) (stream (2 * round + 1))

theorem roundOf_zeros (hlow : stream (2 * round) = 0) (hhigh : stream (2 * round + 1) = 0) :
    roundOf stream round = 0 := by
  rw [roundOf, hlow, hhigh]
  simp only [pair, UInt64.toNat_zero, Nat.zero_mul, Nat.zero_add]

structure Ends (accept : Nat → Option Nat) (stream : Nat → UInt64) (round result : Nat) : Prop where
  rejected : ∀ earlier < round, accept (roundOf stream earlier) = none
  accepted : accept (roundOf stream round) = some result

def word (e : Entropy) (i : Nat) : UInt64 := e.words.getD i 0

def after (e : Entropy) (rounds : Nat) : Entropy :=
  ⟨e.words.drop (2 * rounds), e.used + 2 * rounds⟩

theorem after_cons_cons (low high : UInt64) (rest : List UInt64) (used rounds : Nat) :
    after ⟨low :: high :: rest, used⟩ (rounds + 1) = after ⟨rest, used + 2⟩ rounds := by
  unfold after
  rw [Nat.mul_succ, List.drop_succ_cons, List.drop_succ_cons, Nat.add_comm (2 * rounds) 2,
    Nat.add_assoc]

namespace Ends

variable {stream' : Nat → UInt64} {round' result' : Nat}

theorem lt (h : Ends (accept? range) stream round result) (hr : 0 < range) : result < range :=
  accept?_lt h.accepted (pair_lt _ _) hr

theorem unique (h : Ends accept stream round result) (h' : Ends accept stream round' result') :
    round = round' ∧ result = result' := by
  have hround : round = round' := by
    rcases Nat.lt_trichotomy round round' with hlt | heq | hlt
    · cases h.accepted.symm.trans (h'.rejected round hlt)
    · exact heq
    · cases h'.accepted.symm.trans (h.rejected round' hlt)
  subst hround
  exact ⟨rfl, Option.some.inj (h.accepted.symm.trans h'.accepted)⟩

/-- Words beyond the last round do not matter. -/
theorem congr (h : Ends accept stream round result)
    (hsame : ∀ i < 2 * (round + 1), stream i = stream' i) : Ends accept stream' round result := by
  have hround : ∀ k ≤ round, roundOf stream k = roundOf stream' k := by
    intro k hk
    unfold roundOf
    rw [hsame _ (by omega), hsame _ (by omega)]
  constructor
  · intro earlier hlt
    rw [← hround earlier (Nat.le_of_lt hlt)]
    exact h.rejected earlier hlt
  · rw [← hround round (Nat.le_refl _)]
    exact h.accepted

theorem again (hfirst : accept (roundOf stream 0) = none)
    (h : Ends accept (fun i => stream (i + 2)) round result) :
    Ends accept stream (round + 1) result := by
  constructor
  · intro earlier hlt
    cases earlier with
    | zero => exact hfirst
    | succ earlier => exact h.rejected earlier (Nat.lt_of_succ_lt_succ hlt)
  · exact h.accepted

end Ends

/-- The search for a pair that is accepted comes to an end, the words of one round and zeros being
missing for it at the most. -/
theorem firstAccepted_ends (hzero : accept 0 = some 0) (words : List UInt64) (used : Nat) :
    ∃ round, Ends accept (word ⟨words, used⟩) round (firstAccepted accept words used).1 ∧
      (firstAccepted accept words used).2 = after ⟨words, used⟩ (round + 1) ∧
      2 * round ≤ words.length + 1 := by
  have hzeros {words : List UInt64} {used round : Nat} (h : words.length ≤ 2 * round) :
      accept (roundOf (word ⟨words, used⟩) round) = some 0 := by
    have hword {i : Nat} (hi : 2 * round ≤ i) : word ⟨words, used⟩ i = 0 := by
      rw [word, List.getD_eq_getElem?_getD, List.getElem?_eq_none (Nat.le_trans h hi)]
      rfl
    rw [roundOf_zeros (hword (Nat.le_refl _)) (hword (Nat.le_succ _)), hzero]
  fun_induction firstAccepted accept words used with
  | case1 low high rest used n haccept => exact ⟨0, ⟨nofun, haccept⟩, rfl, Nat.zero_le _⟩
  | case2 low high rest used hreject ih =>
    obtain ⟨round, hends, hafter, hround⟩ := ih
    refine ⟨round + 1, .again hreject hends, ?_, ?_⟩
    · rw [hafter, after_cons_cons]
    · simp only [List.length_cons]
      omega
  | case3 low used n haccept => exact ⟨0, ⟨nofun, haccept⟩, rfl, Nat.zero_le _⟩
  | case4 low used hreject =>
    refine ⟨1, ⟨?_, hzeros (by simp)⟩, rfl, Nat.le_refl _⟩
    intro earlier hlt
    cases Nat.lt_one_iff.mp hlt
    exact hreject
  | case5 used => exact ⟨0, ⟨nofun, hzeros (by simp)⟩, rfl, Nat.zero_le _⟩

def ofRounds (stream : Nat → UInt64) (rounds : Nat) : Entropy :=
  ofWords ((List.range (2 * rounds)).map stream)

theorem word_ofRounds {rounds i : Nat} (hi : i < 2 * rounds) :
    (ofRounds stream rounds).word i = stream i := by
  simp [word, ofRounds, ofWords, hi]

theorem draw_ends (range : Nat) (e : Entropy) : ∃ round result,
    Ends (accept? range) e.word round result ∧ e.draw range = (result, e.after (round + 1)) ∧
      2 * round ≤ e.words.length + 1 := by
  obtain ⟨round, hends, hafter, hround⟩ :=
    firstAccepted_ends (accept?_zero range) e.words e.used
  exact ⟨round, _, hends, Prod.ext rfl hafter, hround⟩

theorem draw_accepted {low high : UInt64} (h : accept? range (pair low high) = some result)
    (rest : List UInt64) (used : Nat) :
    draw range ⟨low :: high :: rest, used⟩ = (result, ⟨rest, used + 2⟩) := by
  rw [draw, firstAccepted, h]

theorem draw_rejected {low high : UInt64} (h : accept? range (pair low high) = none)
    (rest : List UInt64) (used : Nat) :
    draw range ⟨low :: high :: rest, used⟩ = draw range ⟨rest, used + 2⟩ := by
  rw [draw, firstAccepted, h, draw]

/-- A draw that ends on a stream needs the words of its rounds only, and all of them. -/
theorem Ends.draw_ofRounds (h : Ends (accept? range) stream round result) :
    (ofRounds stream (round + 1)).draw range = (result, ⟨[], 2 * (round + 1)⟩) := by
  obtain ⟨round', result', hends, hdraw, -⟩ := draw_ends range (ofRounds stream (round + 1))
  obtain ⟨rfl, rfl⟩ := hends.unique (h.congr fun i hi => (word_ofRounds hi).symm)
  have hspent : (ofRounds stream (round' + 1)).after (round' + 1) = ⟨[], 2 * (round' + 1)⟩ := by
    simp [after, ofRounds, ofWords]
  rw [hdraw, hspent]

end Liveness.Entropy

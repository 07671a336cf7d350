import Liveness.Numeric.Binary64
/-!
# Decimal numerals

Numbers as they are written: whole part, digits after the point, power of ten. A numeral has a
canonical spelling, an exact value, and a nearest double.
-/
namespace Liveness

/-- The decimal digits of a number, the most significant first; zero has one digit. -/
def decimalDigits (n : Nat) : List (Fin 10) :=
  if h : n < 10 then [⟨n, h⟩]
  else decimalDigits (n / 10) ++ [⟨n % 10, Nat.mod_lt _ (by decide)⟩]
termination_by n
decreasing_by omega

def ofDecimalDigits (ds : List (Fin 10)) : Nat := ds.foldl (fun n d => 10 * n + d.val) 0

def digitChar (d : Fin 10) : Char := Char.ofNat (48 + d.val)

def digitOf? (c : Char) : Option (Fin 10) :=
  if h : 48 ≤ c.toNat ∧ c.toNat < 58 then some ⟨c.toNat - 48, by omega⟩ else none

def hexDigitOf? (c : Char) : Option Nat :=
  if '0' ≤ c ∧ c ≤ '9' then some (c.toNat - 48)
  else if 'a' ≤ c ∧ c ≤ 'f' then some (c.toNat - 87)
  else if 'A' ≤ c ∧ c ≤ 'F' then some (c.toNat - 55)
  else none

theorem ofDecimalDigits_append_singleton (ds : List (Fin 10)) (d : Fin 10) :
    ofDecimalDigits (ds ++ [d]) = 10 * ofDecimalDigits ds + d.val := by
  simp [ofDecimalDigits]

theorem ofDecimalDigits_decimalDigits (n : Nat) : ofDecimalDigits (decimalDigits n) = n := by
  induction n using Nat.strongRecOn with
  | ind n ih =>
    rw [decimalDigits]
    split
    · simp [ofDecimalDigits]
    · rw [ofDecimalDigits_append_singleton, ih _ (by omega)]
      simp only
      omega

/-- A number as written. `exponent` is absent, not zero, when no power of ten is written. -/
structure Numeral where
  negative : Bool
  whole : Nat
  fraction : List (Fin 10)
  exponent : Option Int
deriving DecidableEq

structure Decimal where
  negative : Bool
  coefficient : Nat
  exponent : Int
deriving DecidableEq

namespace Decimal

/-- Beyond this power of ten no nonzero double is left, on either side. -/
def farExponent : Int := 400

/-- The nearest double. Powers of ten beyond the range of doubles are not computed. -/
def toBinary64 (d : Decimal) : Binary64 :=
  let top := d.exponent + (decimalDigits d.coefficient).length
  if d.coefficient = 0 || top < -farExponent then Binary64.signedZero d.negative
  else if farExponent < top then .infinite d.negative
  else Binary64.ofUnits d.negative
    (d.coefficient * Nat.pow 10 d.exponent.toNat * Binary64.unitsPerOne)
    (Nat.pow 10 (-d.exponent).toNat)

end Decimal

namespace Numeral

def ofNat (n : Nat) : Numeral := ⟨false, n, [], none⟩

def isIntegral (n : Numeral) : Bool := n.fraction.isEmpty && n.exponent.isNone

def toDecimal (n : Numeral) : Decimal :=
  { negative := n.negative
    coefficient := ofDecimalDigits (decimalDigits n.whole ++ n.fraction)
    exponent := n.exponent.getD 0 - n.fraction.length }

def toBinary64 (n : Numeral) : Binary64 := n.toDecimal.toBinary64

/-- The natural number that is written, if it is one: a minus sign makes it none, even before 0. -/
def natural? (n : Numeral) : Option Nat :=
  if n.isIntegral && !n.negative then some n.whole else none

def digitChars (ds : List (Fin 10)) : List Char := ds.map digitChar

def exponentChars (plus : List Char) : Option Int → List Char
  | none => []
  | some (.ofNat e) => 'e' :: plus ++ digitChars (decimalDigits e)
  | some (.negSucc e) => 'e' :: '-' :: digitChars (decimalDigits (e + 1))

/-- The canonical spelling, character by character. `plus` is written before a power of ten that is
not negative. -/
def chars (plus : List Char) (n : Numeral) : List Char :=
  (if n.negative then ['-'] else []) ++ digitChars (decimalDigits n.whole) ++
    (if n.fraction.isEmpty then [] else '.' :: digitChars n.fraction) ++
    exponentChars plus n.exponent

end Numeral

end Liveness

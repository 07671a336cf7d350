/-!
# Doubles

The 64-bit binary floating-point numbers and the operations on them that the library needs,
computed exactly on natural numbers and rounded once, to the nearest double, a tie going to
the even one. `units` reads a finite double as a multiple of the least positive one, 2^-1074.
-/
namespace Liveness

/-- A double; all NaNs are one. A finite one is read from its exponent and fraction fields. -/
inductive Binary64 where
  | nan
  | infinite (negative : Bool)
  | finite (negative : Bool) (exponent : Fin 2047) (fraction : Fin (Nat.pow 2 52))
deriving DecidableEq

/-- The integer nearest to `num / den`, the even one of two that are equally near. -/
def roundQuotient (num den : Nat) : Nat :=
  let quotient := num / den
  let rest := num % den
  if 2 * rest < den then quotient
  else if den < 2 * rest then quotient + 1
  else quotient + quotient % 2

namespace Binary64

/-- Units in one: the least positive double is 2^-1074. -/
def unitsPerOne : Nat := Nat.pow 2 1074

def zero : Binary64 := .finite false 0 0

instance : Inhabited Binary64 := ⟨zero⟩

def signedZero (negative : Bool) : Binary64 := .finite negative 0 0

def magnitude (exponent : Fin 2047) (fraction : Fin (Nat.pow 2 52)) : Nat :=
  if exponent.val = 0 then fraction.val
  else (Nat.pow 2 52 + fraction.val) * Nat.pow 2 (exponent.val - 1)

/-- The double of magnitude `mantissa * 2 ^ shift` units, for a mantissa up to 2^53 which is at
least 2^52 unless `shift` is zero. -/
def ofMantissa (negative : Bool) (mantissa shift : Nat) : Binary64 :=
  let (m, s) := if mantissa = Nat.pow 2 53 then (Nat.pow 2 52, shift + 1) else (mantissa, shift)
  if m < Nat.pow 2 52 then .finite negative 0 ⟨m % Nat.pow 2 52, Nat.mod_lt _ (by decide)⟩
  else if h : s + 1 < 2047 then
    .finite negative ⟨s + 1, h⟩ ⟨(m - Nat.pow 2 52) % Nat.pow 2 52, Nat.mod_lt _ (by decide)⟩
  else .infinite negative

def ofUnits (negative : Bool) (num den : Nat) : Binary64 :=
  let shift := (num / den).log2 - 52
  ofMantissa negative (roundQuotient num (den * Nat.pow 2 shift)) shift

def ofNat (n : Nat) : Binary64 := ofUnits false (n * unitsPerOne) 1

def ofInt (n : Int) : Binary64 := ofUnits (n < 0) (n.natAbs * unitsPerOne) 1

def one : Binary64 := ofNat 1

def isFinite : Binary64 → Bool
  | .finite .. => true
  | _ => false

def neg : Binary64 → Binary64
  | .nan => .nan
  | .infinite s => .infinite !s
  | .finite s e f => .finite (!s) e f

def signedUnits (negative : Bool) (e : Fin 2047) (f : Fin (Nat.pow 2 52)) : Int :=
  if negative then -(magnitude e f : Int) else magnitude e f

/-- The sum. Two opposite numbers add up to the positive zero, two negative zeros to a negative one. -/
def add : Binary64 → Binary64 → Binary64
  | .nan, _ | _, .nan => .nan
  | .infinite s, .infinite t => if s = t then .infinite s else .nan
  | .infinite s, .finite .. => .infinite s
  | .finite .., .infinite t => .infinite t
  | .finite s e f, .finite t g h =>
    let sum := signedUnits s e f + signedUnits t g h
    ofUnits (decide (sum < 0) || (decide (sum = 0) && s && t)) sum.natAbs 1

def sub (a b : Binary64) : Binary64 := a.add b.neg

def mul : Binary64 → Binary64 → Binary64
  | .nan, _ | _, .nan => .nan
  | .infinite s, .infinite t => .infinite (s != t)
  | .infinite s, .finite t e f | .finite t e f, .infinite s =>
    if magnitude e f = 0 then .nan else .infinite (s != t)
  | .finite s e f, .finite t g h =>
    ofUnits (s != t) (magnitude e f * magnitude g h) unitsPerOne

def div : Binary64 → Binary64 → Binary64
  | .nan, _ | _, .nan => .nan
  | .infinite _, .infinite _ => .nan
  | .infinite s, .finite t _ _ => .infinite (s != t)
  | .finite s _ _, .infinite t => signedZero (s != t)
  | .finite s e f, .finite t g h =>
    if magnitude g h = 0 then
      if magnitude e f = 0 then .nan else .infinite (s != t)
    else ofUnits (s != t) (magnitude e f * unitsPerOne) (magnitude g h)

/-- Numerical comparison: false when either side is NaN; the two zeros are equal. -/
def lt : Binary64 → Binary64 → Bool
  | .nan, _ | _, .nan => false
  | .infinite s, .infinite t => s && !t
  | .infinite s, .finite .. => s
  | .finite .., .infinite t => !t
  | .finite s e f, .finite t g h => signedUnits s e f < signedUnits t g h

/-- Numerical equality: NaN differs from itself and the two zeros are equal. -/
def numEq : Binary64 → Binary64 → Bool
  | .nan, _ | _, .nan => false
  | .infinite s, .infinite t => s == t
  | .infinite _, .finite .. | .finite .., .infinite _ => false
  | .finite s e f, .finite t g h => signedUnits s e f == signedUnits t g h

/-- The lesser of two numbers; a NaN operand is ignored. -/
def minNumber (a b : Binary64) : Binary64 :=
  if a = .nan then b
  else if b = .nan then a
  else if b.lt a then b else a

/-- The integer part, brought into the range of 64-bit unsigned integers; NaN counts as zero. -/
def truncate : Binary64 → UInt64
  | .nan | .infinite true | .finite true _ _ => 0
  | .infinite false => UInt64.ofNat (Nat.pow 2 64 - 1)
  | .finite false e f => UInt64.ofNat (min (magnitude e f / unitsPerOne) (Nat.pow 2 64 - 1))

/-- `acc * base ^ n`, the squares being taken one after another and none after the last one used. -/
def powAux (acc base : Binary64) (n : Nat) : Binary64 :=
  let acc := if n % 2 = 1 then acc.mul base else acc
  if n / 2 = 0 then acc else powAux acc (base.mul base) (n / 2)
termination_by n
decreasing_by omega

def pow (base : Binary64) (n : Nat) : Binary64 := powAux one base n

/-- The 64 bits of the interchange format; for NaN, those of the quiet one without payload. -/
def toBits : Binary64 → UInt64
  | .nan => 0x7ff8000000000000
  | .infinite negative => UInt64.ofNat ((if negative then Nat.pow 2 63 else 0) + 2047 * Nat.pow 2 52)
  | .finite negative e f =>
    UInt64.ofNat ((if negative then Nat.pow 2 63 else 0) + e.val * Nat.pow 2 52 + f.val)

end Binary64

end Liveness

import Liveness.Numeric.Numeral
/-!
# Shortest decimals

The fewest significant digits that still read back as the same double and, among decimals of
that length, the nearest one; and the layouts in which such decimals are written.
-/
namespace Liveness

inductive Tie where
  | toEven
  | up
deriving DecidableEq

namespace Shortest

/-- The largest `k` with `10 ^ k ≤ num / den`, for positive `num` and `den`. -/
def magnitudeOfTen (num den : Nat) : Int :=
  if den ≤ num then ((decimalDigits (num / den)).length : Int) - 1
  else
    let floor := (decimalDigits (den / num)).length - 1
    if den = num * Nat.pow 10 floor then -(floor : Int) else -(floor : Int) - 1

/-- The values that read back as one double: a closed or open interval, in quarters of a unit. -/
structure Interval where
  low : Nat
  high : Nat
  closed : Bool

/-- Half way to either neighbour; below a power of two the gap is half as wide. The ends belong to
the interval when the fraction is even. -/
def interval (e : Fin 2047) (f : Fin (Nat.pow 2 52)) : Interval :=
  let units := Binary64.magnitude e f
  let gap := Nat.pow 2 (e.val - 1)
  let narrow := f.val = 0 ∧ 1 < e.val
  { low := 4 * units - (if narrow then gap else 2 * gap)
    high := 4 * units + 2 * gap
    closed := f.val % 2 = 0 }

def quartersPerOne : Nat := 4 * Binary64.unitsPerOne

def Interval.holds (i : Interval) (d : Nat) (grid : Int) : Bool :=
  let value := d * Nat.pow 10 grid.toNat * quartersPerOne
  let scale := Nat.pow 10 (-grid).toNat
  if i.closed then i.low * scale ≤ value && value ≤ i.high * scale
  else i.low * scale < value && value < i.high * scale

/-- The decimal of the grid `10 ^ grid` that reads back, the nearest if there are two. -/
def onGrid? (tie : Tie) (i : Interval) (units : Nat) (grid : Int) : Option Nat :=
  let num := units * Nat.pow 10 (-grid).toNat
  let den := Nat.pow 10 grid.toNat * Binary64.unitsPerOne
  let below := num / den
  let rest := num % den
  match i.holds below grid, i.holds (below + 1) grid with
  | false, false => none
  | true, false => some below
  | false, true => some (below + 1)
  | true, true =>
    if 2 * rest < den then some below
    else if den < 2 * rest then some (below + 1)
    else match tie with
      | .up => some (below + 1)
      | .toEven => some (below + below % 2)

/-- Tries `digits`, `digits + 1`, … significant digits; the grid of one unit always has a hit. -/
def search (tie : Tie) (i : Interval) (units : Nat) (top : Int) (digits : Nat) : Nat → Nat × Int
  | 0 => (units, 0)
  | tries + 1 =>
    let grid := top - digits + 1
    match onGrid? tie i units grid with
    | some d => (d, grid)
    | none => search tie i units top (digits + 1) tries

def dropZeros (d : Nat) (e : Int) : Nat → Nat × Int
  | 0 => (d, e)
  | fuel + 1 => if d ≠ 0 ∧ d % 10 = 0 then dropZeros (d / 10) (e + 1) fuel else (d, e)

def decimal (tie : Tie) (e : Fin 2047) (f : Fin (Nat.pow 2 52)) : Nat × Int :=
  let units := Binary64.magnitude e f
  let top := magnitudeOfTen units Binary64.unitsPerOne
  let (d, grid) := search tie (interval e f) units top 1 17
  dropZeros d grid 17

end Shortest

/-- How a double is laid out as a numeral: where positional writing ends on both sides, given by the
number of digits before the point, and whether an integer still gets a digit after the point. -/
structure FloatLayout where
  tie : Tie
  least : Option Int
  most : Option Int
  pointAlways : Bool

namespace FloatLayout

def isPositional (l : FloatLayout) (point : Int) : Bool :=
  l.least.all (· ≤ point) && l.most.all (point ≤ ·)

def positional (l : FloatLayout) (negative : Bool) (digits : List (Fin 10)) (point : Int) :
    Numeral :=
  let padded := digits ++ List.replicate (point.toNat - digits.length) 0
  let fraction := List.replicate (-point).toNat 0 ++ padded.drop point.toNat
  { negative
    whole := ofDecimalDigits (padded.take point.toNat)
    fraction := if fraction.isEmpty && l.pointAlways then [0] else fraction
    exponent := none }

def scientific (negative : Bool) (digits : List (Fin 10)) (point : Int) : Numeral :=
  { negative
    whole := ofDecimalDigits (digits.take 1)
    fraction := digits.drop 1
    exponent := some (point - 1) }

def numeral? (l : FloatLayout) : Binary64 → Option Numeral
  | .nan | .infinite _ => none
  | .finite negative e f =>
    if Binary64.magnitude e f = 0 then some (l.positional negative [0] 1)
    else
      let (coefficient, exponent) := Shortest.decimal l.tie e f
      let digits := decimalDigits coefficient
      let point := exponent + digits.length
      some (if l.isPositional point then l.positional negative digits point
        else scientific negative digits point)

/-- The text of any double, no sign before a power of ten unless it is negative. -/
def text (l : FloatLayout) (x : Binary64) : String :=
  match l.numeral? x, x with
  | some n, _ => String.ofList (n.chars [])
  | none, .infinite false => "inf"
  | none, .infinite true => "-inf"
  | none, _ => "NaN"

def plain : FloatLayout := ⟨.up, none, none, false⟩

/-- From 10^-5 up to 10^16 positional, with a point in every case. -/
def document : FloatLayout := ⟨.toEven, some (-4), some 16, true⟩

/-- From 10^-4 up to 10^16 positional, with a point in every case. -/
def inspection : FloatLayout := ⟨.up, some (-3), some 16, true⟩

end FloatLayout

end Liveness

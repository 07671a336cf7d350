/-!
# Durations

Spans of time in whole nanoseconds. The type holds the same range on every path: at most
2^64 - 1 seconds and 999999999 nanoseconds. Addition can leave that range and then has no
result; subtraction stops at zero. Instants are durations since a fixed origin.
-/
namespace Liveness

/-- The first number of nanoseconds that is too long for a duration. -/
def Duration.limit : Nat := Nat.pow 2 64 * 1000000000

theorem Duration.limit_eq : Duration.limit = 18446744073709551616 * 1000000000 := rfl

structure Duration where
  nanos : Nat
  nanos_lt : nanos < Duration.limit
deriving DecidableEq

namespace Duration

def zero : Duration := ⟨0, by decide⟩

instance : Inhabited Duration := ⟨zero⟩

instance : LE Duration := ⟨fun a b => a.nanos ≤ b.nanos⟩

instance : LT Duration := ⟨fun a b => a.nanos < b.nanos⟩

instance (a b : Duration) : Decidable (a ≤ b) := inferInstanceAs (Decidable (a.nanos ≤ b.nanos))

instance (a b : Duration) : Decidable (a < b) := inferInstanceAs (Decidable (a.nanos < b.nanos))

def clampNanos (n : Nat) : Duration :=
  if h : n < limit then ⟨n, h⟩ else ⟨limit - 1, by decide⟩

/-- A point of the millisecond clock, as a duration since the origin. -/
def clampMillis (ms : Nat) : Duration := clampNanos (ms * 1000000)

theorem millis_lt_limit (ms : UInt64) : ms.toNat * 1000000 < limit := by
  have := ms.toNat_lt
  rw [limit_eq]
  omega

def ofMillis (ms : UInt64) : Duration := ⟨ms.toNat * 1000000, millis_lt_limit ms⟩

def ofParts? (secs : UInt64) (subsecNanos : Nat) : Option Duration :=
  if h : subsecNanos < 1000000000 then
    some ⟨secs.toNat * 1000000000 + subsecNanos, by
      have := secs.toNat_lt
      rw [limit_eq]
      omega⟩
  else none

def add? (a b : Duration) : Option Duration :=
  if h : a.nanos + b.nanos < limit then some ⟨a.nanos + b.nanos, h⟩ else none

/-- The time from `b` to `a`, zero if `a` comes first. -/
def since (a b : Duration) : Duration :=
  ⟨a.nanos - b.nanos, Nat.lt_of_le_of_lt (Nat.sub_le ..) a.nanos_lt⟩

def secs (d : Duration) : Nat := d.nanos / 1000000000

def subsecNanos (d : Duration) : Nat := d.nanos % 1000000000

def wholeMillis (d : Duration) : Nat := d.nanos / 1000000

/-- Milliseconds on the clock until the duration is over: a begun millisecond counts. -/
def millisUp (d : Duration) : Nat := (d.nanos + 999999) / 1000000

/-- The digits after the point of `rest / 10 ^ places`, without zeros at the end. -/
def fractionText (rest : Nat) : Nat → String
  | 0 => ""
  | places + 1 =>
    if rest = 0 then ""
    else toString (rest / Nat.pow 10 places) ++ fractionText (rest % Nat.pow 10 places) places

def decimalText (value places : Nat) (unitName : String) : String :=
  let fraction := fractionText (value % Nat.pow 10 places) places
  let point := if fraction.isEmpty then "" else "."
  toString (value / Nat.pow 10 places) ++ point ++ fraction ++ unitName

/-- The exact decimal in the largest unit of s, ms, µs and ns that makes it at least one. -/
def text (d : Duration) : String :=
  if 1000000000 ≤ d.nanos then decimalText d.nanos 9 "s"
  else if 1000000 ≤ d.nanos then decimalText d.nanos 6 "ms"
  else if 1000 ≤ d.nanos then decimalText d.nanos 3 "µs"
  else decimalText d.nanos 0 "ns"

theorem nanos_inj {a b : Duration} (h : a.nanos = b.nanos) : a = b := by
  cases a
  cases b
  cases h
  rfl

theorem nanos_since (a b : Duration) : (a.since b).nanos = a.nanos - b.nanos := rfl

theorem nanos_add? {a b c : Duration} (h : a.add? b = some c) :
    c.nanos = a.nanos + b.nanos := by
  unfold add? at h
  split at h
  · simp only [Option.some.injEq] at h
    rw [← h]
  · simp at h

theorem add?_eq_none_iff {a b : Duration} : a.add? b = none ↔ limit ≤ a.nanos + b.nanos := by
  unfold add?
  split <;> simp <;> omega

end Duration

abbrev Instant := Duration

end Liveness

import Liveness.Numeric.Numeral
/-!
# JSON documents

The tree of a JSON text. Strings are texts of characters; a string whose escapes leave a
surrogate without its partner stands for no text at all and is kept as `none`, so that a reader
can pass over it but not use it. Numbers keep the form in which they are written.
-/
namespace Liveness

inductive Json where
  | null
  | bool (b : Bool)
  | number (n : Numeral)
  | string (s : Option String)
  | array (items : List Json)
  | object (members : List (Option String × Json))

namespace Json

instance : Inhabited Json := ⟨null⟩

def nat (n : Nat) : Json := number (.ofNat n)

def str (s : String) : Json := string (some s)

def record (members : List (String × Json)) : Json :=
  object (members.map fun (key, value) => (some key, value))

/-- The value of the last member with this key. -/
def get? (key : String) : Json → Option Json
  | object members => (members.reverse.find? (·.1 = some key)).map (·.2)
  | _ => none

def natBelow? (bound : Nat) : Json → Option Nat
  | number n => n.natural?.filter (· < bound)
  | _ => none

def uint32? (j : Json) : Option UInt32 := (j.natBelow? (Nat.pow 2 32)).map UInt32.ofNat

def uint64? (j : Json) : Option UInt64 := (j.natBelow? (Nat.pow 2 64)).map UInt64.ofNat

def bool? : Json → Option Bool
  | bool b => some b
  | _ => none

/-- The double that the written number is read as; one beyond the finite doubles is refused. Readers
differ in how they round. -/
def double? (read : Numeral → Binary64) : Json → Option Binary64
  | number n => some (read n) |>.filter Binary64.isFinite
  | _ => none

def string? : Json → Option String
  | string s => s
  | _ => none

end Json

end Liveness

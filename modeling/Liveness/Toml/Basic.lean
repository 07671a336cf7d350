import Liveness.Numeric.Binary64
/-!
# TOML documents

The values of a TOML text. Dates and times keep only that they are there. Each table remembers how
it came into being, because that decides which later lines may still add to it.
-/
namespace Liveness

inductive Toml.Form where
  /-- Named by a header of its own, or the document itself. -/
  | header
  /-- Named only on the way to another header. -/
  | implied
  /-- Named only on the way to a dotted key. -/
  | dotted
  /-- Written between braces; nothing can be added to it. -/
  | inline
deriving DecidableEq

inductive Toml where
  | string (s : String)
  | integer (n : Int)
  | float (x : Binary64)
  | bool (b : Bool)
  | dateTime
  | array (items : List Toml)
  /-- The tables under headers in double brackets, in order. -/
  | tableArray (tables : List (List (String × Toml)))
  | table (form : Toml.Form) (entries : List (String × Toml))

namespace Toml

instance : Inhabited Toml := ⟨dateTime⟩

abbrev Entries := List (String × Toml)

def Entries.get? (key : String) (es : Entries) : Option Toml := es.lookup key

def Entries.set (key : String) (value : Toml) (es : Entries) : Entries :=
  es.map fun entry => if entry.1 = key then (key, value) else entry

def Entries.insert? (key : String) (value : Toml) (es : Entries) : Option Entries :=
  if (es.get? key).isSome then none else some (es ++ [(key, value)])

/-- Changes the table at the end of a path. Tables on the way that are missing come into being,
`dotted` if the path is that of a dotted key, which on its part may not lead through a table with a
header of its own. A table array stands for its last table. -/
def Entries.modifyAt (dotted : Bool) (change : Form → Entries → Option Entries) :
    List String → Form → Entries → Option Entries
  | [], form, es => change form es
  | key :: path, _, es =>
    match es.get? key with
    | none => do
      let form := if dotted then .dotted else .implied
      let entries ← Entries.modifyAt dotted change path form []
      return es ++ [(key, .table form entries)]
    | some (.table .inline _) => none
    | some (.table form entries) => do
      if dotted && form = .header then none
      else return es.set key (.table form (← Entries.modifyAt dotted change path form entries))
    | some (.tableArray tables) =>
      match tables.getLast? with
      | none => none
      | some last => do
        let last ← Entries.modifyAt dotted change path .header last
        return es.set key (.tableArray (tables.dropLast ++ [last]))
    | some _ => none

def Entries.insertDotted? (path : List String) (key : String) (value : Toml) (form : Form)
    (es : Entries) : Option Entries :=
  es.modifyAt true
    (fun reached entries =>
      if (reached = .dotted) = path.isEmpty then none else entries.insert? key value)
    path form

def natBelow? (bound : Nat) : Toml → Option Nat
  | integer n => if 0 ≤ n ∧ n < bound then some n.toNat else none
  | _ => none

def uint32? (t : Toml) : Option UInt32 := (t.natBelow? (Nat.pow 2 32)).map UInt32.ofNat

def uint64? (t : Toml) : Option UInt64 := (t.natBelow? (Nat.pow 2 64)).map UInt64.ofNat

def bool? : Toml → Option Bool
  | bool b => some b
  | _ => none

def double? : Toml → Option Binary64
  | float x => some x
  | integer n => some (Binary64.ofInt n)
  | _ => none

end Toml

end Liveness

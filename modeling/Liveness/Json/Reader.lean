import Liveness.Json.Basic
/-!
# Reading JSON

One document with blanks around it and nothing after it. Scanners work on the characters that are
left and return what they have not used.
-/
namespace Liveness.Json

def isBlank (c : Char) : Bool := c = ' ' || c = '\t' || c = '\n' || c = '\r'

def skipBlanks (cs : List Char) : List Char := cs.dropWhile isBlank

def spanDigits : List Char → List (Fin 10) × List Char
  | [] => ([], [])
  | c :: cs =>
    match digitOf? c with
    | some d => let (ds, rest) := spanDigits cs; (d :: ds, rest)
    | none => ([], c :: cs)

def readWhole (cs : List Char) : Option (Nat × List Char) :=
  match spanDigits cs with
  | ([], _) => none
  | (d :: ds, rest) => if d.val = 0 ∧ ds ≠ [] then none else some (ofDecimalDigits (d :: ds), rest)

def readFraction : List Char → Option (List (Fin 10) × List Char)
  | '.' :: cs =>
    match spanDigits cs with
    | ([], _) => none
    | digits => some digits
  | cs => some ([], cs)

def readExponent : List Char → Option (Option Int × List Char)
  | c :: cs =>
    if c = 'e' ∨ c = 'E' then
      let (negative, cs) := match cs with
        | '-' :: cs => (true, cs)
        | '+' :: cs => (false, cs)
        | cs => (false, cs)
      match spanDigits cs with
      | ([], _) => none
      | (ds, rest) =>
        let e : Int := ofDecimalDigits ds
        some (some (if negative then -e else e), rest)
    else some (none, c :: cs)
  | [] => some (none, [])

def readNumeral (cs : List Char) : Option (Numeral × List Char) := do
  let (negative, cs) := match cs with
    | '-' :: cs => (true, cs)
    | cs => (false, cs)
  let (whole, cs) ← readWhole cs
  let (fraction, cs) ← readFraction cs
  let (exponent, cs) ← readExponent cs
  return (⟨negative, whole, fraction, exponent⟩, cs)

def hex4? (a b c d : Char) : Option Nat := do
  return (((← hexDigitOf? a) * 16 + (← hexDigitOf? b)) * 16 + (← hexDigitOf? c)) * 16 + (← hexDigitOf? d)

def shortEscape? (c : Char) : Option Nat :=
  match c with
  | '\"' => some 34
  | '\\' => some 92
  | '/' => some 47
  | 'b' => some 8
  | 'f' => some 12
  | 'n' => some 10
  | 'r' => some 13
  | 't' => some 9
  | _ => none

/-- The code units up to the closing quote; surrogates come from escapes alone. -/
def readUnits : List Char → Option (List Nat × List Char)
  | [] => none
  | '\"' :: cs => some ([], cs)
  | '\\' :: 'u' :: a :: b :: c :: d :: cs => do
    let unit ← hex4? a b c d
    let (units, rest) ← readUnits cs
    return (unit :: units, rest)
  | '\\' :: c :: cs => do
    let unit ← shortEscape? c
    let (units, rest) ← readUnits cs
    return (unit :: units, rest)
  | c :: cs =>
    if c.toNat < 32 ∨ c = '\\' then none
    else do
      let (units, rest) ← readUnits cs
      return (c.toNat :: units, rest)

/-- Joins each leading surrogate with the trailing one after it; none if one stands alone. -/
def joinSurrogates : List Nat → Option (List Char)
  | [] => some []
  | u :: us =>
    if 0xd800 ≤ u ∧ u < 0xdc00 then
      match us with
      | v :: vs =>
        if 0xdc00 ≤ v ∧ v < 0xe000 then
          (joinSurrogates vs).map (Char.ofNat (0x10000 + (u - 0xd800) * 0x400 + (v - 0xdc00)) :: ·)
        else none
      | [] => none
    else if 0xdc00 ≤ u ∧ u < 0xe000 then none
    else (joinSurrogates us).map (Char.ofNat u :: ·)

def readString (cs : List Char) : Option (Option String × List Char) := do
  let (units, rest) ← readUnits cs
  return ((joinSurrogates units).map String.ofList, rest)

mutual

def readValue : Nat → List Char → Option (Json × List Char)
  | 0, _ => none
  | fuel + 1, cs =>
    match cs with
    | 'n' :: 'u' :: 'l' :: 'l' :: rest => some (null, rest)
    | 't' :: 'r' :: 'u' :: 'e' :: rest => some (bool true, rest)
    | 'f' :: 'a' :: 'l' :: 's' :: 'e' :: rest => some (bool false, rest)
    | '\"' :: rest => do
      let (s, rest) ← readString rest
      return (string s, rest)
    | '[' :: rest =>
      match skipBlanks rest with
      | ']' :: rest => some (array [], rest)
      | rest => do
        let (items, rest) ← readItems fuel rest
        return (array items, rest)
    | '\x7b' :: rest =>
      match skipBlanks rest with
      | '\x7d' :: rest => some (object [], rest)
      | rest => do
        let (members, rest) ← readMembers fuel rest
        return (object members, rest)
    | cs => do
      let (n, rest) ← readNumeral cs
      return (number n, rest)

def readItems : Nat → List Char → Option (List Json × List Char)
  | 0, _ => none
  | fuel + 1, cs => do
    let (item, rest) ← readValue fuel (skipBlanks cs)
    match skipBlanks rest with
    | ',' :: rest =>
      let (items, rest) ← readItems fuel rest
      return (item :: items, rest)
    | ']' :: rest => return ([item], rest)
    | _ => none

def readMembers : Nat → List Char → Option (List (Option String × Json) × List Char)
  | 0, _ => none
  | fuel + 1, cs =>
    match skipBlanks cs with
    | '\"' :: rest => do
      let (key, rest) ← readString rest
      match skipBlanks rest with
      | ':' :: rest =>
        let (value, rest) ← readValue fuel (skipBlanks rest)
        match skipBlanks rest with
        | ',' :: rest =>
          let (members, rest) ← readMembers fuel rest
          return ((key, value) :: members, rest)
        | '\x7d' :: rest => return ([(key, value)], rest)
        | _ => none
      | _ => none
    | _ => none

end

/-- The document that a text holds. Nesting and length are bounded by the text's own length. -/
def parse? (s : String) : Option Json :=
  let cs := s.toList
  match readValue (2 * cs.length + 1) (skipBlanks cs) with
  | some (j, rest) => if (skipBlanks rest).isEmpty then some j else none
  | none => none

end Liveness.Json

import Liveness.Toml.Basic
import Liveness.Numeric.Numeral
/-!
# Scalars of TOML

Strings in their four spellings, numbers, and dates. Every scanner takes the characters that are
left and returns its value with those it has not used.
-/
namespace Liveness.Toml

abbrev Scanner (α : Type) := List Char → Option (α × List Char)

def isBlank (c : Char) : Bool := c = ' ' || c = '\t'

def skipBlanks (cs : List Char) : List Char := cs.dropWhile isBlank

def isTextChar (c : Char) : Bool := c = '\t' || (32 ≤ c.toNat && c.toNat ≠ 127)

def digitBelow? (base : Nat) (c : Char) : Option Nat :=
  (digitOf? c).bind fun d => if d.val < base then some d.val else none

/-! ## Strings -/

def readCode (count : Nat) : Scanner Char := fun cs => do
  let digits ← (cs.take count).mapM hexDigitOf?
  if digits.length ≠ count then none
  else
    let code := digits.foldl (fun n d => 16 * n + d) 0
    if code.isValidChar then some (Char.ofNat code, cs.drop count) else none

def readEscape : Scanner Char
  | 'b' :: cs => some ('\x08', cs)
  | 'f' :: cs => some ('\x0c', cs)
  | 'n' :: cs => some ('\n', cs)
  | 'r' :: cs => some ('\r', cs)
  | 't' :: cs => some ('\t', cs)
  | '\"' :: cs => some ('\"', cs)
  | '\\' :: cs => some ('\\', cs)
  | 'u' :: cs => readCode 4 cs
  | 'U' :: cs => readCode 8 cs
  | _ => none

def readBasic : Nat → Scanner (List Char)
  | 0, _ => none
  | fuel + 1, cs =>
    match cs with
    | '\"' :: rest => some ([], rest)
    | '\\' :: rest => do
      let (c, rest) ← readEscape rest
      let (text, rest) ← readBasic fuel rest
      return (c :: text, rest)
    | c :: rest =>
      if isTextChar c then do
        let (text, rest) ← readBasic fuel rest
        return (c :: text, rest)
      else none
    | [] => none

def readLiteral : Scanner (List Char)
  | '\'' :: rest => some ([], rest)
  | c :: rest =>
    if isTextChar c then do
      let (text, rest) ← readLiteral rest
      return (c :: text, rest)
    else none
  | [] => none

def newline? : List Char → Option (List Char)
  | '\n' :: rest => some rest
  | '\r' :: '\n' :: rest => some rest
  | _ => none

def dropNewline (cs : List Char) : List Char := (newline? cs).getD cs

def skipSpace : List Char → List Char
  | '\r' :: '\n' :: rest => skipSpace rest
  | c :: rest => if isBlank c || c = '\n' then skipSpace rest else c :: rest
  | [] => []

/-- Quotes inside a string in triple quotes: one or two belong to it; three end it, and up to two
more before them still belong to it. The answer is the number of quotes in the string and whether
it ends. -/
def quoteRun (length : Nat) : Nat × Bool :=
  if length < 3 then (length, false) else (min (length - 3) 2, true)

/-- The rest of a string in triple quotes. Basic strings know escapes, and a backslash at the end of
a line drops it with all space up to the next text. -/
def readMultiline (quote : Char) (escapes : Bool) : Nat → Scanner (List Char)
  | 0, _ => none
  | fuel + 1, cs =>
    match cs with
    | [] => none
    | c :: rest =>
      if c = quote then
        let (inside, ends) := quoteRun (cs.takeWhile (· = quote)).length
        let quotes := List.replicate inside quote
        if ends then some (quotes, cs.drop (inside + 3))
        else do
          let (text, rest) ← readMultiline quote escapes fuel (cs.drop inside)
          return (quotes ++ text, rest)
      else if escapes && c = '\\' then
        match newline? (skipBlanks rest) with
        | some rest => readMultiline quote escapes fuel (skipSpace rest)
        | none => do
          let (c, rest) ← readEscape rest
          let (text, rest) ← readMultiline quote escapes fuel rest
          return (c :: text, rest)
      else
        match newline? cs with
        | some rest => do
          let (text, rest) ← readMultiline quote escapes fuel rest
          return ('\n' :: text, rest)
        | none =>
          if isTextChar c then do
            let (text, rest) ← readMultiline quote escapes fuel rest
            return (c :: text, rest)
          else none

def readString (cs : List Char) : Option (String × List Char) := do
  let (text, rest) ← match cs with
    | '\"' :: '\"' :: '\"' :: rest => readMultiline '\"' true (rest.length + 1) (dropNewline rest)
    | '\'' :: '\'' :: '\'' :: rest => readMultiline '\'' false (rest.length + 1) (dropNewline rest)
    | '\"' :: rest => readBasic (rest.length + 1) rest
    | '\'' :: rest => readLiteral rest
    | _ => none
  return (String.ofList text, rest)

/-! ## Numbers -/

/-- Further digits, each of which may have one underscore before it. -/
def spanDigits (value? : Char → Option Nat) : List Char → List Nat × List Char
  | '_' :: c :: cs =>
    match value? c with
    | some d => let (ds, rest) := spanDigits value? cs; (d :: ds, rest)
    | none => ([], '_' :: c :: cs)
  | c :: cs =>
    match value? c with
    | some d => let (ds, rest) := spanDigits value? cs; (d :: ds, rest)
    | none => ([], c :: cs)
  | [] => ([], [])

def readDigits (value? : Char → Option Nat) : Scanner (List Nat)
  | c :: cs => do
    let d ← value? c
    let (ds, rest) := spanDigits value? cs
    return (d :: ds, rest)
  | [] => none

def ofDigits (base : Nat) (ds : List Nat) : Nat := ds.foldl (fun n d => base * n + d) 0

def readSign : List Char → Bool × List Char
  | '-' :: cs => (true, cs)
  | '+' :: cs => (false, cs)
  | cs => (false, cs)

def readWhole : Scanner Nat
  | '0' :: cs => some (0, cs)
  | cs => do
    let (ds, rest) ← readDigits (digitBelow? 10) cs
    return (ofDigits 10 ds, rest)

def readExponent : Scanner Int
  | c :: cs =>
    if c = 'e' ∨ c = 'E' then do
      let (negative, cs) := readSign cs
      let (ds, rest) ← readDigits (digitBelow? 10) cs
      let e : Int := ofDigits 10 ds
      return (if negative then -e else e, rest)
    else none
  | [] => none

def readFloatTail (cs : List Char) : Option ((List Nat × Int) × List Char) :=
  match cs with
  | '.' :: cs => do
    let (ds, rest) ← readDigits (digitBelow? 10) cs
    match readExponent rest with
    | some (e, rest) => return ((ds, e), rest)
    | none => return ((ds, 0), rest)
  | cs => do
    let (e, rest) ← readExponent cs
    return (([], e), rest)

/-- A float with digits; a positive one beyond the finite doubles is refused. -/
def readDecimalFloat (cs : List Char) : Option (Binary64 × List Char) := do
  let (negative, cs) := readSign cs
  let (whole, cs) ← readWhole cs
  let ((fraction, exponent), rest) ← readFloatTail cs
  let coefficient := fraction.foldl (fun n d => 10 * n + d) whole
  let x := Decimal.toBinary64 ⟨negative, coefficient, exponent - fraction.length⟩
  if x = .infinite false then none else return (x, rest)

def readSpecialFloat (cs : List Char) : Option (Binary64 × List Char) :=
  let (negative, cs) := readSign cs
  match cs with
  | 'i' :: 'n' :: 'f' :: rest => some (.infinite negative, rest)
  | 'n' :: 'a' :: 'n' :: rest => some (.nan, rest)
  | _ => none

def readInteger (cs : List Char) : Option (Int × List Char) :=
  match cs with
  | '0' :: 'x' :: cs => (readDigits hexDigitOf? cs).map fun (ds, rest) => (ofDigits 16 ds, rest)
  | '0' :: 'o' :: cs => (readDigits (digitBelow? 8) cs).map fun (ds, rest) => (ofDigits 8 ds, rest)
  | '0' :: 'b' :: cs => (readDigits (digitBelow? 2) cs).map fun (ds, rest) => (ofDigits 2 ds, rest)
  | cs => do
    let (negative, cs) := readSign cs
    let (n, rest) ← readWhole cs
    return (if negative then -(n : Int) else n, rest)

/-! ## Dates and times -/

def readField (count low high : Nat) (cs : List Char) : Option (Nat × List Char) := do
  let digits ← (cs.take count).mapM (digitBelow? 10)
  let n := ofDigits 10 digits
  if digits.length = count ∧ low ≤ n ∧ n ≤ high then some (n, cs.drop count) else none

def readMark (mark : Char) : List Char → Option (List Char)
  | c :: cs => if c = mark then some cs else none
  | [] => none

def daysInMonth (year month : Nat) : Nat :=
  if month = 2 then
    if year % 4 = 0 ∧ (year % 100 ≠ 0 ∨ year % 400 = 0) then 29 else 28
  else if month = 4 ∨ month = 6 ∨ month = 9 ∨ month = 11 then 30
  else 31

def skipDate (cs : List Char) : Option (List Char) := do
  let (year, cs) ← readField 4 0 9999 cs
  let cs ← readMark '-' cs
  let (month, cs) ← readField 2 1 12 cs
  let cs ← readMark '-' cs
  let (_, cs) ← readField 2 1 (daysInMonth year month) cs
  return cs

/-- Hours, minutes, seconds with an optional fraction; a minute may have a leap second. -/
def skipTime (cs : List Char) : Option (List Char) := do
  let (_, cs) ← readField 2 0 23 cs
  let cs ← readMark ':' cs
  let (_, cs) ← readField 2 0 59 cs
  let cs ← readMark ':' cs
  let (_, cs) ← readField 2 0 60 cs
  match cs with
  | '.' :: c :: rest =>
    if (digitOf? c).isSome then return rest.dropWhile fun c => (digitOf? c).isSome else return cs
  | _ => return cs

def skipOffset (cs : List Char) : List Char :=
  let signed (rest : List Char) : Option (List Char) := do
    let (_, rest) ← readField 2 0 23 rest
    let rest ← readMark ':' rest
    let (_, rest) ← readField 2 0 59 rest
    return rest
  match cs with
  | 'Z' :: rest | 'z' :: rest => rest
  | '+' :: rest | '-' :: rest => (signed rest).getD cs
  | _ => cs

def skipDateTime (cs : List Char) : Option (List Char) :=
  match skipDate cs with
  | some rest =>
    match rest with
    | c :: later =>
      if c = 'T' ∨ c = 't' ∨ c = ' ' then
        match skipTime later with
        | some rest => some (skipOffset rest)
        | none => some rest
      else some rest
    | [] => some []
  | none => skipTime cs

/-- A date, a float or an integer of 64 bits, in this order. -/
def readNumber (cs : List Char) : Option (Toml × List Char) :=
  match skipDateTime cs with
  | some rest => some (.dateTime, rest)
  | none =>
    match (readDecimalFloat cs).orElse fun _ => readSpecialFloat cs with
    | some (x, rest) => some (.float x, rest)
    | none => do
      let (n, rest) ← readInteger cs
      if -Int.pow 2 63 ≤ n ∧ n < Int.pow 2 63 then return (.integer n, rest) else none

end Liveness.Toml

import Liveness.Toml.Scalar
/-!
# TOML texts

Values, keys and lines, and the table that the lines of a text add up to. The table under the last
header is kept apart until the next header, as are its rules: a header names a table once, a key is
given once, and dotted keys only add to tables that dotted keys have made.
-/
namespace Liveness.Toml

def skipFiller (inComment : Bool) : List Char → Option (List Char)
  | '\r' :: '\n' :: rest => skipFiller false rest
  | '\n' :: rest => skipFiller false rest
  | c :: rest =>
    if inComment then if isTextChar c then skipFiller true rest else none
    else if c = '#' then skipFiller true rest
    else if isBlank c then skipFiller false rest
    else some (c :: rest)
  | [] => if inComment then none else some []

def endLine (cs : List Char) : Option (List Char) :=
  let cs := match skipBlanks cs with
    | '#' :: rest => rest.dropWhile isTextChar
    | cs => cs
  match cs with
  | [] => some []
  | cs => newline? cs

def isBareKeyChar (c : Char) : Bool :=
  ('a' ≤ c && c ≤ 'z') || ('A' ≤ c && c ≤ 'Z') || ('0' ≤ c && c ≤ '9') || c = '_' || c = '-'

def readKeyPart (cs : List Char) : Option (String × List Char) :=
  match cs with
  | '\"' :: rest => (readBasic (rest.length + 1) rest).map fun (k, rest) => (String.ofList k, rest)
  | '\'' :: rest => (readLiteral rest).map fun (k, rest) => (String.ofList k, rest)
  | cs =>
    let part := cs.takeWhile isBareKeyChar
    if part.isEmpty then none else some (String.ofList part, cs.dropWhile isBareKeyChar)

/-- Parts joined by points, with blanks around each; the first argument bounds their number. -/
def readKeyParts : Nat → List Char → Option (List String × List Char)
  | 0, _ => none
  | fuel + 1, cs => do
    let (part, rest) ← readKeyPart (skipBlanks cs)
    match skipBlanks rest with
    | '.' :: rest =>
      let (parts, rest) ← readKeyParts fuel rest
      return (part :: parts, rest)
    | rest => return ([part], rest)

/-- Keys have fewer parts than this, and values fewer levels of brackets. -/
def nestingLimit : Nat := 80

def readKey (cs : List Char) : Option ((List String × String) × List Char) := do
  let (parts, rest) ← readKeyParts (nestingLimit - 1) cs
  let last ← parts.getLast?
  return ((parts.dropLast, last), rest)

mutual

/-- A value; `levels` counts the brackets that may still be opened. -/
def readValue : Nat → Nat → List Char → Option (Toml × List Char)
  | 0, _, _ => none
  | fuel + 1, levels, cs =>
    match cs with
    | [] => none
    | c :: rest =>
      if c = '\"' ∨ c = '\'' then (readString cs).map fun (s, rest) => (.string s, rest)
      else if c = '[' then do
        if levels = 0 then none
        else
          let (items, rest) ← readItems fuel (levels - 1) rest
          return (.array items, rest)
      else if c = '\x7b' then do
        if levels = 0 then none
        else match skipBlanks rest with
          | '\x7d' :: rest => return (.table .inline [], rest)
          | rest =>
            let (entries, rest) ← readPairs fuel (levels - 1) [] rest
            return (.table .inline entries, rest)
      else
        match cs with
        | 't' :: 'r' :: 'u' :: 'e' :: rest => some (.bool true, rest)
        | 'f' :: 'a' :: 'l' :: 's' :: 'e' :: rest => some (.bool false, rest)
        | cs => readNumber cs

def readItems : Nat → Nat → List Char → Option (List Toml × List Char)
  | 0, _, _ => none
  | fuel + 1, levels, cs => do
    match (← skipFiller false cs) with
    | ']' :: rest => return ([], rest)
    | cs =>
      let (item, rest) ← readValue fuel levels cs
      match (← skipFiller false rest) with
      | ',' :: rest =>
        let (items, rest) ← readItems fuel levels rest
        return (item :: items, rest)
      | ']' :: rest => return ([item], rest)
      | _ => none

def readPairs : Nat → Nat → Entries → List Char → Option (Entries × List Char)
  | 0, _, _, _ => none
  | fuel + 1, levels, entries, cs => do
    let ((path, key), rest) ← readKey cs
    let rest ← readMark '=' rest
    let (value, rest) ← readValue fuel levels (skipBlanks rest)
    let entries ← entries.insertDotted? path key value .header
    match skipBlanks rest with
    | ',' :: rest => readPairs fuel levels entries rest
    | '\x7d' :: rest => return (entries, rest)
    | _ => none

end

structure Pair where
  path : List String
  key : String
  value : Toml

def readPair (cs : List Char) : Option (Pair × List Char) := do
  let ((path, key), rest) ← readKey cs
  let rest ← readMark '=' rest
  let (value, rest) ← readValue (2 * cs.length + 1) (nestingLimit - 1) (skipBlanks rest)
  let rest ← endLine rest
  return (⟨path, key, value⟩, rest)

structure Outline where
  root : Entries
  /-- The last header, as the path before its last part and that part; none before any header. -/
  header : Option (List String × String)
  /-- Whether that header is in double brackets. -/
  repeated : Bool
  current : Entries

namespace Outline

def empty : Outline := ⟨[], none, false, []⟩

def append? (key : String) (table : Entries) (es : Entries) : Option Entries :=
  match es.get? key with
  | none => some (es ++ [(key, .tableArray [table])])
  | some (.tableArray tables) => some (es.set key (.tableArray (tables ++ [table])))
  | some _ => none

def finish (o : Outline) : Option Entries :=
  match o.header with
  | none => some o.current
  | some (path, key) =>
    o.root.modifyAt false
      (fun _ es =>
        if o.repeated then append? key o.current es
        else es.insert? key (.table .header o.current))
      path .header

def add (o : Outline) (p : Pair) : Option Outline := do
  return { o with current := ← o.current.insertDotted? p.path p.key p.value .header }

/-- The entries of the table that a header reopens: one that was only implied so far. -/
def reopened? (key : String) (es : Entries) : Option Entries :=
  match es.get? key with
  | none => some []
  | some (.table .implied entries) => some entries
  | some _ => none

def entriesAt : List String → Entries → Entries
  | [], es => es
  | key :: path, es =>
    match es.get? key with
    | some (.table _ entries) => entriesAt path entries
    | some (.tableArray tables) => entriesAt path (tables.getLast?.getD [])
    | _ => []

def openTable (o : Outline) (path : List String) (key : String) : Option Outline := do
  let root ← o.finish
  let root ← root.modifyAt false (fun _ es => some es) path .header
  let current ← reopened? key (entriesAt path root)
  let root ← root.modifyAt false (fun _ es => some (es.filter (·.1 ≠ key))) path .header
  return ⟨root, some (path, key), false, current⟩

def openRepeated (o : Outline) (path : List String) (key : String) : Option Outline := do
  let root ← o.finish
  let root ← root.modifyAt false (fun _ es => some es) path .header
  match (entriesAt path root).get? key with
  | none | some (.tableArray _) => return ⟨root, some (path, key), true, []⟩
  | some _ => none

end Outline

def readHeader (cs : List Char) : Option ((Bool × List String × String) × List Char) := do
  let (repeated, cs) := match cs with
    | '[' :: '[' :: cs => (true, cs)
    | cs => (false, cs.drop 1)
  let ((path, key), rest) ← readKey cs
  let rest ← readMark ']' rest
  let rest ← if repeated then readMark ']' rest else some rest
  let rest ← endLine rest
  return ((repeated, path, key), rest)

def readLines : Nat → Outline → List Char → Option Outline
  | 0, _, _ => none
  | fuel + 1, o, cs =>
    match skipBlanks cs with
    | [] => some o
    | '#' :: rest => (endLine ('#' :: rest)).bind (readLines fuel o)
    | '[' :: rest => do
      let ((repeated, path, key), rest) ← readHeader ('[' :: rest)
      let o ← if repeated then o.openRepeated path key else o.openTable path key
      readLines fuel o rest
    | cs =>
      match newline? cs with
      | some rest => readLines fuel o rest
      | none => do
        let (p, rest) ← readPair cs
        readLines fuel (← o.add p) rest

/-- The table that a text holds; a byte order mark before it is passed over. -/
def parse? (s : String) : Option Toml := do
  let cs := match s.toList with
    | '\ufeff' :: cs => cs
    | cs => cs
  let o ← readLines (cs.length + 2) .empty cs
  return .table .header (← o.finish)

end Liveness.Toml

import Liveness.Json.Basic
/-!
# Writing JSON

The compact text of a document: no blanks, members in their order, powers of ten with their sign,
and only the quote, the backslash and the control characters escaped.
-/
namespace Liveness.Json

def hexDigit (n : Nat) : Char :=
  if n < 10 then Char.ofNat (48 + n) else Char.ofNat (87 + n)

def escaped (c : Char) : List Char :=
  if c = '\"' then ['\\', '\"']
  else if c = '\\' then ['\\', '\\']
  else if 32 ≤ c.toNat then [c]
  else if c.toNat = 8 then ['\\', 'b']
  else if c.toNat = 12 then ['\\', 'f']
  else if c.toNat = 10 then ['\\', 'n']
  else if c.toNat = 13 then ['\\', 'r']
  else if c.toNat = 9 then ['\\', 't']
  else ['\\', 'u', '0', '0', hexDigit (c.toNat / 16), hexDigit (c.toNat % 16)]

def quoted (s : String) : List Char := '\"' :: (s.toList.flatMap escaped ++ ['\"'])

/-- An ill-formed string has no text; a lone surrogate is written in its place. -/
def stringChars : Option String → List Char
  | some s => quoted s
  | none => "\"\\ud800\"".toList

mutual

def chars : Json → List Char
  | null => "null".toList
  | bool true => "true".toList
  | bool false => "false".toList
  | number n => n.chars ['+']
  | string s => stringChars s
  | array items => '[' :: (itemChars items ++ [']'])
  | object members => '\x7b' :: (memberChars members ++ ['\x7d'])

def itemChars : List Json → List Char
  | [] => []
  | [item] => item.chars
  | item :: rest => item.chars ++ ',' :: itemChars rest

def memberChars : List (Option String × Json) → List Char
  | [] => []
  | [(key, value)] => stringChars key ++ ':' :: value.chars
  | (key, value) :: rest => stringChars key ++ ':' :: (value.chars ++ ',' :: memberChars rest)

end

def text (j : Json) : String := String.ofList j.chars

end Liveness.Json

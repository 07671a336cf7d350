import Liveness.Text.Hidden
/-!
# Visible text

Quoted text in which every character can be told apart by eye: characters that show nothing of
their own are written by their code.
-/
namespace Liveness.Text

def visible (c : Char) : String :=
  match c with
  | '\x00' => "\\0"
  | '\t' => "\\t"
  | '\n' => "\\n"
  | '\r' => "\\r"
  | '\"' => "\\\""
  | '\\' => "\\\\"
  | c =>
    if isHidden c then "\\u\x7b" ++ String.ofList (Nat.toDigits 16 c.toNat) ++ "\x7d"
    else c.toString

def quoted (s : String) : String := "\"" ++ String.join (s.toList.map visible) ++ "\""

end Liveness.Text

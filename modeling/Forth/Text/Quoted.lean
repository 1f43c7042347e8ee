import Forth.Text.Hidden

/-!
# Quoted text

A text between double quotes, in which every character can be told: a quote or a backslash
has a backslash in front, four control characters are written by a letter, and all other
hidden characters by their code.
-/

namespace Forth.Text

/-- How one character is written between the quotes. -/
def quotedChar (c : Char) : List Char :=
  match c with
  | '\x00' => ['\\', '0']
  | '\t' => ['\\', 't']
  | '\n' => ['\\', 'n']
  | '\r' => ['\\', 'r']
  | '"' => ['\\', '"']
  | '\\' => ['\\', '\\']
  | c => if isHidden c then '\\' :: 'u' :: '\x7B' :: Nat.toDigits 16 c.toNat ++ ['\x7D'] else [c]

def quoted (s : String) : String :=
  String.ofList ('"' :: s.toList.flatMap quotedChar ++ ['"'])

end Forth.Text

import SqlScribe.Text.Shapeless

/-!
# Texts quoted for a message

A text between double quotes in which every character can be seen: quotes and
backslashes stand behind a backslash, the usual control characters have their
letters, and a character without a shape of its own is shown by its code point
in braces.
-/

namespace SqlScribe.Text

/-- A character inside a quoted text. -/
def visibleChar (c : Char) : List Char :=
  match c with
  | '\x00' => ['\\', '0']
  | '\t' => ['\\', 't']
  | '\n' => ['\\', 'n']
  | '\r' => ['\\', 'r']
  | '"' => ['\\', '"']
  | '\\' => ['\\', '\\']
  | c =>
      if isShapeless c then
        ['\\', 'u', '\x7b'] ++ Nat.toDigits 16 c.toNat ++ ['\x7d']
      else [c]

/-- The text between quotes, every character visible. -/
def quoted (text : String) : String :=
  String.ofList ('"' :: text.toList.flatMap visibleChar ++ ['"'])

end SqlScribe.Text

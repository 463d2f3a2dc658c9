import Scriptlet.Text.Hidden

/-!
# Quoted Text

A text between quotes, written so that every character can be told from the
others: the quote, the backslash and the common controls have short forms, and
characters without an image of their own are shown by code.

## Main definitions

* `Text.hexOf`: A code in lower-case hexadecimal digits.
* `Text.quotedChar`: One character of a quoted text.
* `Text.quoted`: A text between quotes.
-/

namespace Scriptlet

namespace Text

/-- The lower-case hexadecimal digits of a number. -/
def hexOf (n : Nat) : List Char :=
  Nat.toDigits 16 n

/-- A character as it stands in a quoted text. -/
def quotedChar (c : Char) : List Char :=
  match c with
  | '"' => ['\\', '"']
  | '\\' => ['\\', '\\']
  | '\n' => ['\\', 'n']
  | '\r' => ['\\', 'r']
  | '\t' => ['\\', 't']
  | '\x00' => ['\\', '0']
  | c => if isHidden c then "\\u\x7b".toList ++ hexOf c.toNat ++ ['\x7d'] else [c]

/-- A text between quotes. -/
def quoted (text : String) : String :=
  String.ofList ('"' :: text.toList.flatMap quotedChar ++ ['"'])

end Text

end Scriptlet

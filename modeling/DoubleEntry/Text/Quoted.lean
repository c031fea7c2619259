import DoubleEntry.Text.Printable
set_option autoImplicit false

/-! # Quoted text

How a message shows a text that it talks about: between quotation marks, with a backslash in front
of quotation marks and backslashes, with short forms for the common control characters, and with
the code point of every other character that cannot be shown.
-/

namespace DoubleEntry.Text

/-- The hexadecimal digits of a number. -/
def hexDigits (n : Nat) : List Char := Nat.toDigits 16 n

/-- How one character of a quoted text is written. -/
def quotedChar (c : Char) : List Char :=
  match c with
  | '\x00' => ['\\', '0']
  | '\t' => ['\\', 't']
  | '\r' => ['\\', 'r']
  | '\n' => ['\\', 'n']
  | '"' => ['\\', '"']
  | '\\' => ['\\', '\\']
  | c => if isPrintable c then [c] else '\\' :: 'u' :: '\x7b' :: hexDigits c.toNat ++ ['\x7d']

/-- A text between quotation marks. -/
def quoted (s : String) : String :=
  String.ofList ('"' :: s.toList.flatMap quotedChar ++ ['"'])

end DoubleEntry.Text

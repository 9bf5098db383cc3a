import TemplateFrontend.Text.Hidden
import TemplateFrontend.Text.Slice

/-!
Contract: the quoted form of a text, which fits on one line.

A backslash goes before backslashes and double quotes; NUL, tab, line feed and
carriage return have short escapes; any other hidden character is written as
its code point in lower-case hexadecimal digits between braces. All else
stands for itself.
-/

namespace TemplateFrontend.Text.Quoted

/-- The escape of a character by its code point. -/
def codePoint (char : Char) : Text :=
  '\\' :: 'u' :: '\x7b' :: (Nat.toDigits 16 char.toNat ++ ['\x7d'])

def encodeChar (char : Char) : Text :=
  match char with
  | '\\' => ['\\', '\\']
  | '"' => ['\\', '"']
  | '\x00' => ['\\', '0']
  | '\t' => ['\\', 't']
  | '\n' => ['\\', 'n']
  | '\r' => ['\\', 'r']
  | _ => if isHidden char then codePoint char else [char]

def encode (text : Text) : Text := '"' :: (text.flatMap encodeChar ++ ['"'])

end TemplateFrontend.Text.Quoted

/-
  TermLint.Text.Quoted

  The quoted form of a text in a message: the text between double quotes, in
  which a quote or a backslash is escaped and a character that would not show is
  written by name (`\n`, `\r`, `\t`, `\0`) or by its number in hexadecimal.
-/

import TermLint.Text.Extender
import TermLint.Text.Unprintable

namespace TermLint.Text

/-- A character by its number: backslash, `u`, and hexadecimal digits in braces. -/
def numbered (c : Char) : List Char :=
  ['\\', 'u', '\x7b'] ++ Nat.toDigits 16 c.toNat ++ ['\x7d']

/-- One character inside a quoted text. -/
def quotedChar (c : Char) : List Char :=
  match c with
  | '\x00' => ['\\', '0']
  | '\t' => ['\\', 't']
  | '\r' => ['\\', 'r']
  | '\n' => ['\\', 'n']
  | '\\' => ['\\', '\\']
  | '"' => ['\\', '"']
  | c => if isExtender c || isUnprintable c then numbered c else [c]

/-- A text between double quotes, escaped so that every character shows. -/
def quoted (text : String) : String :=
  String.ofList ('"' :: text.toList.flatMap quotedChar ++ ['"'])

end TermLint.Text

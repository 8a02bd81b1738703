/-
  TermLint.Json.Printer

  The compact text of a value: no blanks, fields in the order in which the value
  holds them.  In a string only the quote, the backslash and the characters below
  the space are escaped.
-/

import TermLint.Json.Fault

namespace TermLint.Json

/-- One character inside a written string. -/
def escaped (c : Char) : List Char :=
  match c with
  | '"' => ['\\', '"']
  | '\\' => ['\\', '\\']
  | '\x08' => ['\\', 'b']
  | '\x0c' => ['\\', 'f']
  | '\n' => ['\\', 'n']
  | '\r' => ['\\', 'r']
  | '\t' => ['\\', 't']
  | c =>
    if c.toNat < 0x20 then
      ['\\', 'u', '0', '0', Nat.digitChar (c.toNat / 16), Nat.digitChar (c.toNat % 16)]
    else [c]

/-- A written string. -/
def printString (text : String) : List Char :=
  '"' :: text.toList.flatMap escaped ++ ['"']

/-- A written number. -/
def printNumber : Number → List Char
  | .int value => (toString value).toList
  | .real value => (reals.write value).toList

mutual

/-- The compact text of a value. -/
def print : Value → List Char
  | .null => ['n', 'u', 'l', 'l']
  | .bool true => ['t', 'r', 'u', 'e']
  | .bool false => ['f', 'a', 'l', 's', 'e']
  | .number value => printNumber value
  | .string text => printString text
  | .array items => '[' :: printItems true [] items ++ [']']
  | .object fields => '\x7b' :: printFields true [] fields ++ ['\x7d']

/-- The texts of the items with commas between them, after what was written, which is in
reverse. -/
def printItems (first : Bool) (written : List Char) : List Value → List Char
  | [] => written.reverse
  | item :: rest =>
    let comma := if first then written else ',' :: written
    printItems false ((print item).reverse ++ comma) rest

/-- The texts of the fields with commas between them, after what was written, which is in
reverse. -/
def printFields (first : Bool) (written : List Char) : List (String × Value) → List Char
  | [] => written.reverse
  | (key, value) :: rest =>
    let comma := if first then written else ',' :: written
    printFields false ((print value).reverse ++ ':' :: (printString key).reverse ++ comma) rest

end

/-- The compact text of a value. -/
def render (v : Value) : String :=
  String.ofList (print v)

end TermLint.Json

/-
  TermLint.Text.Blank

  Blank characters and trimming.  A character is blank when it has the
  `White_Space` property of the Unicode standard; header keys, header values,
  severity names and rule messages are trimmed of these.  The bytes of a header
  line are trimmed of a smaller set, the five ASCII blanks, before they are read
  as text.
-/

namespace TermLint.Text

/-- The code points with the `White_Space` property, as ranges in increasing order. -/
def blankRanges : List (Nat × Nat) :=
  [(0x09, 0x0D), (0x20, 0x20), (0x85, 0x85), (0xA0, 0xA0), (0x1680, 0x1680), (0x2000, 0x200A),
    (0x2028, 0x2029), (0x202F, 0x202F), (0x205F, 0x205F), (0x3000, 0x3000)]

/-- A character with the `White_Space` property. -/
def isBlank (c : Char) : Bool :=
  blankRanges.any fun range => range.1 ≤ c.toNat && c.toNat ≤ range.2

/-- Drop the elements that satisfy `p` from both ends of a list. -/
def strip {α : Type} (p : α → Bool) (xs : List α) : List α :=
  ((xs.dropWhile p).reverse.dropWhile p).reverse

/-- A text without the blanks at its two ends. -/
def trim (text : List Char) : List Char :=
  strip isBlank text

/-- A text that holds nothing but blanks. -/
def isVoid (text : List Char) : Bool :=
  text.all isBlank

/-! ## Bytes -/

/-- The bytes of tab, line feed, form feed, carriage return and space. -/
def isBlankByte (byte : UInt8) : Bool :=
  byte == 0x20 || byte == 0x09 || byte == 0x0A || byte == 0x0C || byte == 0x0D

/-- A line of bytes without the ASCII blanks at its two ends. -/
def trimBytes (bytes : List UInt8) : List UInt8 :=
  strip isBlankByte bytes

/-! ## Letter case -/

/-- Two texts that differ at most in the case of ASCII letters. -/
def sameLetters (a b : List Char) : Bool :=
  a.map Char.toLower == b.map Char.toLower

end TermLint.Text

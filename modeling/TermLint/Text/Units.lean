/-
  TermLint.Text.Units

  Lengths in UTF-16 code units, the unit of columns in an editor's positions:
  a character of the basic plane counts one, any other counts two.
-/

namespace TermLint.Text

/-- The UTF-16 code units of one character. -/
def charUnits (c : Char) : Nat :=
  if c.toNat < 0x10000 then 1 else 2

/-- The UTF-16 code units of a text. -/
def units (text : List Char) : Nat :=
  text.foldl (fun n c => n + charUnits c) 0

theorem foldl_charUnits (text : List Char) (n : Nat) :
    text.foldl (fun n c => n + charUnits c) n = n + units text := by
  induction text generalizing n with
  | nil => rfl
  | cons c text ih =>
    have hc : units (c :: text) = charUnits c + units text := by
      rw [units, List.foldl_cons, Nat.zero_add, ih]
    rw [List.foldl_cons, ih, hc, Nat.add_assoc]

@[simp] theorem units_nil : units [] = 0 := rfl

@[simp] theorem units_cons (c : Char) (text : List Char) :
    units (c :: text) = charUnits c + units text := by
  rw [units, List.foldl_cons, Nat.zero_add, foldl_charUnits]

@[simp] theorem units_append (a b : List Char) : units (a ++ b) = units a + units b := by
  rw [units, List.foldl_append, foldl_charUnits, foldl_charUnits, Nat.zero_add]

end TermLint.Text

/-
  TermLint.Text.Cut

  Cutting a list at a separator.  `cut?` cuts once, at the first place where the
  separator begins; `pieces` cuts at every occurrence of one element; `lines`
  gives the lines of a text, a line end being a line feed with at most one
  carriage return before it.  All three run in constant stack: what has been
  passed is kept in reverse and turned round at the end.
-/

namespace TermLint.Text

variable {α : Type} [BEq α]

/-! ## Cutting once -/

/-- `cut?` with the elements already passed, in reverse. -/
def cutFrom (sep : List α) : List α → List α → Option (List α × List α)
  | passed, [] => if sep.isPrefixOf [] then some (passed.reverse, []) else none
  | passed, x :: xs =>
    if sep.isPrefixOf (x :: xs) then some (passed.reverse, (x :: xs).drop sep.length)
    else cutFrom sep (x :: passed) xs

/-- What stands before and after the first occurrence of `sep`, if there is one. -/
def cut? (sep : List α) (xs : List α) : Option (List α × List α) :=
  cutFrom sep [] xs

theorem cutFrom_eq [LawfulBEq α] {sep passed xs before after : List α}
    (h : cutFrom sep passed xs = some (before, after)) :
    passed.reverse ++ xs = before ++ sep ++ after := by
  induction xs generalizing passed with
  | nil =>
    rw [cutFrom] at h
    split at h
    · rename_i hp
      cases h
      have := List.isPrefixOf_iff_prefix.mp hp
      simp [List.prefix_nil.mp this]
    · cases h
  | cons x xs ih =>
    rw [cutFrom] at h
    split at h
    · rename_i hp
      cases h
      obtain ⟨rest, hr⟩ := List.isPrefixOf_iff_prefix.mp hp
      rw [← hr, List.drop_left, List.append_assoc]
    · have := ih h
      rw [List.reverse_cons, List.append_assoc, List.singleton_append] at this
      exact this

/-- Nothing is lost by cutting. -/
theorem cut?_eq [LawfulBEq α] {sep xs before after : List α}
    (h : cut? sep xs = some (before, after)) : xs = before ++ sep ++ after :=
  cutFrom_eq h

/-! ## Cutting everywhere -/

/-- `pieces` with the current piece and the finished pieces, both in reverse. -/
def piecesFrom (sep : α) : List α → List (List α) → List α → List (List α)
  | piece, done, [] => (piece.reverse :: done).reverse
  | piece, done, x :: xs =>
    if x == sep then piecesFrom sep [] (piece.reverse :: done) xs
    else piecesFrom sep (x :: piece) done xs

/-- The pieces between the occurrences of `sep`; there is one more piece than occurrences. -/
def pieces (sep : α) (xs : List α) : List (List α) :=
  piecesFrom sep [] [] xs

/-! ## Lines -/

/-- A line without the carriage return that may stand at its end. -/
def dropReturn (line : List Char) : List Char :=
  if line.getLast? == some '\r' then line.dropLast else line

/-- The lines of a text.  A line feed ends a line and a carriage return right before it belongs to
the line end; the text after the last line feed is a line unless it is empty. -/
def lines (text : List Char) : List (List Char) :=
  let all := pieces '\n' text
  let ended := all.dropLast.map dropReturn
  match all.getLast? with
  | some (c :: rest) => ended ++ [c :: rest]
  | _ => ended

end TermLint.Text

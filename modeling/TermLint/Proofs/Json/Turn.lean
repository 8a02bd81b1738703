/-
  TermLint.Proofs.Json.Turn

  Lists and objects one entry at a time: what `itemsFrom` and `fieldsFrom` do at a
  turn, as equations without the facts that they carry about lengths.
-/

import TermLint.Json.Turn
import TermLint.Proofs.Json.Lexeme

namespace TermLint.Json

open Text (Reader)

variable {α : Type}

/-! ## Lists -/

theorem itemTurn_closing (first : Bool) (rest : List Char) :
    itemTurn first (']' :: rest) = .ok (.closed rest) := by
  rw [itemTurn, skipBlanks_cons (by decide)]
  rfl

theorem itemTurn_first {c : Char} {t : List Char} (hblank : isBlank c = false) (hc : c ≠ ']') :
    itemTurn true (c :: t) = .ok (.entry (c :: t)) := by
  rw [itemTurn, skipBlanks_cons hblank]
  simp only [if_neg hc, if_true]

theorem itemTurn_comma {c : Char} {t : List Char} (hblank : isBlank c = false) (hc : c ≠ ']') :
    itemTurn false (',' :: c :: t) = .ok (.entry (c :: t)) := by
  rw [itemTurn, skipBlanks_cons (by decide)]
  simp only [skipBlanks_cons hblank, if_neg hc]
  rfl

/-- A list closes at its bracket, whether an item came before or not. -/
theorem skipBlanks_of_itemTurn_closed {first : Bool} {s rest : List Char}
    (h : itemTurn first s = .ok (.closed rest)) : skipBlanks s = ']' :: rest := by
  unfold itemTurn at h
  split at h
  · cases h
  · rename_i c t hs
    split at h
    · rename_i hc
      cases h
      rw [hs, hc]
    · split at h
      · cases h
      · split at h
        · split at h
          · cases h
          · split at h <;> cases h
        · cases h

/-- The first item begins with the text itself, a later one after a comma. -/
theorem itemTurn_entry_cases {first : Bool} {s t : List Char}
    (h : itemTurn first s = .ok (.entry t)) :
    (first = true ∧ skipBlanks s = t ∧ ∃ c u, t = c :: u ∧ c ≠ ']') ∨
      (first = false ∧ ∃ u, skipBlanks s = ',' :: u ∧ skipBlanks u = t) := by
  unfold itemTurn at h
  split at h
  · cases h
  · rename_i c u hs
    split at h
    · cases h
    · rename_i hclose
      split at h
      · rename_i hfirst
        cases h
        exact .inl ⟨hfirst, hs, c, u, rfl, hclose⟩
      · rename_i hfirst
        split at h
        · rename_i hcomma
          split at h
          · cases h
          · rename_i d w hu
            split at h
            · cases h
            · cases h
              exact .inr ⟨Bool.eq_false_iff.mpr hfirst, u, hcomma ▸ hs, hu⟩
        · cases h

/-- What a list does at a turn. -/
theorem itemsFrom_eq (item : Reader Fault α) (first : Bool) (done : List α) (s : List Char) :
    itemsFrom item first done s =
      match itemTurn first s with
      | .error e => .error e
      | .ok (.closed rest) => .ok (done.reverse, rest)
      | .ok (.entry t) =>
        match item.run t with
        | .error e => .error e
        | .ok (a, rest) => itemsFrom item false (a :: done) rest := by
  rw [itemsFrom]
  split
  · rename_i h; rw [h]
  · rename_i h; rw [h]
  · rename_i h
    split
    · rename_i hr; simp only [h, hr]
    · rename_i hr; simp only [h, hr]

/-! ## Objects -/

theorem keyTurn_closing (first : Bool) (rest : List Char) :
    keyTurn first ('\x7d' :: rest) = .ok (.closed rest) := by
  rw [keyTurn, skipBlanks_cons (by decide)]
  rfl

theorem keyTurn_first (t : List Char) : keyTurn true ('"' :: t) = .ok (.entry t) := by
  rw [keyTurn, skipBlanks_cons (by decide)]
  rfl

theorem keyTurn_comma (t : List Char) : keyTurn false (',' :: '"' :: t) = .ok (.entry t) := by
  rw [keyTurn, skipBlanks_cons (by decide)]
  simp only [skipBlanks_cons (c := '"') (t := t) (by decide)]
  rfl

theorem skipBlanks_of_keyTurn_closed {first : Bool} {s rest : List Char}
    (h : keyTurn first s = .ok (.closed rest)) : skipBlanks s = '\x7d' :: rest := by
  unfold keyTurn at h
  split at h
  · cases h
  · rename_i c t hs
    split at h
    · rename_i hc
      cases h
      rw [hs, hc]
    · split at h
      · split at h <;> cases h
      · split at h
        · split at h
          · cases h
          · split at h
            · cases h
            · split at h <;> cases h
        · cases h

theorem keyTurn_entry_cases {first : Bool} {s t : List Char}
    (h : keyTurn first s = .ok (.entry t)) :
    (first = true ∧ skipBlanks s = '"' :: t) ∨
      (first = false ∧ ∃ u, skipBlanks s = ',' :: u ∧ skipBlanks u = '"' :: t) := by
  unfold keyTurn at h
  split at h
  · cases h
  · rename_i c u hs
    split at h
    · cases h
    · split at h
      · rename_i hfirst
        split at h
        · rename_i hquote
          cases h
          exact .inl ⟨hfirst, hquote ▸ hs⟩
        · cases h
      · rename_i hfirst
        split at h
        · rename_i hcomma
          split at h
          · cases h
          · rename_i d w hu
            split at h
            · rename_i hquote
              cases h
              exact .inr ⟨Bool.eq_false_iff.mpr hfirst, u, hcomma ▸ hs, hquote ▸ hu⟩
            · split at h <;> cases h
        · cases h

/-- What an object does at a turn. -/
theorem fieldsFrom_eq (value : Reader Fault α) (first : Bool) (done : List (String × α))
    (s : List Char) :
    fieldsFrom value first done s =
      match keyTurn first s with
      | .error e => .error e
      | .ok (.closed rest) => .ok (done.reverse, rest)
      | .ok (.entry t) =>
        match keyColon t with
        | .error e => .error e
        | .ok (key, u) =>
          match value.run u with
          | .error e => .error e
          | .ok (a, rest) => fieldsFrom value false ((key, a) :: done) rest := by
  rw [fieldsFrom]
  split
  · rename_i h; rw [h]
  · rename_i h; rw [h]
  · rename_i h
    split
    · rename_i hk; simp only [h, hk]
    · rename_i hk
      split
      · rename_i hr; simp only [h, hk, hr]
      · rename_i hr; simp only [h, hk, hr]

/-- A written key and the colon after it read back. -/
theorem keyColon_print (key : String) (rest : List Char) :
    keyColon (key.toList.flatMap escaped ++ '"' :: ':' :: rest) = .ok (key, rest) := by
  have hcolon : colon (':' :: rest) = .ok rest := by
    rw [colon, skipBlanks_cons (by decide)]
    rfl
  rw [keyColon, stringFrom_print, List.reverse_nil, List.nil_append, String.ofList_toList]
  simp only [hcolon]

end TermLint.Json

/-
  TermLint.Json.Tree

  Reading a text as data without a type.  At most 127 lists and objects may stand
  inside one another, so the reader is a recursion on the levels that are left.
  The tree keeps fields in the order of the text; `parse` gives the canonical
  value of a whole text.
-/

import TermLint.Json.Turn

namespace TermLint.Json

open Text (Reader)

/-- How many lists and objects may stand inside one another. -/
def maxNesting : Nat := 127

/-- A value that stands for itself after a word. -/
def wordValue (letters : List Char) (value : Value) (s : List Char) : Taken Value :=
  match word letters s with
  | .error e => .error e
  | .ok rest => .ok (value, rest)

/-- A value, with a reader for the values inside a list or object unless the nesting is used up. -/
def treeFrom (inner : Option (Reader Fault Value)) (s : List Char) : Taken Value :=
  match skipBlanks s with
  | [] => .error (.unfinished .value)
  | c :: t =>
    if c = 'n' then wordValue ['u', 'l', 'l'] .null t
    else if c = 't' then wordValue ['r', 'u', 'e'] (.bool true) t
    else if c = 'f' then wordValue ['a', 'l', 's', 'e'] (.bool false) t
    else if c = '"' then
      match stringFrom [] t with
      | .error e => .error e
      | .ok (text, rest) => .ok (.string text, rest)
    else if startsNumber c then
      match number (c :: t) with
      | .error e => .error e
      | .ok (n, rest) => .ok (.number n, rest)
    else if c = '[' then
      match inner with
      | none => .error (.malformed .tooDeep)
      | some inner =>
        match itemsFrom inner true [] t with
        | .error e => .error e
        | .ok (items, rest) => .ok (.array items, rest)
    else if c = '\x7b' then
      match inner with
      | none => .error (.malformed .tooDeep)
      | some inner =>
        match fieldsFrom inner true [] t with
        | .error e => .error e
        | .ok (fields, rest) => .ok (.object fields, rest)
    else .error (.malformed .expectedValue)

theorem wordValue_le {letters s rest : List Char} {value v : Value}
    (h : wordValue letters value s = .ok (v, rest)) : rest.length ≤ s.length := by
  unfold wordValue at h
  split at h
  · cases h
  · rename_i hw
    cases h
    exact word_le hw

theorem treeFrom_lt {inner : Option (Reader Fault Value)} {s rest : List Char} {v : Value}
    (h : treeFrom inner s = .ok (v, rest)) : rest.length < s.length := by
  unfold treeFrom at h
  split at h
  · cases h
  · rename_i c t hs
    have hlt := length_cons_le_of_skipBlanks hs
    split at h
    · have := wordValue_le h; omega
    split at h
    · have := wordValue_le h; omega
    split at h
    · have := wordValue_le h; omega
    split at h
    · split at h
      · cases h
      · rename_i hq
        cases h
        have := stringFrom_lt hq
        omega
    split at h
    · split at h
      · cases h
      · rename_i hn
        cases h
        have := number_lt hn
        rw [List.length_cons] at this
        omega
    split at h
    · split at h
      · cases h
      · split at h
        · cases h
        · rename_i hi
          cases h
          have := itemsFrom_lt hi
          omega
    split at h
    · split at h
      · cases h
      · split at h
        · cases h
        · rename_i hf
          cases h
          have := fieldsFrom_lt hf
          omega
    · cases h

/-- Reads a value in which at most the given number of lists and objects are nested. -/
def tree : Nat → Reader Fault Value
  | 0 => ⟨treeFrom none, treeFrom_lt⟩
  | levels + 1 => ⟨treeFrom (some (tree levels)), treeFrom_lt⟩

/-! ## Whole texts -/

/-- What a reader reads from a whole text, after which only blanks may follow. -/
def whole {α : Type} (reader : Reader Fault α) (text : String) : Except Fault α :=
  match reader.run text.toList with
  | .error e => .error e
  | .ok (a, rest) =>
    if skipBlanks rest = [] then .ok a else .error (.malformed .trailingCharacters)

/-- The value that a text writes, in canonical order. -/
def parse (text : String) : Except Fault Value :=
  match whole (tree maxNesting) text with
  | .error e => .error e
  | .ok v => .ok v.canonical

end TermLint.Json

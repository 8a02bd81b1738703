/-
  TermLint.Toml.Inline

  Values: scalars, strings, arrays and inline tables.  At most eighty arrays and
  inline tables may stand inside one another, so the reader is a recursion on the
  levels that are left.
-/

import TermLint.Text.Reader
import TermLint.Toml.Scalar
import TermLint.Toml.Table

namespace TermLint.Toml

open Text (Reader)

/-- How many arrays and inline tables may stand inside one another. -/
def maxNesting : Nat := 80

/-! ## Arrays and inline tables -/

/-- What follows an entry of an array or inline table: the text after the comma, or the text after
the closing bracket. -/
inductive Turn where
  | next (rest : List Char)
  | closed (rest : List Char)

/-- The turn after an entry. -/
def turn (bracket : Char) (s : List Char) : Except Fault Turn :=
  match gap false s with
  | .error e => .error e
  | .ok [] => .error .malformed
  | .ok (c :: t) =>
    if c = ',' then .ok (.next t)
    else if c = bracket then .ok (.closed t)
    else .error .malformed

theorem turn_next_lt {bracket : Char} {s rest : List Char} (h : turn bracket s = .ok (.next rest)) :
    rest.length < s.length := by
  unfold turn at h
  split at h
  · cases h
  · cases h
  · rename_i hg
    have := gap_le hg
    split at h
    · cases h; exact this
    · split at h <;> cases h

theorem turn_closed_lt {bracket : Char} {s rest : List Char}
    (h : turn bracket s = .ok (.closed rest)) : rest.length < s.length := by
  unfold turn at h
  split at h
  · cases h
  · cases h
  · rename_i hg
    have := gap_le hg
    split at h
    · cases h
    · split at h
      · cases h; exact this
      · cases h

/-- The entries of an array or inline table up to its closing bracket, after those already read,
which are in reverse.  A comma may stand after the last entry. -/
def entriesFrom {α : Type} (bracket : Char) (entry : Reader Fault α) (done : List α)
    (s : List Char) : Taken (List α) :=
  match hg : gap false s with
  | .error e => .error e
  | .ok [] => .error .malformed
  | .ok (c :: t) =>
    if c = bracket then .ok (done.reverse, t)
    else
      match hr : entry.run (c :: t) with
      | .error e => .error e
      | .ok (a, u) =>
        match ht : turn bracket u with
        | .error e => .error e
        | .ok (.closed rest) => .ok ((a :: done).reverse, rest)
        | .ok (.next rest) =>
          have := gap_le hg
          have := entry.shrinks hr
          have := turn_next_lt ht
          entriesFrom bracket entry (a :: done) rest
termination_by s.length
decreasing_by simp only [List.length_cons] at *; omega

theorem entriesFrom_lt {α : Type} {bracket : Char} {entry : Reader Fault α} {done entries : List α}
    {s rest : List Char} (h : entriesFrom bracket entry done s = .ok (entries, rest)) :
    rest.length < s.length := by
  fun_induction entriesFrom bracket entry done s with
  | case1 => cases h
  | case2 => cases h
  | case3 done s t hg => cases h; exact gap_le hg
  | case4 => cases h
  | case5 => cases h
  | case6 done s c t hg hc a u hr rest' ht =>
    cases h
    have := gap_le hg
    have := entry.shrinks hr
    have := turn_closed_lt ht
    omega
  | case7 done s c t hg hc a u hr rest' ht h1 h2 h3 ih =>
    have := ih h
    omega

/-- The text after an equals sign and the blanks around it. -/
def afterEquals (broken : Bool) (s : List Char) : Except Fault (List Char) :=
  match skipBlanks broken s with
  | .error e => .error e
  | .ok ('=' :: t) => skipBlanks broken t
  | .ok _ => .error .malformed

theorem afterEquals_lt {broken : Bool} {s rest : List Char} (h : afterEquals broken s = .ok rest) :
    rest.length < s.length := by
  unfold afterEquals at h
  split at h
  · cases h
  · rename_i hs
    exact Nat.lt_of_le_of_lt (skipBlanks_le h) (skipBlanks_le hs)
  · cases h

/-- Reads a path of keys, an equals sign and a value.  In an inline table the line may be broken
before and after the equals sign, though not inside the path. -/
def pair (broken : Bool) (value : Reader Fault Data) : Reader Fault (KeyPath × Data) where
  run s :=
    match keyPathFrom [] s with
    | .error e => .error e
    | .ok (path, t) =>
      match afterEquals broken t with
      | .error e => .error e
      | .ok u =>
        match value.run u with
        | .error e => .error e
        | .ok (data, rest) => .ok ((path, data), rest)
  shrinks {s a rest} h := by
    split at h
    · cases h
    · rename_i hk
      split at h
      · cases h
      · rename_i he
        split at h
        · cases h
        · rename_i hr
          cases h
          exact Nat.lt_trans (value.shrinks hr)
            (Nat.lt_trans (afterEquals_lt he) (keyPathFrom_lt hk))

/-- Assign all pairs, in order. -/
def assignAll (table : Table) : List (KeyPath × Data) → Except Fault Table
  | [] => .ok table
  | (path, data) :: rest =>
    match table.assign path data with
    | .error e => .error e
    | .ok table => assignAll table rest

/-- The data of an inline table, which is complete. -/
def inlineData (pairs : List (KeyPath × Data)) : Except Fault Data :=
  match assignAll (Table.empty .declared) pairs with
  | .error e => .error e
  | .ok table => .ok table.toData

/-! ## Values -/

/-- A value without quotes. -/
def bareValue (s : List Char) : Taken Data :=
  match scalar? (splitRun s).1 with
  | none => .error .malformed
  | some data => .ok (data, (splitRun s).2)

/-- A value, with a reader for the values inside an array or inline table unless the nesting is
used up. -/
def valueFrom (inner : Option (Reader Fault Data)) (s : List Char) : Taken Data :=
  match s with
  | [] => .error .malformed
  | c :: t =>
    if c = '"' ∨ c = '\x27' then
      match quotedString c (c :: t) with
      | .error e => .error e
      | .ok (text, rest) => .ok (.string text, rest)
    else if c = '[' then
      match inner with
      | none => .error .tooDeep
      | some inner =>
        match entriesFrom ']' inner [] t with
        | .error e => .error e
        | .ok (items, rest) => .ok (.array items, rest)
    else if c = '\x7b' then
      match inner with
      | none => .error .tooDeep
      | some inner =>
        match entriesFrom '\x7d' (pair true inner) [] t with
        | .error e => .error e
        | .ok (pairs, rest) =>
          match inlineData pairs with
          | .error e => .error e
          | .ok data => .ok (data, rest)
    else if isRunChar c then bareValue (c :: t)
    else .error .malformed

theorem bareValue_lt {c : Char} {t rest : List Char} {data : Data} (hc : isRunChar c = true)
    (h : bareValue (c :: t) = .ok (data, rest)) : rest.length < (c :: t).length := by
  unfold bareValue at h
  split at h
  · cases h
  · cases h; exact length_splitRun_lt hc

theorem valueFrom_lt {inner : Option (Reader Fault Data)} {s rest : List Char} {data : Data}
    (h : valueFrom inner s = .ok (data, rest)) : rest.length < s.length := by
  unfold valueFrom at h
  split at h
  · cases h
  · rename_i c t
    split at h
    · split at h
      · cases h
      · rename_i hq
        cases h
        exact quotedString_lt hq
    split at h
    · split at h
      · cases h
      · split at h
        · cases h
        · rename_i hi
          cases h
          exact Nat.lt_succ_of_lt (entriesFrom_lt hi)
    split at h
    · split at h
      · cases h
      · split at h
        · cases h
        · rename_i hp
          split at h
          · cases h
          · cases h
            exact Nat.lt_succ_of_lt (entriesFrom_lt hp)
    split at h
    · rename_i hc
      exact bareValue_lt hc h
    · cases h

/-- Reads a value in which at most the given number of arrays and inline tables are nested. -/
def value : Nat → Reader Fault Data
  | 0 => ⟨valueFrom none, valueFrom_lt⟩
  | levels + 1 => ⟨valueFrom (some (value levels)), valueFrom_lt⟩

end TermLint.Toml

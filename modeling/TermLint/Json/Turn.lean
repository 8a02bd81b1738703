/-
  TermLint.Json.Turn

  The punctuation of lists and objects: what stands between two entries, before
  the first one and after the last.  A turn either closes the list or object or
  leads to one more entry.
-/

import TermLint.Json.Lexeme
import TermLint.Text.Reader

namespace TermLint.Json

open Text (Reader)

/-- Where a list or an object goes on. -/
inductive Turn where
  /-- Its closing bracket was taken. -/
  | closed (rest : List Char)
  /-- One more entry begins here. -/
  | entry (rest : List Char)

/-- The turn in a list, before its first item or after an item. -/
def itemTurn (first : Bool) (s : List Char) : Except Fault Turn :=
  match skipBlanks s with
  | [] => .error (.unfinished .list)
  | c :: t =>
    if c = ']' then .ok (.closed t)
    else if first then .ok (.entry (c :: t))
    else if c = ',' then
      match skipBlanks t with
      | [] => .error (.unfinished .value)
      | d :: u =>
        if d = ']' then .error (.malformed .trailingComma) else .ok (.entry (d :: u))
    else .error (.malformed .expectedItemOrEnd)

/-- The turn in an object, before its first field or after a field.  A field begins right after the
opening quote of its key. -/
def keyTurn (first : Bool) (s : List Char) : Except Fault Turn :=
  match skipBlanks s with
  | [] => .error (.unfinished .object)
  | c :: t =>
    if c = '\x7d' then .ok (.closed t)
    else if first then
      if c = '"' then .ok (.entry t) else .error (.malformed .keyNotString)
    else if c = ',' then
      match skipBlanks t with
      | [] => .error (.unfinished .value)
      | d :: u =>
        if d = '"' then .ok (.entry u)
        else if d = '\x7d' then .error (.malformed .trailingComma)
        else .error (.malformed .keyNotString)
    else .error (.malformed .expectedFieldOrEnd)

/-- The text after the colon between a key and its value. -/
def colon (s : List Char) : Except Fault (List Char) :=
  match skipBlanks s with
  | [] => .error (.unfinished .object)
  | c :: t => if c = ':' then .ok t else .error (.malformed .expectedColon)

/-- The text after the bracket that closes a list to which nothing may be added. -/
def listEnd (s : List Char) : Except Fault (List Char) :=
  match skipBlanks s with
  | [] => .error (.unfinished .list)
  | c :: t =>
    if c = ']' then .ok t
    else if c = ',' then
      match skipBlanks t with
      | ']' :: _ => .error (.malformed .trailingComma)
      | _ => .error (.malformed .trailingCharacters)
    else .error (.malformed .trailingCharacters)

/-- A key and the colon after it, given the text after its opening quote. -/
def keyColon (s : List Char) : Taken String :=
  match stringFrom [] s with
  | .error e => .error e
  | .ok (key, t) =>
    match colon t with
    | .error e => .error e
    | .ok rest => .ok (key, rest)

/-! ## Something is always taken -/

theorem length_cons_le_of_skipBlanks {s t : List Char} {c : Char} (h : skipBlanks s = c :: t) :
    t.length + 1 ≤ s.length := by
  have := length_skipBlanks_le s
  rwa [h, List.length_cons] at this

theorem itemTurn_closed_lt {first : Bool} {s rest : List Char}
    (h : itemTurn first s = .ok (.closed rest)) : rest.length < s.length := by
  unfold itemTurn at h
  split at h
  · cases h
  · rename_i hs
    have hlt := length_cons_le_of_skipBlanks hs
    split at h
    · cases h; exact hlt
    · split at h
      · cases h
      · split at h
        · split at h
          · cases h
          · split at h <;> cases h
        · cases h

theorem itemTurn_entry_le {first : Bool} {s rest : List Char}
    (h : itemTurn first s = .ok (.entry rest)) : rest.length ≤ s.length := by
  unfold itemTurn at h
  split at h
  · cases h
  · rename_i hs
    have hlt := length_cons_le_of_skipBlanks hs
    split at h
    · cases h
    · split at h
      · cases h; exact hlt
      · split at h
        · split at h
          · cases h
          · rename_i hu
            have := length_cons_le_of_skipBlanks hu
            split at h
            · cases h
            · cases h
              simp only [List.length_cons]
              omega
        · cases h

theorem keyTurn_closed_lt {first : Bool} {s rest : List Char}
    (h : keyTurn first s = .ok (.closed rest)) : rest.length < s.length := by
  unfold keyTurn at h
  split at h
  · cases h
  · rename_i hs
    have hlt := length_cons_le_of_skipBlanks hs
    split at h
    · cases h; exact hlt
    · split at h
      · split at h <;> cases h
      · split at h
        · split at h
          · cases h
          · split at h
            · cases h
            · split at h <;> cases h
        · cases h

theorem keyTurn_entry_lt {first : Bool} {s rest : List Char}
    (h : keyTurn first s = .ok (.entry rest)) : rest.length < s.length := by
  unfold keyTurn at h
  split at h
  · cases h
  · rename_i hs
    have hlt := length_cons_le_of_skipBlanks hs
    split at h
    · cases h
    · split at h
      · split at h
        · cases h; exact hlt
        · cases h
      · split at h
        · split at h
          · cases h
          · rename_i hu
            have := length_cons_le_of_skipBlanks hu
            split at h
            · cases h; omega
            · split at h <;> cases h
        · cases h

theorem colon_lt {s rest : List Char} (h : colon s = .ok rest) : rest.length < s.length := by
  unfold colon at h
  split at h
  · cases h
  · rename_i hs
    have hlt := length_cons_le_of_skipBlanks hs
    split at h
    · cases h; exact hlt
    · cases h

theorem listEnd_lt {s rest : List Char} (h : listEnd s = .ok rest) : rest.length < s.length := by
  unfold listEnd at h
  split at h
  · cases h
  · rename_i hs
    have hlt := length_cons_le_of_skipBlanks hs
    split at h
    · cases h; exact hlt
    · split at h
      · split at h <;> cases h
      · cases h

theorem keyColon_lt {s rest : List Char} {key : String} (h : keyColon s = .ok (key, rest)) :
    rest.length < s.length := by
  unfold keyColon at h
  split at h
  · cases h
  · rename_i hk
    split at h
    · cases h
    · rename_i hc
      cases h
      exact Nat.lt_trans (colon_lt hc) (stringFrom_lt hk)

/-! ## Lists and objects of one kind of entry -/

variable {α : Type}

/-- The items of a list from a turn on, after those already read, which are in reverse. -/
def itemsFrom (item : Reader Fault α) (first : Bool) (done : List α) (s : List Char) :
    Taken (List α) :=
  match ht : itemTurn first s with
  | .error e => .error e
  | .ok (.closed rest) => .ok (done.reverse, rest)
  | .ok (.entry t) =>
    match hr : item.run t with
    | .error e => .error e
    | .ok (a, rest) =>
      have := Nat.lt_of_lt_of_le (item.shrinks hr) (itemTurn_entry_le ht)
      itemsFrom item false (a :: done) rest
termination_by s.length

/-- The fields of an object from a turn on, after those already read, which are in reverse. -/
def fieldsFrom (value : Reader Fault α) (first : Bool) (done : List (String × α))
    (s : List Char) : Taken (List (String × α)) :=
  match ht : keyTurn first s with
  | .error e => .error e
  | .ok (.closed rest) => .ok (done.reverse, rest)
  | .ok (.entry t) =>
    match hk : keyColon t with
    | .error e => .error e
    | .ok (key, u) =>
      match hr : value.run u with
      | .error e => .error e
      | .ok (a, rest) =>
        have :=
          Nat.lt_trans (value.shrinks hr) (Nat.lt_trans (keyColon_lt hk) (keyTurn_entry_lt ht))
        fieldsFrom value false ((key, a) :: done) rest
termination_by s.length

theorem itemsFrom_lt {item : Reader Fault α} {first : Bool} {done items : List α}
    {s rest : List Char} (h : itemsFrom item first done s = .ok (items, rest)) :
    rest.length < s.length := by
  fun_induction itemsFrom item first done s with
  | case1 => cases h
  | case2 first done s rest' ht => cases h; exact itemTurn_closed_lt ht
  | case3 => cases h
  | case4 first done s t ht a rest' hr hlt ih => exact Nat.lt_trans (ih h) hlt

theorem fieldsFrom_lt {value : Reader Fault α} {first : Bool} {done fields : List (String × α)}
    {s rest : List Char} (h : fieldsFrom value first done s = .ok (fields, rest)) :
    rest.length < s.length := by
  fun_induction fieldsFrom value first done s with
  | case1 => cases h
  | case2 first done s rest' ht => cases h; exact keyTurn_closed_lt ht
  | case3 => cases h
  | case4 => cases h
  | case5 first done s t ht key u hk a rest' hr hlt ih => exact Nat.lt_trans (ih h) hlt

end TermLint.Json

/-
  TermLint.Json.Pass

  Passing over a value that is not kept, as for a field that nobody asked for.
  Less is checked than when a value is read: nesting has no limit, numbers may
  have any size, and surrogates need no partner.
-/

import TermLint.Json.Turn

namespace TermLint.Json

open Text (Reader)

/-- A list or an object that is open around the place that was reached. -/
inductive Bracket where
  | list
  | object
  deriving DecidableEq

/-- What closes a bracket. -/
def Bracket.closing : Bracket → Char
  | .list => ']'
  | .object => '\x7d'

/-- A text that ends inside a bracket. -/
def Bracket.unfinished : Bracket → Fault
  | .list => .unfinished .list
  | .object => .unfinished .object

/-- Neither a comma nor the closing bracket after an entry. -/
def Bracket.expectedEnd : Bracket → Fault
  | .list => .malformed .expectedItemOrEnd
  | .object => .malformed .expectedFieldOrEnd

/-- What comes next while a value is passed over. -/
inductive Stage where
  /-- A value. -/
  | value
  /-- An entry of the innermost bracket: a value, with its key in an object. -/
  | entry
  /-- The end of the innermost bracket or one more entry, for which a comma is needed when an entry
  came before. -/
  | turn (comma : Bool)

/-- How many steps a stage may take before something is taken from the text. -/
def Stage.rank : Stage → Nat
  | .value => 0
  | .entry => 1
  | .turn _ => 2

/-- The text after a word, a string or a number that is not kept. -/
def passScalar (s : List Char) : Except Fault (List Char) :=
  match s with
  | [] => .error (.unfinished .value)
  | c :: t =>
    if c = 'n' then word ['u', 'l', 'l'] t
    else if c = 't' then word ['r', 'u', 'e'] t
    else if c = 'f' then word ['a', 'l', 's', 'e'] t
    else if c = '"' then passString t
    else if startsNumber c then passNumber (c :: t)
    else .error (.malformed .expectedValue)

/-- The key of a field that is not kept and the colon after it. -/
def passKey (s : List Char) : Except Fault (List Char) :=
  match skipBlanks s with
  | [] => .error (.unfinished .object)
  | c :: t =>
    if c = '"' then
      match passString t with
      | .error e => .error e
      | .ok u => colon u
    else .error (.malformed .keyNotString)

theorem passScalar_lt {s rest : List Char} (h : passScalar s = .ok rest) :
    rest.length < s.length := by
  cases s with
  | nil => cases h
  | cons c t =>
    rw [passScalar] at h
    split at h
    · exact Nat.lt_succ_of_le (word_le h)
    split at h
    · exact Nat.lt_succ_of_le (word_le h)
    split at h
    · exact Nat.lt_succ_of_le (word_le h)
    split at h
    · exact Nat.lt_succ_of_lt (passString_lt h)
    split at h
    · exact passNumber_lt h
    · cases h

theorem passKey_lt {s rest : List Char} (h : passKey s = .ok rest) : rest.length < s.length := by
  unfold passKey at h
  split at h
  · cases h
  · rename_i hs
    have hlt := length_cons_le_of_skipBlanks hs
    split at h
    · split at h
      · cases h
      · rename_i hp
        have h1 := passString_lt hp
        have h2 := colon_lt h
        omega
    · cases h

/-- The text after what is left of a value: `around` holds the brackets that are open inside it,
innermost first. -/
def pass (stage : Stage) (around : List Bracket) (s : List Char) : Except Fault (List Char) :=
  match stage with
  | .value =>
    match hs : skipBlanks s with
    | [] => .error (.unfinished .value)
    | c :: t =>
      have := length_cons_le_of_skipBlanks hs
      if c = '[' then pass (.turn false) (.list :: around) t
      else if c = '\x7b' then pass (.turn false) (.object :: around) t
      else
        match hp : passScalar (c :: t) with
        | .error e => .error e
        | .ok rest =>
          have := passScalar_lt hp
          pass (.turn true) around rest
  | .entry =>
    match around with
    | .object :: _ =>
      match hk : passKey s with
      | .error e => .error e
      | .ok rest =>
        have := passKey_lt hk
        pass .value around rest
    | _ => pass .value around s
  | .turn comma =>
    match around with
    | [] => .ok s
    | bracket :: outer =>
      match hs : skipBlanks s with
      | [] => .error bracket.unfinished
      | c :: t =>
        have := length_cons_le_of_skipBlanks hs
        if comma = true ∧ c = ',' then pass .entry (bracket :: outer) t
        else if c = bracket.closing then pass (.turn true) outer t
        else if comma then .error bracket.expectedEnd
        else pass .entry (bracket :: outer) (c :: t)
termination_by (s.length, stage.rank)
decreasing_by
  all_goals simp_wf
  all_goals simp only [Prod.lex_def, Stage.rank, List.length_cons, true_and] at *
  all_goals omega

theorem pass_le {stage : Stage} {around : List Bracket} {s rest : List Char}
    (h : pass stage around s = .ok rest) :
    rest.length ≤ s.length ∧ (stage = .value → rest.length < s.length) := by
  fun_induction pass stage around s with
  | case1 => cases h
  | case2 around s t hs hlt ih =>
    obtain ⟨h1, -⟩ := ih h
    exact ⟨by omega, fun _ => by omega⟩
  | case3 around s t hs hlt _ ih =>
    obtain ⟨h1, -⟩ := ih h
    exact ⟨by omega, fun _ => by omega⟩
  | case4 => cases h
  | case5 around s c t hs hlt _ _ rest' hp hlt' ih =>
    obtain ⟨h1, -⟩ := ih h
    rw [List.length_cons] at hlt'
    exact ⟨by omega, fun _ => by omega⟩
  | case6 => cases h
  | case7 s outer rest' hk hlt ih =>
    obtain ⟨h1, -⟩ := ih h
    exact ⟨by omega, fun he => by cases he⟩
  | case8 around s hne ih =>
    obtain ⟨h1, -⟩ := ih h
    exact ⟨h1, fun he => by cases he⟩
  | case9 => cases h; exact ⟨Nat.le_refl _, fun he => by cases he⟩
  | case10 => cases h
  | case11 s comma bracket outer c t hs hlt _ ih =>
    obtain ⟨h1, -⟩ := ih h
    exact ⟨by omega, fun he => by cases he⟩
  | case12 s comma bracket outer t hs hlt _ ih =>
    obtain ⟨h1, -⟩ := ih h
    exact ⟨by omega, fun he => by cases he⟩
  | case13 => cases h
  | case14 s comma bracket outer c t hs hlt _ _ _ ih =>
    obtain ⟨h1, -⟩ := ih h
    rw [List.length_cons] at h1
    exact ⟨by omega, fun he => by cases he⟩

/-- Passes over one value. -/
def passed : Reader Fault Unit where
  run s :=
    match pass .value [] s with
    | .error e => .error e
    | .ok rest => .ok ((), rest)
  shrinks {s a rest} h := by
    split at h
    · cases h
    · rename_i hp
      cases h
      exact (pass_le hp).2 rfl

end TermLint.Json

/-
  TermLint.Toml.Scalar

  Values without quotes: truth values, numbers and times.  Such a value is one run
  of characters, which is judged as a whole.
-/

import TermLint.Toml.Number
import TermLint.Toml.Time

namespace TermLint.Toml

/-- A character that ends a value without quotes. -/
def endsRun (c : Char) : Bool :=
  ['=', ',', '[', ']', '\x7b', '\x7d', '#', ' ', '\t', '\r', '\n'].contains c

/-- A character of a value without quotes. -/
def isRunChar (c : Char) : Bool := !endsRun c

/-- The value without quotes that stands first, and the text after it.  A space between a date and
a time is part of it. -/
def splitRun (s : List Char) : List Char × List Char :=
  let run := s.takeWhile isRunChar
  let rest := s.dropWhile isRunChar
  match afterDate? run, rest with
  | some [], ' ' :: d :: t =>
    if d.isDigit then (run ++ ' ' :: d :: t.takeWhile isRunChar, t.dropWhile isRunChar)
    else (run, rest)
  | _, _ => (run, rest)

/-- The data that a run of characters writes. -/
def scalar? (run : List Char) : Option Data :=
  if run = ['t', 'r', 'u', 'e'] then some (.bool true)
  else if run = ['f', 'a', 'l', 's', 'e'] then some (.bool false)
  else if isTime run then some .time
  else number? run

theorem length_splitRun_lt {c : Char} {t : List Char} (hc : isRunChar c = true) :
    (splitRun (c :: t)).2.length < (c :: t).length := by
  have hle : (t.dropWhile isRunChar).length ≤ t.length := (List.dropWhile_sublist _).length_le
  have hdrop : (c :: t).dropWhile isRunChar = t.dropWhile isRunChar := by
    rw [List.dropWhile_cons, if_pos hc]
  simp only [splitRun, hdrop, List.length_cons]
  split
  · rename_i d u _ hs
    rw [hs, List.length_cons, List.length_cons] at hle
    split
    · have hless : (u.dropWhile isRunChar).length ≤ u.length :=
        (List.dropWhile_sublist _).length_le
      simp only
      omega
    · simp only [hs, List.length_cons]
      omega
  · exact Nat.lt_succ_of_le hle

end TermLint.Toml

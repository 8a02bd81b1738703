/-
  TermLint.Toml.Lexeme

  The leaves of the settings language: spaces, comments and line ends, the four
  kinds of strings, and keys.  Each function takes one of them from the front of a
  text and gives what it stands for with the text after it.
-/

import TermLint.Text.Digits

namespace TermLint.Toml

open Text (hexDigit? digitsValue)

/-- Why a text is not a document. -/
inductive Fault where
  /-- The text does not follow the grammar. -/
  | malformed
  /-- Too many arrays and inline tables stand inside one another, or a path has too many names. -/
  | tooDeep
  /-- A key is defined twice, or a table is extended where it may not be. -/
  | redefined (key : String)
  deriving DecidableEq, Repr

/-- The result of taking an `α` from the front of a text. -/
abbrev Taken (α : Type) := Except Fault (α × List Char)

/-! ## Spaces, comments and line ends -/

/-- The blanks inside a line. -/
def isSpace (c : Char) : Bool := c == ' ' || c == '\t'

/-- The text from the first character that is not a space. -/
def skipSpaces (s : List Char) : List Char :=
  s.dropWhile isSpace

/-- A control character, which may stand neither in a comment nor in a string; a tab may. -/
def isControl (c : Char) : Bool :=
  (c.toNat < 0x20 && c != '\t') || c.toNat == 0x7F

/-- Whether a line feed comes first. -/
def startsLine : List Char → Bool
  | '\n' :: _ => true
  | _ => false

/-- The text after spaces, line ends and comments; the flag says that a comment is going on.  A
carriage return is part of a line end and nothing else. -/
def gap (comment : Bool) : List Char → Except Fault (List Char)
  | [] => .ok []
  | c :: s =>
    if c = '\n' then gap false s
    else if c = '\r' then
      if startsLine s then gap false s else .error .malformed
    else if comment then
      if isControl c then .error .malformed else gap true s
    else if isSpace c then gap false s
    else if c = '#' then gap true s
    else .ok (c :: s)

/-- The text after blanks: spaces and, where lines may be broken, line ends and comments. -/
def skipBlanks (broken : Bool) (s : List Char) : Except Fault (List Char) :=
  if broken then gap false s else .ok (skipSpaces s)

/-- The text after spaces and line ends. -/
def skipBreaks : List Char → Except Fault (List Char)
  | [] => .ok []
  | c :: s =>
    if isSpace c || c == '\n' then skipBreaks s
    else if c = '\r' then
      if startsLine s then skipBreaks s else .error .malformed
    else .ok (c :: s)

/-- The start of the next statement: the line of the last one must be over, but for a comment. -/
def nextLine (s : List Char) : Except Fault (List Char) :=
  match skipSpaces s with
  | [] => .ok []
  | c :: t =>
    if c = '\n' ∨ c = '\r' ∨ c = '#' then gap false (c :: t) else .error .malformed

/-! ## Strings -/

/-- The character that a number of hexadecimal digits write. -/
def hexEscape (count : Nat) (s : List Char) : Taken Char :=
  let digits := s.take count
  let code := digitsValue 16 digits
  if digits.length = count ∧ digits.all (fun c => (hexDigit? c).isSome) ∧ code.isValidChar then
    .ok (Char.ofNat code, s.drop count)
  else .error .malformed

/-- The character of a one-letter escape. -/
def letterEscape? (c : Char) : Option Char :=
  match c with
  | '"' => some '"'
  | '\\' => some '\\'
  | 'b' => some '\x08'
  | 'e' => some '\x1b'
  | 'f' => some '\x0c'
  | 'n' => some '\n'
  | 'r' => some '\r'
  | 't' => some '\t'
  | _ => none

/-- The character of an escape, given what follows the backslash. -/
def escape : List Char → Taken Char
  | [] => .error .malformed
  | c :: s =>
    if c = 'x' then hexEscape 2 s
    else if c = 'u' then hexEscape 4 s
    else if c = 'U' then hexEscape 8 s
    else
      match letterEscape? c with
      | some c => .ok (c, s)
      | none => .error .malformed

/-- The rest of a literal string after its opening quote, given the characters already read in
reverse. -/
def literalFrom (read : List Char) : List Char → Taken String
  | [] => .error .malformed
  | c :: s =>
    if c = '\x27' then .ok (String.ofList read.reverse, s)
    else if isControl c then .error .malformed
    else literalFrom (c :: read) s

/-- The text that a string of several lines begins with: a line end right after its opening quotes
is not part of it. -/
def openingBreak : List Char → List Char
  | '\n' :: s => s
  | '\r' :: '\n' :: s => s
  | s => s

/-- Whether the closing quotes of a string of several lines come first. -/
def closes (quote : Char) : List Char → Bool
  | a :: b :: c :: _ => a == quote && b == quote && c == quote
  | _ => false

/-- The end of a string of several lines at its closing quotes.  Up to two quotes right before them
belong to the string. -/
def closing (quote : Char) (read : List Char) (s : List Char) : String × List Char :=
  let extra := ((s.drop 3).takeWhile (· == quote)).take 2
  (String.ofList (extra ++ read).reverse, s.drop (3 + extra.length))

/-- The rest of a literal string of several lines, given the characters already read in reverse. -/
def literalLinesFrom (read : List Char) : List Char → Taken String
  | [] => .error .malformed
  | c :: s =>
    if closes '\x27' (c :: s) then .ok (closing '\x27' read (c :: s))
    else if c = '\r' ∧ startsLine s = false then .error .malformed
    else if isControl c ∧ c ≠ '\n' ∧ c ≠ '\r' then .error .malformed
    else literalLinesFrom (c :: read) s

theorem hexEscape_le {count : Nat} {s rest : List Char} {c : Char}
    (h : hexEscape count s = .ok (c, rest)) : rest.length ≤ s.length := by
  simp only [hexEscape] at h
  split at h
  · cases h; simp
  · cases h

theorem escape_lt {s rest : List Char} {c : Char} (h : escape s = .ok (c, rest)) :
    rest.length < s.length := by
  cases s with
  | nil => cases h
  | cons d s =>
    rw [escape] at h
    split at h
    · exact Nat.lt_succ_of_le (hexEscape_le h)
    split at h
    · exact Nat.lt_succ_of_le (hexEscape_le h)
    split at h
    · exact Nat.lt_succ_of_le (hexEscape_le h)
    split at h
    · cases h; simp
    · cases h

/-- The rest of a basic string after its opening quote, given the characters already read in
reverse. -/
def basicFrom (read : List Char) (s : List Char) : Taken String :=
  match s with
  | [] => .error .malformed
  | c :: s =>
    if c = '"' then .ok (String.ofList read.reverse, s)
    else if c = '\\' then
      match h : escape s with
      | .error e => .error e
      | .ok (c, rest) =>
        have := escape_lt h
        basicFrom (c :: read) rest
    else if isControl c then .error .malformed
    else basicFrom (c :: read) s
termination_by s.length
decreasing_by all_goals simp_wf <;> omega

/-- Whether a line ends here, but for spaces. -/
def endsLine (s : List Char) : Bool :=
  match skipSpaces s with
  | c :: _ => c == '\n' || c == '\r'
  | [] => false

theorem skipBreaks_le {s rest : List Char} (h : skipBreaks s = .ok rest) :
    rest.length ≤ s.length := by
  induction s with
  | nil => cases h; exact Nat.le_refl _
  | cons c s ih =>
    rw [skipBreaks] at h
    split at h
    · exact Nat.le_succ_of_le (ih h)
    split at h
    · split at h
      · exact Nat.le_succ_of_le (ih h)
      · cases h
    · cases h; exact Nat.le_refl _

/-- The rest of a basic string of several lines, given the characters already read in reverse.  A
backslash at the end of a line takes all blanks and line ends after it along. -/
def basicLinesFrom (read : List Char) (s : List Char) : Taken String :=
  match s with
  | [] => .error .malformed
  | c :: s =>
    if closes '"' (c :: s) then .ok (closing '"' read (c :: s))
    else if c = '\\' then
      if endsLine s then
        match h : skipBreaks s with
        | .error e => .error e
        | .ok rest =>
          have := skipBreaks_le h
          basicLinesFrom read rest
      else
        match h : escape s with
        | .error e => .error e
        | .ok (c, rest) =>
          have := escape_lt h
          basicLinesFrom (c :: read) rest
    else if c = '\r' ∧ startsLine s = false then .error .malformed
    else if isControl c ∧ c ≠ '\n' ∧ c ≠ '\r' then .error .malformed
    else basicLinesFrom (c :: read) s
termination_by s.length
decreasing_by all_goals simp_wf <;> omega

/-- A string, given the text from its first quote. -/
def quotedString (quote : Char) (s : List Char) : Taken String :=
  if closes quote s then
    if quote = '"' then basicLinesFrom [] (openingBreak (s.drop 3))
    else literalLinesFrom [] (openingBreak (s.drop 3))
  else if quote = '"' then basicFrom [] (s.drop 1)
  else literalFrom [] (s.drop 1)

/-! ## Keys -/

/-- A character of a key without quotes. -/
def isBareKey (c : Char) : Bool :=
  c.isAlphanum || c == '_' || c == '-'

/-- A key, in quotes or bare. -/
def key : List Char → Taken String
  | [] => .error .malformed
  | c :: s =>
    if c = '"' then basicFrom [] s
    else if c = '\x27' then literalFrom [] s
    else if isBareKey c then
      .ok (String.ofList (c :: s.takeWhile isBareKey), s.dropWhile isBareKey)
    else .error .malformed

/-- The name of an entry and of the tables it is in, from the outside in. -/
structure KeyPath where
  tables : List String
  name : String
  deriving DecidableEq, Repr

/-- All names of a path. -/
def KeyPath.names (path : KeyPath) : List String :=
  path.tables ++ [path.name]

theorem literalFrom_lt {read s rest : List Char} {text : String}
    (h : literalFrom read s = .ok (text, rest)) : rest.length < s.length := by
  induction s generalizing read with
  | nil => cases h
  | cons c s ih =>
    rw [literalFrom] at h
    split at h
    · cases h; simp
    split at h
    · cases h
    · exact Nat.lt_succ_of_lt (ih h)

theorem basicFrom_lt {read s rest : List Char} {text : String}
    (h : basicFrom read s = .ok (text, rest)) : rest.length < s.length := by
  fun_induction basicFrom read s with
  | case1 => cases h
  | case2 read s => cases h; simp
  | case3 => cases h
  | case4 read s _ c rest' he hlt ih =>
    have := ih h
    simp only [List.length_cons]
    omega
  | case5 => cases h
  | case6 read c s _ _ _ ih =>
    have := ih h
    simp only [List.length_cons]
    omega

theorem length_skipSpaces_le (s : List Char) : (skipSpaces s).length ≤ s.length :=
  (List.dropWhile_sublist _).length_le

theorem key_lt {s rest : List Char} {name : String} (h : key s = .ok (name, rest)) :
    rest.length < s.length := by
  cases s with
  | nil => cases h
  | cons c s =>
    rw [key] at h
    split at h
    · exact Nat.lt_succ_of_lt (basicFrom_lt h)
    split at h
    · exact Nat.lt_succ_of_lt (literalFrom_lt h)
    split at h
    · cases h; exact Nat.lt_succ_of_le (List.dropWhile_sublist _).length_le
    · cases h

/-- How many names a path may have. -/
def maxNames : Nat := 80

/-- A path of keys with points between them, after the keys already read, which are in reverse;
spaces may stand around the points and are taken after the last key. -/
def keyPathFrom (done : List String) (s : List Char) : Taken KeyPath :=
  match h : key s with
  | .error e => .error e
  | .ok (name, t) =>
    match _hs : skipSpaces t with
    | '.' :: u =>
      if maxNames ≤ done.length + 1 then .error .tooDeep
      else
        have := key_lt h
        have := length_skipSpaces_le t
        have := length_skipSpaces_le u
        keyPathFrom (name :: done) (skipSpaces u)
    | u => .ok (⟨done.reverse, name⟩, u)
termination_by s.length
decreasing_by simp only [_hs, List.length_cons] at *; omega

theorem keyPathFrom_lt {done : List String} {s rest : List Char} {path : KeyPath}
    (h : keyPathFrom done s = .ok (path, rest)) : rest.length < s.length := by
  fun_induction keyPathFrom done s with
  | case1 => cases h
  | case2 => cases h
  | case3 done s name t hk u hs hmax hlt1 hlt2 hlt3 ih =>
    have := ih h
    simp only [hs, List.length_cons] at *
    omega
  | case4 done s name t hk _ =>
    cases h
    have := key_lt hk
    have := length_skipSpaces_le t
    omega

/-! ## Nothing is added -/

theorem gap_le {comment : Bool} {s rest : List Char} (h : gap comment s = .ok rest) :
    rest.length ≤ s.length := by
  induction s generalizing comment with
  | nil => cases h; exact Nat.le_refl _
  | cons c s ih =>
    rw [gap] at h
    split at h
    · exact Nat.le_succ_of_le (ih h)
    split at h
    · split at h
      · exact Nat.le_succ_of_le (ih h)
      · cases h
    split at h
    · split at h
      · cases h
      · exact Nat.le_succ_of_le (ih h)
    split at h
    · exact Nat.le_succ_of_le (ih h)
    split at h
    · exact Nat.le_succ_of_le (ih h)
    · cases h; exact Nat.le_refl _

theorem skipBlanks_le {broken : Bool} {s rest : List Char} (h : skipBlanks broken s = .ok rest) :
    rest.length ≤ s.length := by
  cases broken with
  | false => cases h; exact length_skipSpaces_le s
  | true => exact gap_le h

theorem nextLine_le {s rest : List Char} (h : nextLine s = .ok rest) :
    rest.length ≤ s.length := by
  have hle := length_skipSpaces_le s
  unfold nextLine at h
  split at h
  · cases h; simp
  · rename_i hs
    split at h
    · exact Nat.le_trans (gap_le h) (hs ▸ hle)
    · cases h

theorem length_closing_lt {quote : Char} {s : List Char} (read : List Char)
    (h : closes quote s = true) :
    (closing quote read s).2.length < s.length := by
  have : 3 ≤ s.length := by
    unfold closes at h
    split at h
    · simp
    · cases h
  simp only [closing, List.length_drop]
  omega

theorem literalLinesFrom_lt {read s rest : List Char} {text : String}
    (h : literalLinesFrom read s = .ok (text, rest)) : rest.length < s.length := by
  induction s generalizing read with
  | nil => cases h
  | cons c s ih =>
    rw [literalLinesFrom] at h
    split at h
    · rename_i hc
      have := length_closing_lt read hc
      rw [Except.ok.injEq] at h
      rwa [h] at this
    split at h
    · cases h
    split at h
    · cases h
    · exact Nat.lt_succ_of_lt (ih h)

theorem basicLinesFrom_lt {read s rest : List Char} {text : String}
    (h : basicLinesFrom read s = .ok (text, rest)) : rest.length < s.length := by
  fun_induction basicLinesFrom read s with
  | case1 => cases h
  | case2 read c s hc =>
    have := length_closing_lt read hc
    rw [Except.ok.injEq] at h
    rwa [h] at this
  | case3 => cases h
  | case4 read s _ _ rest' _ hle ih =>
    have := ih h
    simp only [List.length_cons]
    omega
  | case5 => cases h
  | case6 read s _ _ c rest' _ hlt ih =>
    have := ih h
    simp only [List.length_cons]
    omega
  | case7 => cases h
  | case8 => cases h
  | case9 read c s _ _ _ _ ih =>
    have := ih h
    simp only [List.length_cons]
    omega

theorem length_openingBreak_le (s : List Char) : (openingBreak s).length ≤ s.length := by
  unfold openingBreak
  split
  · exact Nat.le_succ _
  · exact Nat.le_add_right _ 2
  · exact Nat.le_refl _

theorem quotedString_lt {quote c : Char} {s rest : List Char} {text : String}
    (h : quotedString quote (c :: s) = .ok (text, rest)) : rest.length < (c :: s).length := by
  have hle := length_openingBreak_le ((c :: s).drop 3)
  have hdrop : ((c :: s).drop 3).length ≤ s.length := by simp
  unfold quotedString at h
  split at h
  · split at h
    · have := basicLinesFrom_lt h
      simp only [List.length_cons]
      omega
    · have := literalLinesFrom_lt h
      simp only [List.length_cons]
      omega
  · split at h
    · exact Nat.lt_succ_of_lt (basicFrom_lt h)
    · exact Nat.lt_succ_of_lt (literalFrom_lt h)

end TermLint.Toml

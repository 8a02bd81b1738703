/-
  TermLint.Toml.Document

  Whole documents: a text is a list of statements, one to a line, and a document is
  what they build, one after another, from an empty table.
-/

import TermLint.Toml.Inline

namespace TermLint.Toml

/-! ## Statements -/

/-- A line of a document. -/
inductive Statement where
  /-- The header of a table: the pairs after it belong to that table. -/
  | header (path : KeyPath)
  /-- The header of one more table of an array of tables. -/
  | element (path : KeyPath)
  | pair (path : KeyPath) (data : Data)

/-- A path of keys in brackets, given the text after the opening bracket; spaces may stand around
it. -/
def headerPath (s : List Char) : Taken KeyPath :=
  match keyPathFrom [] (skipSpaces s) with
  | .error e => .error e
  | .ok (path, ']' :: rest) => .ok (path, rest)
  | .ok _ => .error .malformed

/-- The header of a table of an array of tables, given the text after its two opening brackets. -/
def elementHeader (s : List Char) : Taken Statement :=
  match headerPath s with
  | .error e => .error e
  | .ok (path, ']' :: rest) => .ok (.element path, rest)
  | .ok _ => .error .malformed

/-- The header of a table, given the text after its opening bracket. -/
def tableHeader (s : List Char) : Taken Statement :=
  match headerPath s with
  | .error e => .error e
  | .ok (path, rest) => .ok (.header path, rest)

/-- A pair of a path and a value. -/
def pairStatement (s : List Char) : Taken Statement :=
  match (pair false (value maxNesting)).run s with
  | .error e => .error e
  | .ok ((path, data), rest) => .ok (.pair path data, rest)

/-- A statement. -/
def statement : List Char → Taken Statement
  | '[' :: '[' :: s => elementHeader s
  | '[' :: s => tableHeader s
  | s => pairStatement s

theorem headerPath_lt {s rest : List Char} {path : KeyPath} (h : headerPath s = .ok (path, rest)) :
    rest.length < s.length := by
  unfold headerPath at h
  split at h
  · cases h
  · rename_i hk
    cases h
    have h1 := keyPathFrom_lt hk
    have h2 := length_skipSpaces_le s
    rw [List.length_cons] at h1
    omega
  · cases h

theorem elementHeader_lt {s rest : List Char} {line : Statement}
    (h : elementHeader s = .ok (line, rest)) : rest.length < s.length := by
  unfold elementHeader at h
  split at h
  · cases h
  · rename_i hp
    cases h
    exact Nat.lt_of_succ_lt (headerPath_lt hp)
  · cases h

theorem tableHeader_lt {s rest : List Char} {line : Statement}
    (h : tableHeader s = .ok (line, rest)) : rest.length < s.length := by
  unfold tableHeader at h
  split at h
  · cases h
  · rename_i hp
    cases h
    exact headerPath_lt hp

theorem pairStatement_lt {s rest : List Char} {line : Statement}
    (h : pairStatement s = .ok (line, rest)) : rest.length < s.length := by
  unfold pairStatement at h
  split at h
  · cases h
  · rename_i hp
    cases h
    exact (pair false (value maxNesting)).shrinks hp

theorem statement_lt {s rest : List Char} {line : Statement}
    (h : statement s = .ok (line, rest)) : rest.length < s.length := by
  unfold statement at h
  split at h
  · exact Nat.lt_succ_of_lt (Nat.lt_succ_of_lt (elementHeader_lt h))
  · exact Nat.lt_succ_of_lt (tableHeader_lt h)
  · exact pairStatement_lt h

/-- The statements of a text that begins with one or is over, after those already read, which are
in reverse. -/
def statementsFrom (done : List Statement) (s : List Char) : Except Fault (List Statement) :=
  match s with
  | [] => .ok done.reverse
  | c :: t =>
    match hs : statement (c :: t) with
    | .error e => .error e
    | .ok (line, u) =>
      match hn : nextLine u with
      | .error e => .error e
      | .ok rest =>
        have := Nat.lt_of_le_of_lt (nextLine_le hn) (statement_lt hs)
        statementsFrom (line :: done) rest
termination_by s.length
decreasing_by exact this

/-- A text without the byte order mark that may stand at its start. -/
def dropMark : List Char → List Char
  | '\uFEFF' :: s => s
  | s => s

/-- The statements of a text. -/
def statements (text : String) : Except Fault (List Statement) :=
  match gap false (dropMark text.toList) with
  | .error e => .error e
  | .ok s => statementsFrom [] s

/-! ## Building -/

/-- A document under construction. -/
structure Draft where
  root : Table
  /-- The path to the table of the last header. -/
  current : List String

namespace Draft

/-- An empty document. -/
def empty : Draft := ⟨Table.empty .declared, []⟩

/-- The document after one more statement. -/
def take (draft : Draft) : Statement → Except Fault Draft
  | .header path =>
    match draft.root.declare path with
    | .error e => .error e
    | .ok root => .ok ⟨root, path.names⟩
  | .element path =>
    match draft.root.append path with
    | .error e => .error e
    | .ok root => .ok ⟨root, path.names⟩
  | .pair path data =>
    match draft.root.within .implied (·.assign path data) draft.current with
    | .error e => .error e
    | .ok root => .ok ⟨root, draft.current⟩

/-- The document after all statements. -/
def takeAll (draft : Draft) : List Statement → Except Fault Draft
  | [] => .ok draft
  | line :: rest =>
    match draft.take line with
    | .error e => .error e
    | .ok draft => draft.takeAll rest

end Draft

/-- The data of a text, the entries of every table in the order of their keys. -/
def parse (text : String) : Except Fault Data :=
  match statements text with
  | .error e => .error e
  | .ok lines =>
    match Draft.empty.takeAll lines with
    | .error e => .error e
    | .ok draft => .ok draft.root.toData

end TermLint.Toml

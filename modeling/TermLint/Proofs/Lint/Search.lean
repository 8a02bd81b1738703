/-
  TermLint.Proofs.Lint.Search

  The search for a term.  The ranges that are found in a line are those of the
  occurrences of the term in the whole text that begin in the line, overlapping ones
  included; where lines and columns are numbers of 32 bits they come out exactly.  The
  same ranges come out when a line is searched by byte offsets: the next occurrence is
  looked for among the bytes, its two ends are turned into columns, and the search goes
  on one character after its beginning.  No offset that comes up lies inside a character.
-/

import TermLint.Proofs.Lint.Range
import TermLint.Proofs.Text.Offset

namespace TermLint.Lint

open Lsp (Range)
open Text (occurrences occurrencesOn lastLine pieces units utf8 cut? cutAt? FirstCut)
open Json (byteCount)

/-! ## The occurrences in a line -/

variable {term : List Char}

theorem columnsFrom_eq (hne : term ≠ []) (found : List Nat) (column : Nat) (line : List Char) :
    columnsFrom term found column line =
      found.reverse ++ (occurrences term line).map fun site => column + units site.1 := by
  induction line generalizing found column with
  | nil => rw [columnsFrom, Text.occurrences_nil hne, List.map_nil, List.append_nil]
  | cons c line ih =>
    have hlater : ((occurrences term line).map fun site => (c :: site.1, site.2)).map
        (fun site => column + units site.1) =
          (occurrences term line).map fun site => column + Text.charUnits c + units site.1 := by
      simp only [List.map_map, Function.comp_def, Text.units_cons, Nat.add_assoc]
    rw [columnsFrom, ih]
    by_cases hbegins : term <+: c :: line
    · rw [if_pos (List.isPrefixOf_iff_prefix.mpr hbegins), Text.occurrences_cons_of_pos hbegins,
        List.map_cons, hlater, List.reverse_cons, List.append_assoc, List.singleton_append]
      rfl
    · rw [if_neg fun hp => hbegins (List.isPrefixOf_iff_prefix.mp hp),
        Text.occurrences_cons_of_neg hbegins, hlater]

/-- The ranges of a line are those of the occurrences of the term. -/
theorem ranges_eq {term : String} (hne : term.toList ≠ []) (number : Nat) (line : List Char) :
    ranges term number line =
      (occurrences term.toList line).map fun site =>
        rangeAt term.toList number (units site.1) := by
  rw [ranges, columns, if_neg hne, columnsFrom_eq hne, List.reverse_nil, List.nil_append,
    List.map_map]
  simp only [Function.comp_def, Nat.zero_add]

/-! ## The occurrences in a text -/

/-- The range of a term in a text, by what stands before the term. -/
def rangeOf (term before : List Char) : Range :=
  rangeAt term (before.count '\n') (units (lastLine before))

/-- The ranges of a line are those of the occurrences in the text that begin in the line. -/
theorem ranges_eq_occurrencesOn {term : String} {text line : List Char} {number : Nat}
    (hne : term.toList ≠ []) (h : (pieces '\n' text)[number]? = some line) :
    ranges term number line =
      (occurrencesOn term.toList text number).map fun site => rangeOf term.toList site.1 := by
  rw [ranges_eq hne]
  by_cases hterm : '\n' ∈ term.toList
  · -- there is no line feed in a line
    have hnone : occurrences term.toList line = [] := by
      refine List.eq_nil_iff_forall_not_mem.mpr fun site hsite => ?_
      refine Text.not_mem_of_mem_pieces (List.mem_of_getElem? h) ?_
      rw [Text.mem_occurrences_iff.mp hsite]
      exact List.mem_append_left _ (List.mem_append_right _ hterm)
    have hnone' : occurrencesOn term.toList text number = [] :=
      List.filter_eq_nil_iff.mpr fun site _ => by simp [Text.beginsOn, hterm]
    rw [hnone, hnone']
    rfl
  · calc (occurrences term.toList line).map
          (fun site => rangeAt term.toList number (units site.1))
        = ((occurrences term.toList line).map (·.1)).map
            fun before => rangeAt term.toList number (units before) := by
          rw [List.map_map]
          rfl
      _ = (occurrencesOn term.toList text number).map
            fun site => rangeAt term.toList number (units (lastLine site.1)) := by
          rw [← Text.map_lastLine_occurrencesOn hne hterm h, List.map_map]
          rfl
      _ = (occurrencesOn term.toList text number).map fun site => rangeOf term.toList site.1 := by
          refine List.map_congr_left fun site hsite => ?_
          rw [rangeOf, (Text.mem_occurrencesOn_iff.mp hsite).2.2]

/-- What is done line by line, when for each line it is known by its number. -/
theorem flatMap_numberedLines {β : Type} {text : String} {f : List Char × Nat → List β}
    {g : Nat → List β}
    (h : ∀ line number, (pieces '\n' text.toList)[number]? = some line →
      f (line, number) = g number) :
    (numberedLines text).flatMap f =
      (List.range (pieces '\n' text.toList).length).flatMap g := by
  have hsnd : (numberedLines text).map Prod.snd =
      List.range (pieces '\n' text.toList).length := by
    rw [numberedLines, List.zipIdx_map_snd, List.range_eq_range']
  rw [← hsnd, List.flatMap_map]
  exact List.flatMap_congr fun entry hentry =>
    h entry.1 entry.2 (List.mem_zipIdx_iff_getElem?.mp hentry)

/-! ## Exact numbers -/

/-- A text in which all line numbers and columns are numbers of 32 bits. -/
structure Addressable (text : List Char) : Prop where
  lines_lt : (text.splitOn '\n').length < 4294967296
  units_lt : ∀ line ∈ text.splitOn '\n', units line < 4294967296

/-- A range that marks a term after what stands before it: both ends lie in the line where the term
begins, and are counted in code units from the beginning of that line. -/
structure Marks (range : Range) (term before : List Char) : Prop where
  start_line : range.start.line.toNat = before.count '\n'
  start_character : range.start.character.toNat = units (lastLine before)
  stop_line : range.stop.line.toNat = before.count '\n'
  stop_character : range.stop.character.toNat = units (lastLine before) + units term

/-- The numbers of a range are those of the occurrence, none is clamped. -/
theorem Addressable.marks_rangeOf {text before after : List Char} (haddr : Addressable text)
    (hne : term ≠ []) (hterm : '\n' ∉ term) (h : text = before ++ term ++ after) :
    Marks (rangeOf term before) term before := by
  have hcount := Text.count_lt_of_mem_occurrences h
  -- the columns are bounded by the line of the occurrence, which the term does not leave
  obtain ⟨more, hline⟩ := Text.exists_line_of_eq hne hterm h
  have hmem := List.mem_of_getElem? hline
  rw [Text.pieces_eq_splitOn] at hcount hmem
  have hlines := haddr.lines_lt
  have hunits := haddr.units_lt _ hmem
  rw [Text.units_append, Text.units_append] at hunits
  have hnumber : (clamp (before.count '\n')).toNat = before.count '\n' := toNat_clamp (by omega)
  exact ⟨hnumber, toNat_clamp (by omega), hnumber, toNat_clamp (by omega)⟩

/-! ## Searching by byte offsets -/

/-- The byte offset at which the bytes of a term first occur in a text. -/
def find? (term text : List Char) : Option Nat :=
  (cut? (utf8 term) (utf8 text)).map fun halves => halves.1.length

/-- The bytes that are passed before the search goes on. -/
def stride (rest : List Char) : Nat :=
  rest.head?.elim 1 Char.utf8Size

theorem stride_pos (rest : List Char) : 0 < stride rest := by
  cases rest with
  | nil => exact Nat.one_pos
  | cons c rest => exact c.utf8Size_pos

/-- The ranges of the occurrences of a term that begin at a byte offset of a line or after it.
There are none to give when a line is cut inside a character. -/
def rangesFrom (term : List Char) (number : Nat) (line : List Char) (start : Nat) :
    Option (List Range) :=
  match _hcut : cutAt? Char.utf8Size start line with
  | none => none
  | some (_, rest) =>
    match find? term rest with
    | none => some []
    | some offset =>
      let first := start + offset
      -- the two ends are byte offsets, and become columns of the line
      match cutAt? Char.utf8Size first line, cutAt? Char.utf8Size (first + byteCount term) line with
      | some (before, after), some (through, _) =>
        (rangesFrom term number line (first + stride after)).map fun later =>
          ⟨⟨clamp number, clamp (units before)⟩, ⟨clamp number, clamp (units through)⟩⟩ :: later
      | _, _ => none
  termination_by byteCount line + 1 - start
  decreasing_by
    have hstart : start ≤ byteCount line :=
      Text.le_of_cutAt? Text.byteCount_cons (by rw [_hcut]; rfl)
    have hstride := stride_pos after
    omega

/-- The ranges of all occurrences of a term in a line, found by byte offsets. -/
def rangesByOffset (term : String) (number : Nat) (line : List Char) : Option (List Range) :=
  if term = "" then some [] else rangesFrom term.toList number line 0

variable {number : Nat} {before rest p s : List Char}

/-- Where the bytes of the term do not occur any more, the search is over. -/
theorem rangesFrom_of_none (h : cut? (utf8 term) (utf8 rest) = none) :
    rangesFrom term number (before ++ rest) (byteCount before) = some [] := by
  rw [rangesFrom]
  split
  · rename_i hcut
    rw [Text.cutAt?_byteCount] at hcut
    cases hcut
  · rename_i hcut
    rw [Text.cutAt?_byteCount] at hcut
    cases hcut
    rw [find?, h]
    rfl

/-- One turn of the search: the next occurrence is reported, and the search goes on after the
character at which it begins. -/
theorem rangesFrom_of_some {c : Char} {t : List Char} {v : List UInt8}
    (h : cut? (utf8 (c :: t)) (utf8 (p ++ c :: (t ++ s))) = some (utf8 p, v)) :
    rangesFrom (c :: t) number (before ++ (p ++ c :: (t ++ s))) (byteCount before) =
      (rangesFrom (c :: t) number (before ++ (p ++ c :: (t ++ s)))
        (byteCount (before ++ p ++ [c]))).map
          (rangeAt (c :: t) number (units before + units p) :: ·) := by
  have hfirst : cutAt? Char.utf8Size (byteCount before + byteCount p)
      (before ++ (p ++ c :: (t ++ s))) = some (before ++ p, c :: (t ++ s)) := by
    rw [← Text.byteCount_append, ← List.append_assoc, Text.cutAt?_byteCount]
  have hlast : cutAt? Char.utf8Size (byteCount before + byteCount p + byteCount (c :: t))
      (before ++ (p ++ c :: (t ++ s))) = some (before ++ p ++ c :: t, s) := by
    have hline : before ++ (p ++ c :: (t ++ s)) = before ++ p ++ c :: t ++ s := by simp
    rw [hline, ← Text.byteCount_append, ← Text.byteCount_append, Text.cutAt?_byteCount]
  have hnext : byteCount before + byteCount p + stride (c :: (t ++ s)) =
      byteCount (before ++ p ++ [c]) := by
    rw [Text.byteCount_append, Text.byteCount_append, Text.byteCount_cons, Text.byteCount_nil]
    rfl
  rw [rangesFrom]
  split
  · rename_i hcut
    rw [Text.cutAt?_byteCount] at hcut
    cases hcut
  · rename_i hcut
    rw [Text.cutAt?_byteCount] at hcut
    cases hcut
    have hfind : find? (c :: t) (p ++ c :: (t ++ s)) = some (byteCount p) := by
      rw [find?, h, Option.map_some, Text.length_utf8]
    simp only [hfind, hfirst, hlast, hnext, rangeAt, Text.units_append]

/-- From any place between two characters on, the search reports the occurrences in the rest. -/
theorem rangesFrom_eq (hne : term ≠ []) (number : Nat) (before rest : List Char) :
    rangesFrom term number (before ++ rest) (byteCount before) =
      some ((occurrences term rest).map fun site =>
        rangeAt term number (units before + units site.1)) := by
  -- on what is left of the line: the next turn begins one character after the occurrence does
  induction hlength : rest.length using Nat.strong_induction_on generalizing before rest with
  | h n ih =>
    subst hlength
    cases hcut : cut? (utf8 term) (utf8 rest) with
    | none =>
      have hnone : occurrences term rest = [] := by
        refine List.eq_nil_iff_forall_not_mem.mpr fun site hsite => ?_
        have hrest := Text.mem_occurrences_iff.mp hsite
        have hsome : (cut? (utf8 term) (utf8 rest)).isSome :=
          Text.isSome_cutFrom (by rw [hrest, Text.utf8_append, Text.utf8_append])
        rw [hcut] at hsome
        cases hsome
      rw [rangesFrom_of_none hcut, hnone]
      rfl
    | some halves =>
      obtain ⟨u, v⟩ := halves
      obtain ⟨p, s, rfl, hfirst⟩ := Text.firstCut_of_utf8 hne (Text.cut?_eq_some_iff.mp hcut)
      obtain ⟨c, t, rfl⟩ := List.exists_cons_of_ne_nil hne
      obtain rfl : rest = p ++ c :: (t ++ s) := by
        rw [hfirst.eq, List.append_assoc, List.cons_append]
      have hshort : (t ++ s).length < (p ++ c :: (t ++ s)).length := by
        simp only [List.length_append, List.length_cons]
        omega
      have hlater := ih _ hshort (before ++ p ++ [c]) (t ++ s) rfl
      have hline : before ++ p ++ [c] ++ (t ++ s) = before ++ (p ++ c :: (t ++ s)) := by simp
      rw [hline] at hlater
      rw [rangesFrom_of_some hcut, hlater, Text.occurrences_of_firstCut hfirst]
      simp [List.map_map, Function.comp_def, Nat.add_assoc]

/-- Searching by byte offsets never fails, and gives the ranges of the occurrences. -/
theorem rangesByOffset_eq (term : String) (number : Nat) (line : List Char) :
    rangesByOffset term number line = some (ranges term number line) := by
  rw [rangesByOffset]
  split
  · rename_i hterm
    subst hterm
    rfl
  · rename_i hterm
    have hne : term.toList ≠ [] := by simpa using hterm
    have hsearch := rangesFrom_eq hne number [] line
    rw [ranges_eq hne]
    simpa only [List.nil_append, Text.byteCount_nil, Text.units_nil, Nat.zero_add] using hsearch

end TermLint.Lint

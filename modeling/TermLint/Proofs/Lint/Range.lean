/-
  TermLint.Proofs.Lint.Range

  The ranges that the linter reports.  A column is the number of code units before
  an occurrence, a line number the number of line ends before it; both are bounded
  by the bytes of the text, so that in a text below four mebibytes they are numbers
  of 32 bits as they stand.
-/

import TermLint.Lint.Linter
import TermLint.Proofs.Text.Bytes

namespace TermLint

open Lsp (Position Range Diagnostic CodeAction)
open Text (pieces units)
open Json (byteCount)

/-! ## Exact ranges -/

namespace Lsp.Range

/-- A range covers an occurrence of a term in a text: it lies in the line of the occurrence, and
reaches from the code units before it to those after it. -/
def Covers (range : Range) (term text : String) : Prop :=
  ∃ before after : List Char,
    (text.toList.splitOn '\n')[range.start.line.toNat]? = some (before ++ term.toList ++ after) ∧
      range.stop.line = range.start.line ∧ range.start.character.toNat = units before ∧
      range.stop.character.toNat = units (before ++ term.toList)

/-- A range that covers an occurrence, goes forward within one line, and has small numbers only. -/
structure Exact (range : Range) (term text : String) : Prop where
  covers : range.Covers term text
  one_line : range.start.line = range.stop.line
  forward : range.start.character < range.stop.character
  start_line_lt : range.start.line.toNat < 4194304
  start_character_lt : range.start.character.toNat < 4194304
  stop_line_lt : range.stop.line.toNat < 4194304
  stop_character_lt : range.stop.character.toNat < 4194304

end Lsp.Range

namespace Lint

/-! ## Occurrences -/

/-- A number of 32 bits stays as it is. -/
theorem toNat_clamp {n : Nat} (h : n < 4294967296) : (clamp n).toNat = n := by
  rw [clamp, if_pos h, UInt32.toNat_ofNat']
  exact Nat.mod_eq_of_lt h

/-- A column that is found counts the code units before an occurrence. -/
theorem mem_columnsFrom {term line : List Char} {found : List Nat} {column start : Nat}
    (h : start ∈ columnsFrom term found column line) :
    start ∈ found ∨
      ∃ before after, line = before ++ term ++ after ∧ start = column + units before := by
  induction line generalizing found column with
  | nil =>
    rw [columnsFrom] at h
    exact .inl (List.mem_reverse.mp h)
  | cons c line ih =>
    rw [columnsFrom] at h
    rcases ih h with hfound | ⟨before, after, hline, hstart⟩
    · split at hfound
      · rename_i hterm
        rcases List.mem_cons.mp hfound with heq | hfound
        · -- the term begins right here
          obtain ⟨after, hafter⟩ := List.isPrefixOf_iff_prefix.mp hterm
          exact .inr ⟨[], after, hafter.symm, heq⟩
        · exact .inl hfound
      · exact .inl hfound
    · refine .inr ⟨c :: before, after, by rw [hline]; rfl, ?_⟩
      rw [hstart, Text.units_cons, Nat.add_assoc]

theorem mem_columns {term line : List Char} {start : Nat} (h : start ∈ columns term line) :
    ∃ before after, line = before ++ term ++ after ∧ start = units before := by
  rw [columns] at h
  split at h
  · cases h
  · rcases mem_columnsFrom h with hnil | ⟨before, after, hline, hstart⟩
    · cases hnil
    · exact ⟨before, after, hline, hstart.trans (Nat.zero_add _)⟩

/-! ## Ranges -/

/-- What the linter reports of a line of a text that is not too large. -/
theorem exact_of_mem_ranges {term text : String} {line : List Char} {number : Nat} {range : Range}
    (hterm : term ≠ "") (hsize : text.utf8ByteSize < 4194304)
    (hline : (line, number) ∈ numberedLines text) (h : range ∈ ranges term number line) :
    range.Exact term text := by
  obtain ⟨start, hstart, rfl⟩ := List.mem_map.mp h
  obtain ⟨before, after, rfl, rfl⟩ := mem_columns hstart
  have hpiece : (pieces '\n' text.toList)[number]? = some (before ++ term.toList ++ after) :=
    List.mem_zipIdx_iff_getElem?.mp hline
  -- everything is bounded by the bytes of the text
  have hbytes := Text.number_add_byteCount_le hpiece
  have hunits := Text.units_le_byteCount (before ++ term.toList ++ after)
  have hpos : 0 < units term.toList := Text.units_pos (by simpa using hterm)
  rw [Text.utf8ByteSize_eq] at hsize
  simp only [Text.units_append] at hunits
  have hnumber : number < 4194304 := by omega
  have hstop : units before + units term.toList < 4194304 := by omega
  have hexact : (clamp number).toNat = number := toNat_clamp (by omega)
  have hfirst : (clamp (units before)).toNat = units before := toNat_clamp (by omega)
  have hlast : (clamp (units before + units term.toList)).toNat =
      units before + units term.toList := toNat_clamp (by omega)
  refine ⟨⟨before, after, ?_, rfl, hfirst, ?_⟩, rfl, ?_, ?_, ?_, ?_, ?_⟩
  · show (text.toList.splitOn '\n')[(clamp number).toNat]? = _
    rw [hexact, ← Text.pieces_eq_splitOn, hpiece]
  · rw [Text.units_append]
    exact hlast
  · show clamp (units before) < clamp (units before + units term.toList)
    rw [UInt32.lt_iff_toNat_lt, hfirst, hlast]
    omega
  · show (clamp number).toNat < 4194304
    omega
  · show (clamp (units before)).toNat < 4194304
    omega
  · show (clamp number).toNat < 4194304
    omega
  · show (clamp (units before + units term.toList)).toNat < 4194304
    omega

namespace Linter

/-- Every finding in a text covers the term of a rule. -/
theorem exact_of_mem_scan {linter : Linter} {text : String} (hsize : text.utf8ByteSize < 4194304)
    {diagnostic : Diagnostic} (h : diagnostic ∈ linter.scan text) :
    ∃ rule ∈ linter.rules, diagnostic.range.Exact rule.term text := by
  obtain ⟨⟨line, number⟩, hline, hrules⟩ := List.mem_flatMap.mp h
  obtain ⟨rule, hrule, hfinding⟩ := List.mem_flatMap.mp hrules
  obtain ⟨range, hrange, rfl⟩ := List.mem_map.mp hfinding
  exact ⟨rule, hrule, exact_of_mem_ranges rule.term_ne hsize hline hrange⟩

/-- Every edit that the actions for a text make covers the term of the action rule. -/
theorem exact_of_mem_actions {linter : Linter} {text uri : String}
    (hsize : text.utf8ByteSize < 4194304) {action : CodeAction}
    (h : action ∈ linter.actions text uri) :
    ∀ entry ∈ action.edit.changes.entries, ∀ edit ∈ entry.2,
      edit.range.Exact linter.action.term text := by
  obtain ⟨⟨line, number⟩, hline, hranges⟩ := List.mem_flatMap.mp h
  obtain ⟨range, hrange, haction⟩ := List.mem_flatMap.mp hranges
  have hexact := exact_of_mem_ranges linter.action.term_ne hsize hline hrange
  -- either action makes one edit, in one document
  have hsingle : ∃ title newText, action = singleEdit title uri range newText := by
    rcases List.mem_cons.mp haction with rfl | haction
    · exact ⟨_, _, rfl⟩
    · exact ⟨_, _, List.mem_singleton.mp haction⟩
  obtain ⟨title, newText, rfl⟩ := hsingle
  intro entry hentry edit hedit
  rw [List.mem_singleton.mp hentry] at hedit
  rw [List.mem_singleton.mp hedit]
  exact hexact

end Linter
end Lint
end TermLint

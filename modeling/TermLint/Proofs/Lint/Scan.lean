/-
  TermLint.Proofs.Lint.Scan

  What a scan finds.  A hit is a rule with an occurrence of its term, given by what
  stands before and after it in the whole text.  The findings of a scan are the hits,
  each once, by line, then by rule, then by column; a term that holds a line feed has
  no hits.
-/

import Mathlib.Data.List.Forall2
import TermLint.Proofs.Lint.Search

namespace TermLint.Lint

open Lsp (Diagnostic)
open Text (occurrencesOn lastLine pieces units)

/-! ## Hits -/

/-- A rule, with its index, and what stands before and after an occurrence of its term. -/
structure Hit where
  index : Nat
  rule : ScanRule
  before : List Char
  after : List Char

namespace Hit

/-- The line of a hit: the number of line feeds before it. -/
def line (hit : Hit) : Nat :=
  hit.before.count '\n'

/-- The column of a hit: the code units between the last line feed before it and the hit. -/
def column (hit : Hit) : Nat :=
  units (lastLine hit.before)

/-- A hit of a linter in a text: a way to write the text around the term of one of the rules, which
holds no line feed. -/
structure Occurs (hit : Hit) (linter : Linter) (text : String) : Prop where
  rule_at : linter.rules[hit.index]? = some hit.rule
  one_line : '\n' ∉ hit.rule.term.toList
  text_eq : text.toList = hit.before ++ hit.rule.term.toList ++ hit.after

/-- By line, then by rule, then by column. -/
def Precedes (a b : Hit) : Prop :=
  a.line < b.line ∨
    a.line = b.line ∧ (a.index < b.index ∨ a.index = b.index ∧ a.column < b.column)

/-- A finding that reports a hit: its range marks the term, and the rest is taken from the rule. -/
structure Reported (hit : Hit) (finding : Diagnostic) : Prop where
  start_line : finding.range.start.line.toNat = hit.line
  stop_line : finding.range.stop.line.toNat = hit.line
  start_character : finding.range.start.character.toNat = hit.column
  stop_character :
    finding.range.stop.character.toNat = hit.column + units hit.rule.term.toList
  severity : finding.severity = hit.rule.severity
  source : finding.source = hit.rule.source
  message : finding.message = hit.rule.message

/-- The finding of a hit. -/
def finding (hit : Hit) : Diagnostic :=
  ⟨rangeOf hit.rule.term.toList hit.before, hit.rule.severity, hit.rule.source, hit.rule.message⟩

end Hit

/-! ## The hits of a text -/

/-- The hits of a rule in a line. -/
def hitsOf (text : String) (number : Nat) (entry : ScanRule × Nat) : List Hit :=
  (occurrencesOn entry.1.term.toList text.toList number).map fun site =>
    ⟨entry.2, entry.1, site.1, site.2⟩

/-- The hits of all rules in a line. -/
def hitsOn (linter : Linter) (text : String) (number : Nat) : List Hit :=
  linter.rules.zipIdx.flatMap (hitsOf text number)

/-- The hits of all rules in a text. -/
def hits (linter : Linter) (text : String) : List Hit :=
  (List.range (pieces '\n' text.toList).length).flatMap (hitsOn linter text)

variable {linter : Linter} {text : String} {number : Nat} {entry : ScanRule × Nat} {hit : Hit}

theorem mem_hitsOf_iff :
    hit ∈ hitsOf text number entry ↔
      (hit.rule, hit.index) = entry ∧ '\n' ∉ hit.rule.term.toList ∧
        text.toList = hit.before ++ hit.rule.term.toList ++ hit.after ∧ hit.line = number := by
  obtain ⟨index, rule, before, after⟩ := hit
  obtain ⟨rule', index'⟩ := entry
  simp only [hitsOf, List.mem_map, Hit.mk.injEq, Prod.exists, Text.mem_occurrencesOn_iff,
    Prod.mk.injEq]
  constructor
  · rintro ⟨p, s, ⟨htext, hterm, hnumber⟩, rfl, rfl, rfl, rfl⟩
    exact ⟨⟨rfl, rfl⟩, hterm, htext, hnumber⟩
  · rintro ⟨⟨rfl, rfl⟩, hterm, htext, hnumber⟩
    exact ⟨before, after, ⟨htext, hterm, hnumber⟩, rfl, rfl, rfl, rfl⟩

theorem mem_hitsOn_iff :
    hit ∈ hitsOn linter text number ↔ hit.Occurs linter text ∧ hit.line = number := by
  rw [hitsOn, List.mem_flatMap]
  constructor
  · rintro ⟨entry, hentry, hhit⟩
    obtain ⟨rfl, hterm, htext, hnumber⟩ := mem_hitsOf_iff.mp hhit
    exact ⟨⟨List.mem_zipIdx_iff_getElem?.mp hentry, hterm, htext⟩, hnumber⟩
  · rintro ⟨⟨hrule, hterm, htext⟩, hnumber⟩
    exact ⟨(hit.rule, hit.index), List.mem_zipIdx_iff_getElem?.mpr hrule,
      mem_hitsOf_iff.mpr ⟨rfl, hterm, htext, hnumber⟩⟩

/-- The hits are all the ways to write the text around the term of a rule. -/
theorem mem_hits_iff : hit ∈ hits linter text ↔ hit.Occurs linter text := by
  rw [hits, List.mem_flatMap]
  constructor
  · rintro ⟨number, -, hhit⟩
    exact (mem_hitsOn_iff.mp hhit).1
  · intro hoccurs
    have hline : hit.line < (pieces '\n' text.toList).length :=
      Text.count_lt_of_mem_occurrences hoccurs.text_eq
    exact ⟨hit.line, List.mem_range.mpr hline, mem_hitsOn_iff.mpr ⟨hoccurs, rfl⟩⟩

/-! ## Their order -/

/-- Within a line, the hits of a rule stand in the order of their columns. -/
theorem pairwise_hitsOf (text : String) (number : Nat) (entry : ScanRule × Nat) :
    (hitsOf text number entry).Pairwise Hit.Precedes := by
  refine List.pairwise_map.mpr ?_
  refine (Text.pairwise_occurrencesOn _ _ _).imp_of_mem fun {a b} ha hb hlt => ?_
  obtain ⟨hatext, -, hanumber⟩ := Text.mem_occurrencesOn_iff.mp ha
  obtain ⟨hbtext, -, hbnumber⟩ := Text.mem_occurrencesOn_iff.mp hb
  rw [List.append_assoc] at hatext hbtext
  have hline := hanumber.trans hbnumber.symm
  exact .inr ⟨hline, .inr ⟨rfl, Text.units_lastLine_lt hatext hbtext hline hlt⟩⟩

/-- Within a line, the hits stand in the order of the rules. -/
theorem pairwise_hitsOn (linter : Linter) (text : String) (number : Nat) :
    (hitsOn linter text number).Pairwise Hit.Precedes := by
  have hindices : linter.rules.zipIdx.Pairwise fun a b => a.2 < b.2 := by
    refine List.pairwise_map.mp ?_
    rw [List.zipIdx_map_snd]
    exact List.pairwise_lt_range'
  refine List.pairwise_flatMap.mpr ⟨fun entry _ => pairwise_hitsOf text number entry, ?_⟩
  -- hits of two rules in one line are told apart by the index of the rule alone
  refine hindices.imp fun hlt a ha b hb => ?_
  obtain ⟨rfl, -, -, hanumber⟩ := mem_hitsOf_iff.mp ha
  obtain ⟨rfl, -, -, hbnumber⟩ := mem_hitsOf_iff.mp hb
  exact .inr ⟨hanumber.trans hbnumber.symm, .inl hlt⟩

theorem pairwise_hits (linter : Linter) (text : String) :
    (hits linter text).Pairwise Hit.Precedes := by
  refine List.pairwise_flatMap.mpr ⟨fun number _ => pairwise_hitsOn linter text number, ?_⟩
  refine List.pairwise_lt_range.imp fun hlt a ha b hb => .inl ?_
  rw [(mem_hitsOn_iff.mp ha).2, (mem_hitsOn_iff.mp hb).2]
  exact hlt

/-! ## The findings of a scan -/

/-- The findings of the rules in a line are those of the hits in the line. -/
theorem findings_eq {line : List Char} (h : (pieces '\n' text.toList)[number]? = some line) :
    (linter.rules.flatMap fun rule => Linter.findings rule number line) =
      (hitsOn linter text number).map Hit.finding := by
  have hrule : ∀ entry : ScanRule × Nat, Linter.findings entry.1 number line =
      (hitsOf text number entry).map Hit.finding := by
    intro entry
    have hne : entry.1.term.toList ≠ [] := by simpa using entry.1.term_ne
    rw [Linter.findings, ranges_eq_occurrencesOn hne h, hitsOf, List.map_map, List.map_map]
    rfl
  calc linter.rules.flatMap (fun rule => Linter.findings rule number line)
      = linter.rules.zipIdx.flatMap fun entry => Linter.findings entry.1 number line := by
        nth_rewrite 1 [← List.zipIdx_map_fst 0 linter.rules]
        rw [List.flatMap_map]
    _ = linter.rules.zipIdx.flatMap fun entry => (hitsOf text number entry).map Hit.finding :=
        List.flatMap_congr fun entry _ => hrule entry
    _ = (hitsOn linter text number).map Hit.finding := by
        rw [hitsOn, List.map_flatMap]

theorem scan_eq_map_hits (linter : Linter) (text : String) :
    linter.scan text = (hits linter text).map Hit.finding := by
  have hlines : linter.scan text = (List.range (pieces '\n' text.toList).length).flatMap
      fun number => (hitsOn linter text number).map Hit.finding :=
    flatMap_numberedLines fun line number hline => findings_eq hline
  rw [hlines, hits, List.map_flatMap]

theorem Hit.Occurs.reported (haddr : Addressable text.toList) (h : hit.Occurs linter text) :
    hit.Reported hit.finding := by
  have hne : hit.rule.term.toList ≠ [] := by simpa using hit.rule.term_ne
  have hmarks := haddr.marks_rangeOf hne h.one_line h.text_eq
  exact ⟨hmarks.start_line, hmarks.stop_line, hmarks.start_character, hmarks.stop_character, rfl,
    rfl, rfl⟩

/-- A scan reports all hits and nothing else, each once, in the order of lines, rules and columns.
The search by byte offsets gives the same ranges in every line. -/
theorem Linter.scan_reports_hits (linter : Linter) (text : String)
    (haddr : Addressable text.toList) :
    (∃ hits : List Hit, (∀ hit, hit ∈ hits ↔ hit.Occurs linter text) ∧
      hits.Pairwise Hit.Precedes ∧ List.Forall₂ Hit.Reported hits (linter.scan text)) ∧
    ∀ (term : String) (number : Nat) (line : List Char),
      rangesByOffset term number line = some (ranges term number line) := by
  refine ⟨⟨hits linter text, fun hit => mem_hits_iff, pairwise_hits linter text, ?_⟩,
    rangesByOffset_eq⟩
  rw [scan_eq_map_hits, List.forall₂_map_right_iff, List.forall₂_same]
  exact fun hit hmem => (mem_hits_iff.mp hmem).reported haddr

/-- Two lines, in the first of which the second rule has a hit before the first one. -/
theorem Linter.scan_reports_hits_standard :
    Addressable "😀 Neovim, VS Code\r\nVS Code".toList ∧
    ((standard.scan "😀 Neovim, VS Code\r\nVS Code").map fun finding =>
      (finding.range.start.line, finding.range.start.character)) = [(0, 11), (0, 3), (1, 0)] ∧
    ∃ hits : List Hit,
      (∀ hit, hit ∈ hits ↔ hit.Occurs standard "😀 Neovim, VS Code\r\nVS Code") ∧
        hits.Pairwise Hit.Precedes ∧ hits.length = 3 := by
  have haddr : Addressable "😀 Neovim, VS Code\r\nVS Code".toList := ⟨by decide, by decide⟩
  obtain ⟨⟨hits, hmem, hordered, hreported⟩, -⟩ := scan_reports_hits standard _ haddr
  exact ⟨haddr, by decide, hits, hmem, hordered, hreported.length_eq.trans (by decide)⟩

end TermLint.Lint

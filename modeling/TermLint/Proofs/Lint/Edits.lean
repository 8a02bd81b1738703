/-
  TermLint.Proofs.Lint.Edits

  What the actions do to a text.  An editor resolves the two ends of an edit to places
  in the text and puts the new text between them.  Each action that the linter offers
  belongs to an occurrence of the term, and carried out it replaces that occurrence and
  leaves everything else as it was.
-/

import TermLint.Proofs.Lint.Search

namespace TermLint

open Text (cutPlace? lastLine occurrencesOn pieces units)

/-! ## Carrying out an edit -/

namespace Lsp

/-- A text cut at a position. -/
def Position.cut? (position : Position) (text : List Char) : Option (List Char × List Char) :=
  cutPlace? position.line.toNat position.character.toNat text

/-- The text after an edit, if the text has the places that the edit names. -/
def TextEdit.applied? (edit : TextEdit) (text : List Char) : Option (List Char) :=
  match edit.range.start.cut? text, edit.range.stop.cut? text with
  | some (before, _), some (_, after) => some (before ++ edit.newText.toList ++ after)
  | _, _ => none

/-- An action that makes a single edit, in a single document, and so turns a text into another. -/
structure CodeAction.Rewrites (action : CodeAction) (title uri : String) (text result : List Char) :
    Prop where
  title_eq : action.title = title
  changes_eq : ∃ edit, action.edit.changes.entries = [(uri, [edit])] ∧
    edit.applied? text = some result

end Lsp

namespace Lint

open Lsp (Range TextEdit CodeAction)

variable {term text before after : List Char}

/-- An edit of a range that marks a term puts the new text in the place of that term. -/
theorem Marks.applied? {range : Range} (h : Marks range term before) (hterm : '\n' ∉ term)
    (newText : String) :
    TextEdit.applied? ⟨range, newText⟩ (before ++ term ++ after) =
      some (before ++ newText.toList ++ after) := by
  have hstart : range.start.cut? (before ++ term ++ after) = some (before, term ++ after) := by
    rw [Lsp.Position.cut?, h.start_line, h.start_character, List.append_assoc, Text.cutPlace?_eq]
  -- the end of the term is the place after what stands before it and the term itself
  have hstop : range.stop.cut? (before ++ term ++ after) = some (before ++ term, after) := by
    have hcount : before.count '\n' = (before ++ term).count '\n' := by
      rw [List.count_append, List.count_eq_zero.mpr hterm, Nat.add_zero]
    rw [Lsp.Position.cut?, h.stop_line, h.stop_character, ← Text.units_append,
      ← Text.lastLine_append before hterm, hcount, Text.cutPlace?_eq]
  simp only [TextEdit.applied?, hstart, hstop]

/-! ## The actions for a text -/

/-- What stands before and after each occurrence of the term of the action rule, line by line. -/
def actionSites (linter : Linter) (text : String) : List (List Char × List Char) :=
  (List.range (pieces '\n' text.toList).length).flatMap
    (occurrencesOn linter.action.term.toList text.toList)

variable {linter : Linter} {document : String}

theorem mem_actionSites_iff :
    (before, after) ∈ actionSites linter document ↔
      document.toList = before ++ linter.action.term.toList ++ after ∧
        '\n' ∉ linter.action.term.toList := by
  rw [actionSites, List.mem_flatMap]
  constructor
  · rintro ⟨number, -, hsite⟩
    obtain ⟨htext, hterm, -⟩ := Text.mem_occurrencesOn_iff.mp hsite
    exact ⟨htext, hterm⟩
  · rintro ⟨htext, hterm⟩
    exact ⟨before.count '\n', List.mem_range.mpr (Text.count_lt_of_mem_occurrences htext),
      Text.mem_occurrencesOn_iff.mpr ⟨htext, hterm, rfl⟩⟩

theorem pairwise_actionSites (linter : Linter) (document : String) :
    (actionSites linter document).Pairwise fun a b => a.1.length < b.1.length := by
  refine List.pairwise_flatMap.mpr ⟨fun number _ => Text.pairwise_occurrencesOn _ _ number, ?_⟩
  refine List.pairwise_lt_range.imp fun hlt a ha b hb => ?_
  obtain ⟨hatext, -, hanumber⟩ := Text.mem_occurrencesOn_iff.mp ha
  obtain ⟨hbtext, -, hbnumber⟩ := Text.mem_occurrencesOn_iff.mp hb
  rw [List.append_assoc] at hatext hbtext
  exact Text.length_lt_of_count_lt hatext hbtext (by omega)

/-- The two actions of each occurrence, one occurrence after the other. -/
theorem actions_eq_flatMap (linter : Linter) (document uri : String) :
    linter.actions document uri = (actionSites linter document).flatMap fun site =>
      Linter.actionsAt linter.action uri (rangeOf linter.action.term.toList site.1) := by
  have hne : linter.action.term.toList ≠ [] := by simpa using linter.action.term_ne
  have hlines : linter.actions document uri =
      (List.range (pieces '\n' document.toList).length).flatMap fun number =>
        (occurrencesOn linter.action.term.toList document.toList number).flatMap fun site =>
          Linter.actionsAt linter.action uri (rangeOf linter.action.term.toList site.1) := by
    refine flatMap_numberedLines fun line number hline => ?_
    simp only [ranges_eq_occurrencesOn hne hline, List.flatMap_map]
  rw [hlines, actionSites, List.flatMap_assoc]

/-- For each occurrence of its term, in the order in which they begin, the linter offers to replace
it and then to censor it; each of the two actions changes that occurrence and nothing else. -/
theorem Linter.actions_rewrite (linter : Linter) (document uri : String)
    (haddr : Addressable document.toList) :
    ∃ (sites : List (List Char × List Char))
      (replace redact : List Char × List Char → CodeAction),
      (∀ before after, (before, after) ∈ sites ↔
        document.toList = before ++ linter.action.term.toList ++ after ∧
          '\n' ∉ linter.action.term.toList) ∧
      sites.Pairwise (fun a b => a.1.length < b.1.length) ∧
      linter.actions document uri = sites.flatMap (fun site => [replace site, redact site]) ∧
      ∀ before after, (before, after) ∈ sites →
        (replace (before, after)).Rewrites linter.action.replaceTitle uri document.toList
            (before ++ linter.action.replacement.toList ++ after) ∧
          (redact (before, after)).Rewrites linter.action.redactTitle uri document.toList
            (before ++ linter.action.redacted.toList ++ after) := by
  have hne : linter.action.term.toList ≠ [] := by simpa using linter.action.term_ne
  refine ⟨actionSites linter document,
    fun site => singleEdit linter.action.replaceTitle uri
      (rangeOf linter.action.term.toList site.1) linter.action.replacement,
    fun site => singleEdit linter.action.redactTitle uri
      (rangeOf linter.action.term.toList site.1) linter.action.redacted,
    fun before after => mem_actionSites_iff, pairwise_actionSites linter document,
    actions_eq_flatMap linter document uri, fun before after hsite => ?_⟩
  obtain ⟨htext, hterm⟩ := mem_actionSites_iff.mp hsite
  have hmarks := haddr.marks_rangeOf hne hterm htext
  rw [htext]
  exact ⟨⟨rfl, _, rfl, hmarks.applied? hterm _⟩, ⟨rfl, _, rfl, hmarks.applied? hterm _⟩⟩

/-- The first of two occurrences is replaced, after a character of two code units. -/
theorem Linter.actions_rewrite_standard :
    Addressable "😀 VS Code\r\nVS Code".toList ∧
    ∃ action ∈ standard.actions "😀 VS Code\r\nVS Code" "file:///notes",
      action.Rewrites "Replace VS C*de with a superior editor" "file:///notes"
        "😀 VS Code\r\nVS Code".toList "😀 Neovim\r\nVS Code".toList := by
  have haddr : Addressable "😀 VS Code\r\nVS Code".toList := ⟨by decide, by decide⟩
  obtain ⟨sites, replace, redact, hsites, -, hactions, hrewrites⟩ :=
    actions_rewrite standard _ "file:///notes" haddr
  have hsite : ("😀 ".toList, "\r\nVS Code".toList) ∈ sites :=
    (hsites _ _).mpr ⟨by decide, by decide⟩
  refine ⟨haddr, replace ("😀 ".toList, "\r\nVS Code".toList), ?_, (hrewrites _ _ hsite).1⟩
  rw [hactions]
  exact List.mem_flatMap.mpr ⟨_, hsite, List.mem_cons_self⟩

end Lint
end TermLint

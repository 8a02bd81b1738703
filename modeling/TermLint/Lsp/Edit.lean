/-
  TermLint.Lsp.Edit

  What an editor can be offered: edits of documents, actions that carry them out,
  completions and hover texts.
-/

import TermLint.Lsp.Position

namespace TermLint.Lsp

/-- The replacement of a range by a text. -/
structure TextEdit where
  range : Range
  newText : String
  deriving DecidableEq, Repr

/-- `TextEdit` as data. -/
def TextEdit.shape : Shape TextEdit :=
  Shape.record "TextEdit"
    (.cons (.required "range" Range.shape) (.cons (.required "newText" .string) .nil))
    (fun e => (e.range, e.newText, ())) fun (range, newText, ()) => ⟨range, newText⟩

/-- Edits of several documents, by URI. -/
structure WorkspaceEdit where
  changes : Dict (List TextEdit)
  deriving DecidableEq

/-- `WorkspaceEdit` as data. -/
def WorkspaceEdit.shape : Shape WorkspaceEdit :=
  Shape.record "WorkspaceEdit"
    (.cons (.required "changes" TextEdit.shape.list.dict) .nil)
    (fun e => (e.changes, ())) fun (changes, ()) => ⟨changes⟩

/-- A change that the user can choose. -/
structure CodeAction where
  title : String
  edit : WorkspaceEdit
  deriving DecidableEq

/-- `CodeAction` as data. -/
def CodeAction.shape : Shape CodeAction :=
  Shape.record "CodeAction"
    (.cons (.required "title" .string) (.cons (.required "edit" WorkspaceEdit.shape) .nil))
    (fun a => (a.title, a.edit, ())) fun (title, edit, ()) => ⟨title, edit⟩

/-- A completion that the user can choose. -/
structure CompletionItem where
  label : String
  detail : Option String
  documentation : Option String
  deriving DecidableEq, Repr

/-- `CompletionItem` as data. -/
def CompletionItem.shape : Shape CompletionItem :=
  Shape.record "CompletionItem"
    (.cons (.required "label" .string)
      (.cons (Shape.Field.optional "detail" .string).omitted
        (.cons (Shape.Field.optional "documentation" .string).omitted .nil)))
    (fun i => (i.label, i.detail, i.documentation, ()))
    fun (label, detail, documentation, ()) => ⟨label, detail, documentation⟩

/-- A text shown for a place. -/
structure Hover where
  contents : String
  deriving DecidableEq, Repr

/-- `Hover` as data. -/
def Hover.shape : Shape Hover :=
  Shape.record "Hover" (.cons (.required "contents" .string) .nil)
    (fun h => (h.contents, ())) fun (contents, ()) => ⟨contents⟩

end TermLint.Lsp

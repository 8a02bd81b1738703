/-
  TermLint.Store

  The documents that a client has open, by URI.  Both ways to write a document
  replace what was there: the last write wins.
-/

import TermLint.Lint.Linter
import TermLint.Log
import TermLint.Lsp.Document

namespace TermLint

open Lint (Linter)
open Lsp (Diagnostic TextDocumentContentChangeEvent)

/-- A version of a document. -/
structure Document where
  uri : String
  version : Int32
  text : String
  deriving DecidableEq, Repr

/-- The open documents, and the rules that their texts are checked with. -/
structure Store where
  linter : Linter
  documents : Dict Document

namespace Store

/-- A store without documents. -/
def empty (linter : Linter) : Store := ⟨linter, Dict.empty⟩

/-- The document with a URI. -/
def get? (store : Store) (uri : String) : Option Document :=
  store.documents.get? uri

/-- The text of the document with a URI. -/
def text? (store : Store) (uri : String) : Option String :=
  (store.get? uri).map (·.text)

/-- The number of documents. -/
def size (store : Store) : Nat := store.documents.size

/-- Whether there are no documents. -/
def isEmpty (store : Store) : Bool := store.size == 0

/-- Write a document, and find what is to be said about its text. -/
def put (store : Store) (uri : String) (version : Int32) (text : String) :
    Store × List Diagnostic :=
  ({ store with documents := store.documents.insert uri ⟨uri, version, text⟩ },
    store.linter.scan text)

/-- The text that a batch of changes leaves: that of the last change, or none at all. -/
def textAfter (changes : List TextDocumentContentChangeEvent) : String :=
  match changes.getLast? with
  | none => ""
  | some change => change.text

/-- Change a document, and find what is to be said about its new text.  A document that is not open
is first opened without text. -/
def change (store : Store) (uri : String) (version : Int32)
    (changes : List TextDocumentContentChangeEvent) : Store × List Diagnostic :=
  let document := (store.get? uri).getD ⟨uri, version, ""⟩
  let document := { document with version, text := textAfter changes }
  ({ store with documents := store.documents.insert uri document },
    store.linter.scan document.text)

/-- What the log says about a batch of changes. -/
def changeLog (store : Store) (uri : String) (changes : List TextDocumentContentChangeEvent) :
    List Log.Line :=
  (if (store.get? uri).isNone then
    [⟨.debug, "change for untracked document, opening it empty"⟩] else []) ++
  (if changes.any (·.range.isSome) then
    [⟨.debug, "range change applied as full document text"⟩] else [])

end Store
end TermLint

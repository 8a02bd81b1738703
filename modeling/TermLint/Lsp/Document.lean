/-
  TermLint.Lsp.Document

  Documents as the client names and sends them, and the parameters of the messages
  about them.
-/

import TermLint.Lsp.Position

namespace TermLint.Lsp

/-- A document that is opened. -/
structure TextDocumentItem where
  uri : String
  languageId : String
  version : Int32
  text : String
  deriving DecidableEq, Repr

/-- `TextDocumentItem` as data. -/
def TextDocumentItem.shape : Shape TextDocumentItem :=
  Shape.record "TextDocumentItem"
    (.cons (.required "uri" .string) (.cons (.defaulted "languageId" .string "")
      (.cons (.required "version" .int32) (.cons (.required "text" .string) .nil))))
    (fun d => (d.uri, d.languageId, d.version, d.text, ()))
    fun (uri, languageId, version, text, ()) => ⟨uri, languageId, version, text⟩

/-- A document, by name. -/
structure TextDocumentIdentifier where
  uri : String
  deriving DecidableEq, Repr

/-- `TextDocumentIdentifier` as data. -/
def TextDocumentIdentifier.shape : Shape TextDocumentIdentifier :=
  Shape.record "TextDocumentIdentifier" (.cons (.required "uri" .string) .nil)
    (fun d => (d.uri, ())) fun (uri, ()) => ⟨uri⟩

/-- A version of a document, by name. -/
structure VersionedTextDocumentIdentifier where
  uri : String
  version : Int32
  deriving DecidableEq, Repr

/-- `VersionedTextDocumentIdentifier` as data. -/
def VersionedTextDocumentIdentifier.shape : Shape VersionedTextDocumentIdentifier :=
  Shape.record "VersionedTextDocumentIdentifier"
    (.cons (.required "uri" .string) (.cons (.required "version" .int32) .nil))
    (fun d => (d.uri, d.version, ())) fun (uri, version, ()) => ⟨uri, version⟩

/-- A change of a document.  The text is the whole new document, also when a range is given. -/
structure TextDocumentContentChangeEvent where
  range : Option Range
  rangeLength : Option UInt32
  text : String
  deriving DecidableEq, Repr

/-- `TextDocumentContentChangeEvent` as data. -/
def TextDocumentContentChangeEvent.shape : Shape TextDocumentContentChangeEvent :=
  Shape.record "TextDocumentContentChangeEvent"
    (.cons (Shape.Field.defaulted "range" Range.shape.optional none).omitted
      (.cons (Shape.Field.defaulted "rangeLength" Shape.uint32.optional none).omitted
        (.cons (.required "text" .string) .nil)))
    (fun c => (c.range, c.rangeLength, c.text, ()))
    fun (range, rangeLength, text, ()) => ⟨range, rangeLength, text⟩

/-! ## Parameters -/

/-- A document was opened. -/
structure DidOpenTextDocumentParams where
  textDocument : TextDocumentItem
  deriving DecidableEq, Repr

/-- `DidOpenTextDocumentParams` as data. -/
def DidOpenTextDocumentParams.shape : Shape DidOpenTextDocumentParams :=
  Shape.record "DidOpenTextDocumentParams"
    (.cons (.required "textDocument" TextDocumentItem.shape) .nil)
    (fun p => (p.textDocument, ())) fun (textDocument, ()) => ⟨textDocument⟩

/-- A document was changed. -/
structure DidChangeTextDocumentParams where
  textDocument : VersionedTextDocumentIdentifier
  contentChanges : List TextDocumentContentChangeEvent
  deriving DecidableEq, Repr

/-- `DidChangeTextDocumentParams` as data. -/
def DidChangeTextDocumentParams.shape : Shape DidChangeTextDocumentParams :=
  Shape.record "DidChangeTextDocumentParams"
    (.cons (.required "textDocument" VersionedTextDocumentIdentifier.shape)
      (.cons (.required "contentChanges" TextDocumentContentChangeEvent.shape.list) .nil))
    (fun p => (p.textDocument, p.contentChanges, ()))
    fun (textDocument, contentChanges, ()) => ⟨textDocument, contentChanges⟩

/-- A request about a place in a document. -/
structure TextDocumentPositionParams where
  textDocument : TextDocumentIdentifier
  position : Position
  deriving DecidableEq, Repr

/-- `TextDocumentPositionParams` as data. -/
def TextDocumentPositionParams.shape : Shape TextDocumentPositionParams :=
  Shape.record "TextDocumentPositionParams"
    (.cons (.required "textDocument" TextDocumentIdentifier.shape)
      (.cons (.required "position" Position.shape) .nil))
    (fun p => (p.textDocument, p.position, ()))
    fun (textDocument, position, ()) => ⟨textDocument, position⟩

/-- A request for the actions on a range of a document. -/
structure CodeActionParams where
  textDocument : TextDocumentIdentifier
  range : Range
  deriving DecidableEq, Repr

/-- `CodeActionParams` as data. -/
def CodeActionParams.shape : Shape CodeActionParams :=
  Shape.record "CodeActionParams"
    (.cons (.required "textDocument" TextDocumentIdentifier.shape)
      (.cons (.defaulted "range" Range.shape Range.origin) .nil))
    (fun p => (p.textDocument, p.range, ()))
    fun (textDocument, range, ()) => ⟨textDocument, range⟩

end TermLint.Lsp

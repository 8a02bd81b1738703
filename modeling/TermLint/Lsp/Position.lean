/-
  TermLint.Lsp.Position

  Places in a document.  Lines count from zero; a column counts UTF-16 code units
  from the start of its line.
-/

import TermLint.Shape.Record

namespace TermLint.Lsp

open Shape (Fields Field)

/-- A place between two characters of a document. -/
structure Position where
  line : UInt32
  character : UInt32
  deriving DecidableEq, Repr

/-- `Position` as data. -/
def Position.shape : Shape Position :=
  Shape.record "Position"
    (.cons (.required "line" .uint32) (.cons (.required "character" .uint32) .nil))
    (fun p => (p.line, p.character, ())) fun (line, character, ()) => ⟨line, character⟩

/-- The characters from one place up to another. -/
structure Range where
  start : Position
  stop : Position
  deriving DecidableEq, Repr

/-- `Range` as data. -/
def Range.shape : Shape Range :=
  Shape.record "Range"
    (.cons (.required "start" Position.shape) (.cons (.required "end" Position.shape) .nil))
    (fun r => (r.start, r.stop, ())) fun (start, stop, ()) => ⟨start, stop⟩

/-- The empty range at the start of a document. -/
def Range.origin : Range := ⟨⟨0, 0⟩, ⟨0, 0⟩⟩

/-- A range of a document. -/
structure Location where
  uri : String
  range : Range
  deriving DecidableEq, Repr

/-- `Location` as data. -/
def Location.shape : Shape Location :=
  Shape.record "Location"
    (.cons (.required "uri" .string) (.cons (.required "range" Range.shape) .nil))
    (fun l => (l.uri, l.range, ())) fun (uri, range, ()) => ⟨uri, range⟩

end TermLint.Lsp

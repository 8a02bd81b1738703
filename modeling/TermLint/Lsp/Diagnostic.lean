/-
  TermLint.Lsp.Diagnostic

  Findings in a document and the notification that publishes them.
-/

import TermLint.Lsp.Position
import TermLint.Lsp.Severity

namespace TermLint.Lsp

/-- A finding in a document. -/
structure Diagnostic where
  range : Range
  severity : Severity
  source : String
  message : String
  deriving DecidableEq, Repr

/-- `Diagnostic` as data. -/
def Diagnostic.shape : Shape Diagnostic :=
  Shape.record "Diagnostic"
    (.cons (.required "range" Range.shape) (.cons (.required "severity" Severity.shape)
      (.cons (.required "source" .string) (.cons (.required "message" .string) .nil))))
    (fun d => (d.range, d.severity, d.source, d.message, ()))
    fun (range, severity, source, message, ()) => ⟨range, severity, source, message⟩

/-- All findings in one version of a document. -/
structure PublishDiagnosticsParams where
  uri : String
  version : Option Int32
  diagnostics : List Diagnostic
  deriving DecidableEq, Repr

/-- `PublishDiagnosticsParams` as data. -/
def PublishDiagnosticsParams.shape : Shape PublishDiagnosticsParams :=
  Shape.record "PublishDiagnosticsParams"
    (.cons (.required "uri" .string)
      (.cons (Shape.Field.optional "version" .int32).omitted
        (.cons (.required "diagnostics" Diagnostic.shape.list) .nil)))
    (fun p => (p.uri, p.version, p.diagnostics, ()))
    fun (uri, version, diagnostics, ()) => ⟨uri, version, diagnostics⟩

end TermLint.Lsp

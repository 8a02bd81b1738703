import TermLint.Main
import TermLint.Proofs.Frame.Segment
import TermLint.Proofs.Frame.Utf8
import TermLint.Proofs.Text.Digits
import TermLint.Proofs.Json.Lexeme
import TermLint.Proofs.Json.Plain
import TermLint.Proofs.Json.Turn
import TermLint.Proofs.Json.RoundTrip
import TermLint.Proofs.Frame.Header
import TermLint.Proofs.Frame.RoundTrip
import TermLint.Proofs.Rpc.Reply
import TermLint.Proofs.Session.Step
import TermLint.Proofs.Session.Refinement
import TermLint.Proofs.Json.Passing
import TermLint.Proofs.Shape.Agreement
import TermLint.Proofs.Rpc.Interpretation
import TermLint.Proofs.Lsp.Message
import TermLint.Proofs.Session.Correlation
import TermLint.Proofs.Session.Lifecycle
import TermLint.Proofs.Frame.Encoded
import TermLint.Proofs.Session.Independence
import TermLint.Proofs.Serve.Fold
import TermLint.Proofs.Text.Cut
import TermLint.Proofs.Frame.Remnant
import TermLint.Proofs.Frame.Length
import TermLint.Proofs.Frame.Canonical
import TermLint.Proofs.Frame.Reassembly
import TermLint.Proofs.Serve.Causality
import TermLint.Proofs.Text.Bytes
import TermLint.Proofs.Json.Suffix
import TermLint.Proofs.Json.Extent
import TermLint.Proofs.Shape.Origin
import TermLint.Proofs.Lsp.Extent
import TermLint.Proofs.Lint.Range
import TermLint.Proofs.Session.Positions
import TermLint.Proofs.Shape.Inverse
import TermLint.Proofs.Lsp.Payload
import TermLint.Proofs.Lsp.Wire
import TermLint.Proofs.Text.Occurrence
import TermLint.Proofs.Text.Offset
import TermLint.Proofs.Lint.Search
import TermLint.Proofs.Lint.Scan
import TermLint.Proofs.Lint.Edits
import TermLint.Proofs.Store.Writes
import TermLint.Proofs.Frame.Progress
import TermLint.Proofs.Serve.Bounded
import TermLint.Proofs.Serve.Turns
import TermLint.Proofs.Settings.Template
import TermLint.Proofs.Frame.Declaration
import TermLint.Proofs.Lint.Censoring

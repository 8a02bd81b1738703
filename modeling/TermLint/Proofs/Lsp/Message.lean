/-
  TermLint.Proofs.Lsp.Message

  Which message a call is.  The name of its method decides whether an identifier is
  needed and what its parameters are read as; `isReadable` says so for the names as
  they stand on the wire.
-/

import TermLint.Lsp.Message

namespace TermLint

open Lsp (Method Message Refusal InitializeParams DidOpenTextDocumentParams
  DidChangeTextDocumentParams TextDocumentPositionParams CodeActionParams)
open Rpc (Id Call)

/-! ## Names of methods -/

namespace Lsp.Method

theorem name_of_ofName? {name : String} {method : Method} (h : ofName? name = some method) :
    method.name = name := by
  have hfound := List.find?_some h
  exact beq_iff_eq.mp hfound

end Lsp.Method

/-! ## Parameters -/

namespace Rpc.Call

/-- The data from which the parameters of a call are read: an empty object where there are none. -/
def arguments (call : Call) : Value :=
  match call.params with
  | .null => .object []
  | params => params

/-- Whether the parameters of a call can be read as those of its method.  A method without
parameters does not look at them. -/
def isReadable (call : Call) : Bool :=
  match call.method with
  | "initialize" => (InitializeParams.shape.ofValue call.arguments).isOk
  | "textDocument/didOpen" => (DidOpenTextDocumentParams.shape.ofValue call.arguments).isOk
  | "textDocument/didChange" => (DidChangeTextDocumentParams.shape.ofValue call.arguments).isOk
  | "textDocument/hover" => (TextDocumentPositionParams.shape.ofValue call.arguments).isOk
  | "textDocument/definition" => (TextDocumentPositionParams.shape.ofValue call.arguments).isOk
  | "textDocument/codeAction" => (CodeActionParams.shape.ofValue call.arguments).isOk
  | "textDocument/completion" => (TextDocumentPositionParams.shape.ofValue call.arguments).isOk
  | _ => true

end Rpc.Call

namespace Lsp.Message

variable {α : Type} {shape : Shape α} {call : Call}

theorem paramsOf_eq : paramsOf shape call = shape.ofValue call.arguments := by
  cases hparams : call.params with
  | null => simp only [paramsOf, Call.arguments, hparams]
  | _ => simp only [paramsOf, Call.arguments, hparams]

/-- A request without an identifier is refused, and so is one whose parameters cannot be read. -/
theorem request_eq (make : Id → α → Message) (call : Call) :
    request shape make call =
      match call.id with
      | none => .error (.missingId call.method)
      | some id =>
        match shape.ofValue call.arguments with
        | .error reason => .error (.invalidParams call.method (some id) reason)
        | .ok params => .ok (make id params) := by
  cases hid : call.id with
  | none => simp only [request, hid]
  | some id =>
    cases hread : shape.ofValue call.arguments with
    | error reason => simp only [request, hid, paramsOf_eq, hread]
    | ok params => simp only [request, hid, paramsOf_eq, hread]

/-- A notification whose parameters cannot be read is refused. -/
theorem notification_eq (make : α → Message) (call : Call) :
    notification shape make call =
      match shape.ofValue call.arguments with
      | .error reason => .error (.invalidParams call.method none reason)
      | .ok params => .ok (make params) := by
  cases hread : shape.ofValue call.arguments with
  | error reason => simp only [notification, paramsOf_eq, hread]
  | ok params => simp only [notification, paramsOf_eq, hread]

end Lsp.Message
end TermLint

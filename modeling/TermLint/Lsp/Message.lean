/-
  TermLint.Lsp.Message

  Calls whose method is known and whose parameters have been read.  A request needs
  an identifier, which is looked for before its parameters are.
-/

import TermLint.Lsp.Document
import TermLint.Lsp.Lifecycle
import TermLint.Rpc.Call

namespace TermLint.Lsp

open Rpc (Id Call)
open Shape (Mismatch)

/-- The methods that the server knows. -/
inductive Method where
  | startup
  | initialized
  | shutdown
  | exit
  | didOpen
  | didChange
  | hover
  | definition
  | codeAction
  | completion
  | publishDiagnostics
  deriving DecidableEq, Repr

namespace Method

/-- The name of a method on the wire. -/
def name : Method → String
  | .startup => "initialize"
  | .initialized => "initialized"
  | .shutdown => "shutdown"
  | .exit => "exit"
  | .didOpen => "textDocument/didOpen"
  | .didChange => "textDocument/didChange"
  | .hover => "textDocument/hover"
  | .definition => "textDocument/definition"
  | .codeAction => "textDocument/codeAction"
  | .completion => "textDocument/completion"
  | .publishDiagnostics => "textDocument/publishDiagnostics"

/-- All methods. -/
def all : List Method :=
  [.startup, .initialized, .shutdown, .exit, .didOpen, .didChange, .hover, .definition,
    .codeAction, .completion, .publishDiagnostics]

/-- The method with a name. -/
def ofName? (name : String) : Option Method :=
  all.find? fun method => method.name == name

end Method

/-- A call with its parameters. -/
inductive Message where
  | startup (id : Id) (params : InitializeParams)
  | initialized
  | shutdown (id : Id)
  | exit
  | didOpen (params : DidOpenTextDocumentParams)
  | didChange (params : DidChangeTextDocumentParams)
  | hover (id : Id) (params : TextDocumentPositionParams)
  | definition (id : Id) (params : TextDocumentPositionParams)
  | codeAction (id : Id) (params : CodeActionParams)
  | completion (id : Id) (params : TextDocumentPositionParams)
  | publishDiagnostics
  /-- A method that the server does not know. -/
  | unknown (id : Option Id) (method : String)
  deriving DecidableEq, Repr

/-- Why a call is not taken. -/
inductive Refusal where
  | missingId (method : String)
  | invalidParams (method : String) (id : Option Id) (reason : Mismatch)
  deriving DecidableEq, Repr

namespace Refusal

/-- The wording of a refusal. -/
def message : Refusal → String
  | .missingId method => "request " ++ method ++ " is missing an id"
  | .invalidParams method _ reason =>
    "invalid params for " ++ method ++ ": " ++ reason.message Json.reals

/-- The identifier to answer to. -/
def requestId : Refusal → Option Id
  | .missingId _ => none
  | .invalidParams _ id _ => id

end Refusal

namespace Message

/-- The parameters of a call, of which none at all are an empty object. -/
def paramsOf {α : Type} (shape : Shape α) (call : Call) : Except Mismatch α :=
  match call.params with
  | .null => shape.ofValue (.object [])
  | params => shape.ofValue params

/-- A request with parameters. -/
def request {α : Type} (shape : Shape α) (make : Id → α → Message) (call : Call) :
    Except Refusal Message :=
  match call.id with
  | none => .error (.missingId call.method)
  | some id =>
    match paramsOf shape call with
    | .error m => .error (.invalidParams call.method (some id) m)
    | .ok params => .ok (make id params)

/-- A notification with parameters. -/
def notification {α : Type} (shape : Shape α) (make : α → Message) (call : Call) :
    Except Refusal Message :=
  match paramsOf shape call with
  | .error m => .error (.invalidParams call.method none m)
  | .ok params => .ok (make params)

/-- The message of a call. -/
def ofCall (call : Call) : Except Refusal Message :=
  match Method.ofName? call.method with
  | some .startup => request InitializeParams.shape .startup call
  | some .initialized => .ok .initialized
  | some .shutdown =>
    match call.id with
    | none => .error (.missingId call.method)
    | some id => .ok (.shutdown id)
  | some .exit => .ok .exit
  | some .didOpen => notification DidOpenTextDocumentParams.shape .didOpen call
  | some .didChange => notification DidChangeTextDocumentParams.shape .didChange call
  | some .hover => request TextDocumentPositionParams.shape .hover call
  | some .definition => request TextDocumentPositionParams.shape .definition call
  | some .codeAction => request CodeActionParams.shape .codeAction call
  | some .completion => request TextDocumentPositionParams.shape .completion call
  | some .publishDiagnostics => .ok .publishDiagnostics
  | none => .ok (.unknown call.id call.method)

end Message
end TermLint.Lsp

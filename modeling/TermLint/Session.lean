/-
  TermLint.Session

  A session with one client.  Every frame is taken to its end before the next one:
  `step` gives the session after a frame, at most one reply, and what the log says.
  Frames that cannot be used are dropped, and after `exit` everything is ignored.
-/

import TermLint.Lsp.Message
import TermLint.Rpc.Reply
import TermLint.Store

namespace TermLint

open Lint (Linter)
open Lsp (Message Method ServerInfo Hover Location Position CompletionItem
  TextDocumentPositionParams PublishDiagnosticsParams Diagnostic CodeAction)
open Rpc (Call Id Reply Delivery)

/-- How far a session has come. -/
inductive Phase where
  | uninitialized
  | initialized
  /-- The client asked for the end; requests are still answered. -/
  | shutDown
  | exited
  deriving DecidableEq, Repr

/-- A session with one client. -/
structure Session where
  phase : Phase
  store : Store
  server : ServerInfo

/-- What a session does about a frame. -/
structure Step where
  session : Session
  reply : Option Reply
  log : List Log.Line

namespace Session

/-- A session that begins. -/
def start (linter : Linter) (server : ServerInfo) : Session :=
  ⟨.uninitialized, Store.empty linter, server⟩

/-- A session that begins, when nothing is configured. -/
def standard : Session := start Linter.standard ServerInfo.standard

/-- Whether the client has left. -/
def exited (session : Session) : Bool := session.phase == .exited

/-! ## Answers -/

/-- The hover text for a document: its name and its length in UTF-16 code units, which is zero for a
document that is not open. -/
def hover (session : Session) (uri : String) : Hover :=
  let length := ((session.store.text? uri).map fun text => Text.units text.toList).getD 0
  ⟨"File: " ++ uri ++ ", Characters: " ++ toString length⟩

/-- The start of the line above a place; the first line is its own. -/
def definition (params : TextDocumentPositionParams) : Location :=
  let line := params.position.line
  let target : Position := ⟨if line = 0 then 0 else line - 1, 0⟩
  ⟨params.textDocument.uri, ⟨target, target⟩⟩

/-- The completions that are always offered. -/
def completions : List CompletionItem :=
  [⟨"Neovim (BTW)", some "Very cool editor", some "Way better than VS C*ode"⟩]

/-- The actions for a document, of which there are none when it is not open. -/
def actions (session : Session) (uri : String) : List CodeAction :=
  match session.store.text? uri with
  | none => []
  | some text => session.store.linter.actions text uri

/-- The notification of all findings in a version of a document. -/
def publish (uri : String) (version : Int32) (diagnostics : List Diagnostic) : Reply :=
  .notification Method.publishDiagnostics.name
    (PublishDiagnosticsParams.shape.toValue ⟨uri, some version, diagnostics⟩)

/-! ## Steps -/

/-- What the log says about a client that introduces itself. -/
def greeting (params : Lsp.InitializeParams) : List Log.Line :=
  match params.clientInfo with
  | none => []
  | some client => [⟨.info, "Connected to: " ++ client.name ++ " " ++ client.version.getD ""⟩]

/-- A document and its version, in words. -/
def versionText (uri : String) (version : Int32) : String :=
  uri ++ " (version " ++ toString version.toInt ++ ")"

/-- What a session does about a message. -/
def take (session : Session) (message : Message) : Step :=
  match message with
  | .startup id params =>
    ⟨{ session with phase := .initialized },
      some (.result id (Lsp.initializeResult session.server).canonical), greeting params⟩
  | .initialized => ⟨session, none, [⟨.debug, "Client finished initialization"⟩]⟩
  | .shutdown id =>
    ⟨{ session with phase := .shutDown }, some (.result id .null),
      [⟨.info, "Shutdown requested"⟩]⟩
  | .exit => ⟨{ session with phase := .exited }, none, [⟨.info, "Exit received"⟩]⟩
  | .didOpen params =>
    let item := params.textDocument
    let (store, diagnostics) := session.store.put item.uri item.version item.text
    ⟨{ session with store }, some (publish item.uri item.version diagnostics),
      [⟨.info, "Opened: " ++ versionText item.uri item.version⟩]⟩
  | .didChange params =>
    let document := params.textDocument
    let (store, diagnostics) :=
      session.store.change document.uri document.version params.contentChanges
    ⟨{ session with store }, some (publish document.uri document.version diagnostics),
      ⟨.debug, "Changed: " ++ versionText document.uri document.version⟩ ::
        session.store.changeLog document.uri params.contentChanges⟩
  | .hover id params =>
    ⟨session, some (.result id (Hover.shape.toValue (session.hover params.textDocument.uri))), []⟩
  | .definition id params =>
    ⟨session, some (.result id (Location.shape.toValue (definition params))), []⟩
  | .codeAction id params =>
    ⟨session,
      some (.result id (CodeAction.shape.list.toValue (session.actions params.textDocument.uri))),
      []⟩
  | .completion id _ =>
    ⟨session, some (.result id (CompletionItem.shape.list.toValue completions)), []⟩
  | .publishDiagnostics =>
    ⟨session, none, [⟨.debug, "Ignoring client-sent publishDiagnostics"⟩]⟩
  | .unknown _ method => ⟨session, none, [⟨.error, "Not handling: " ++ method⟩]⟩

/-- What a session does about a call. -/
def answer (session : Session) (call : Call) : Step :=
  let received : Log.Line := ⟨.info, "Method received"⟩
  if session.exited then
    ⟨session, none, [received, ⟨.debug, "Session exited, ignoring " ++ call.method⟩]⟩
  else
    match Message.ofCall call with
    | .ok message =>
      let step := session.take message
      { step with log := received :: step.log }
    | .error refusal =>
      ⟨session,
        refusal.requestId.map fun id => .failure id Rpc.invalidParams refusal.message,
        [received, ⟨.warn, "Rejecting message: " ++ refusal.message⟩]⟩

/-- What a session does about a frame. -/
def step (session : Session) (frame : String) : Step :=
  match Delivery.ofFrame frame with
  | .error fault => ⟨session, none, [⟨.warn, "Dropping inbound frame: " ++ fault.message⟩]⟩
  | .ok delivery => session.answer delivery.call

/-- What a session does about frames, one after another. -/
def run (session : Session) : List String → Session
  | [] => session
  | frame :: rest => (session.step frame).session.run rest

end Session
end TermLint

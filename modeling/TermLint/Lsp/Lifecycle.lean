/-
  TermLint.Lsp.Lifecycle

  What client and server tell each other when a session starts.
-/

import TermLint.Shape.Record

namespace TermLint.Lsp

/-- Who the client is. -/
structure ClientInfo where
  name : String
  version : Option String
  deriving DecidableEq, Repr

/-- `ClientInfo` as data. -/
def ClientInfo.shape : Shape ClientInfo :=
  Shape.record "ClientInfo"
    (.cons (.required "name" .string)
      (.cons (.defaulted "version" Shape.string.optional none) .nil))
    (fun c => (c.name, c.version, ())) fun (name, version, ()) => ⟨name, version⟩

/-- What the client tells at the start. -/
structure InitializeParams where
  processId : Option Int64
  rootUri : Option String
  clientInfo : Option ClientInfo
  deriving DecidableEq, Repr

/-- `InitializeParams` as data. -/
def InitializeParams.shape : Shape InitializeParams :=
  Shape.record "InitializeParams"
    (.cons (.defaulted "processId" Shape.int64.optional none)
      (.cons (.defaulted "rootUri" Shape.string.optional none)
        (.cons (.defaulted "clientInfo" ClientInfo.shape.optional none) .nil)))
    (fun p => (p.processId, p.rootUri, p.clientInfo, ()))
    fun (processId, rootUri, clientInfo, ()) => ⟨processId, rootUri, clientInfo⟩

/-- Who the server is. -/
structure ServerInfo where
  name : String
  version : Option String
  deriving DecidableEq, Repr

/-- `ServerInfo` as data. -/
def ServerInfo.shape : Shape ServerInfo :=
  Shape.record "ServerInfo"
    (.cons (.required "name" .string)
      (.cons (Shape.Field.optional "version" .string).omitted .nil))
    (fun s => (s.name, s.version, ())) fun (name, version, ()) => ⟨name, version⟩

/-- The name and version of this server. -/
def ServerInfo.standard : ServerInfo := ⟨"quill", some "0.1.0"⟩

/-- What the server can do: it takes whole documents, and answers requests for hover texts,
definitions, code actions and completions. -/
def capabilities : Value :=
  .object
    [("textDocumentSync", .int 1), ("hoverProvider", .bool true),
      ("definitionProvider", .bool true), ("codeActionProvider", .bool true),
      ("completionProvider", .object [])]

/-- The server's answer at the start. -/
def initializeResult (server : ServerInfo) : Value :=
  .object [("capabilities", capabilities), ("serverInfo", ServerInfo.shape.encode server)]

end TermLint.Lsp

/-
  TermLint.Rpc.Reply

  What the server sends: the result of a request, its failure, or a notification.
-/

import TermLint.Frame.Basic
import TermLint.Rpc.Id

namespace TermLint.Rpc

/-- The version of the protocol. -/
def version : String := "2.0"

/-- The code of a request whose parameters cannot be used. -/
def invalidParams : Int := -32602

/-- What the server sends. -/
inductive Reply where
  | result (id : Id) (value : Value)
  | failure (id : Id) (code : Int) (message : String)
  | notification (method : String) (params : Value)

namespace Reply

/-- A reply as data. -/
def encode : Reply → Value
  | .result id value =>
    .object [("jsonrpc", .string version), ("id", id.encode), ("result", value)]
  | .failure id code message =>
    .object [("jsonrpc", .string version), ("id", id.encode),
      ("error", .object [("code", .int code), ("message", .string message)])]
  | .notification method params =>
    .object [("jsonrpc", .string version), ("method", .string method), ("params", params)]

/-- The frame of a reply. -/
def frame (reply : Reply) : String :=
  Frame.encode reply.encode

end Reply
end TermLint.Rpc

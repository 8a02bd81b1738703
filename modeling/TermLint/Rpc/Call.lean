/-
  TermLint.Rpc.Call

  What a client sends: the call of a method, with an identifier when it expects an
  answer.
-/

import TermLint.Frame.Basic
import TermLint.Rpc.Id
import TermLint.Shape.Record

namespace TermLint.Rpc

/-- The call of a method. -/
structure Call where
  /-- The identifier of a request; a notification has none. -/
  id : Option Id
  /-- The version of the protocol, as the client states it. -/
  jsonrpc : String
  method : String
  params : Value

namespace Call

/-- `Call` as data. -/
def shape : Shape Call :=
  Shape.record "RawEnvelope"
    (.cons (.defaulted "id" Id.shape.optional none) (.cons (.defaulted "jsonrpc" .string "")
      (.cons (.required "method" .string) (.cons (.defaulted "params" .any .null) .nil))))
    (fun c => (c.id, c.jsonrpc, c.method, c.params, ()))
    fun (id, jsonrpc, method, params, ()) => ⟨id, jsonrpc, method, params⟩

/-- A call that expects no answer. -/
def isNotification (call : Call) : Bool := call.id.isNone

end Call

/-- A call with the length of the body that held it. -/
structure Delivery where
  call : Call
  length : Nat

/-- The call that a frame holds. -/
def Delivery.ofFrame (frame : String) : Except Frame.Fault Delivery :=
  match Frame.split frame with
  | .error e => .error (.framing e)
  | .ok (length, body) =>
    match Call.shape.parse body with
    | .error e => .error (.body e)
    | .ok call => .ok ⟨call, length⟩

end TermLint.Rpc

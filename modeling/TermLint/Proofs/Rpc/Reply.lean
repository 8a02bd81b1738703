/-
  TermLint.Proofs.Rpc.Reply

  The text that is sent for a reply.  Two forms go over the wire, each the frame of
  an object with three fields: an answer, which names the request that it answers,
  and a notice, which names a method.  Every reply is sent in one of them.
-/

import TermLint.Rpc.Reply

namespace TermLint.Rpc

/-- The text that answers a request.  The identifier stands in it as the number or the text that it
is, and what came of the request under `name`. -/
def answerText (id : Id) (name : String) (outcome : Value) : String :=
  Frame.encode (.object
    [("jsonrpc", .string "2.0"),
      ("id", match id with
        | .number n => .int n.toInt
        | .text s => .string s),
      (name, outcome)])

/-- The text that tells the client about something it did not ask for. -/
def noticeText (method : String) (params : Value) : String :=
  Frame.encode (.object
    [("jsonrpc", .string "2.0"), ("method", .string method), ("params", params)])

/-- A result and a failure are sent as answers, and a notification as a notice. -/
theorem Reply.frame_eq (reply : Reply) :
    reply.frame =
      match reply with
      | .result id value => answerText id "result" value
      | .failure id code message =>
        answerText id "error" (.object [("code", .int code), ("message", .string message)])
      | .notification method params => noticeText method params := by
  cases reply with
  | result id value =>
    cases id with
    | number n => rfl
    | text s => rfl
  | failure id code message =>
    cases id with
    | number n => rfl
    | text s => rfl
  | notification method params => rfl

end TermLint.Rpc

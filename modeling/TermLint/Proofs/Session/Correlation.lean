/-
  TermLint.Proofs.Session.Correlation

  Which reply answers which call.  What is due to the sender of a call follows from
  the name of the method, the identifier and the parameters alone: a request is due
  one answer with its own identifier, an edit that can be read is due the findings
  in the document, and nothing else is due anything.  A session that the client has
  not left gives exactly what is due, and sends it in the form for what it is.
-/

import TermLint.Proofs.Lsp.Message
import TermLint.Proofs.Rpc.Reply
import TermLint.Session

namespace TermLint

open Lsp (Method Message Refusal InitializeParams TextDocumentPositionParams CodeActionParams
  DidOpenTextDocumentParams DidChangeTextDocumentParams)
open Rpc (Id Call Reply Delivery answerText noticeText)

/-! ## What is due -/

/-- The methods that ask for an answer. -/
def requestMethods : List String :=
  ["initialize", "shutdown", "textDocument/hover", "textDocument/definition",
    "textDocument/codeAction", "textDocument/completion"]

/-- The methods that edit a document. -/
def editMethods : List String :=
  ["textDocument/didOpen", "textDocument/didChange"]

/-- What is due to the sender of a call. -/
inductive Due where
  | result (id : Id)
  | failure (id : Id)
  /-- The findings in a document. -/
  | findings
  | nothing

/-- What is due to the sender of a call, by its method, identifier and parameters. -/
def Rpc.Call.due (call : Call) : Due :=
  if call.method ∈ requestMethods then
    match call.id with
    | none => .nothing
    | some id => if call.isReadable then .result id else .failure id
  else if call.method ∈ editMethods then
    if call.isReadable then .findings else .nothing
  else .nothing

/-- A reply, or its absence, that gives what is due. -/
inductive Due.Met : Due → Option Reply → Prop where
  | result (id : Id) (value : Value) : Met (.result id) (some (.result id value))
  | failure (id : Id) (message : String) : Met (.failure id) (some (.failure id (-32602) message))
  | findings (params : Value) :
      Met .findings (some (.notification "textDocument/publishDiagnostics" params))
  | nothing : Met .nothing none

/-! ## Messages and refusals -/

/-- What is due to the sender of a message. -/
def Lsp.Message.due : Message → Due
  | .startup id _ => .result id
  | .shutdown id => .result id
  | .hover id _ => .result id
  | .definition id _ => .result id
  | .codeAction id _ => .result id
  | .completion id _ => .result id
  | .didOpen _ => .findings
  | .didChange _ => .findings
  | _ => .nothing

/-- What is due to the sender of a call, by the message that it is or the reason why it is none. -/
def dueOf : Except Refusal Message → Due
  | .ok message => message.due
  | .error refusal =>
    match refusal.requestId with
    | none => .nothing
    | some id => .failure id

theorem Session.met_take (session : Session) (message : Message) :
    message.due.Met (session.take message).reply := by
  cases message <;> constructor

theorem Session.met_answer {session : Session} (hactive : session.exited = false) (call : Call) :
    (dueOf (Message.ofCall call)).Met (session.answer call).reply := by
  simp only [answer, hactive, Bool.false_eq_true, if_false]
  cases Message.ofCall call with
  | ok message => exact session.met_take message
  | error refusal =>
    simp only [dueOf]
    cases refusal.requestId with
    | none => exact .nothing
    | some id => exact .failure id _

/-! ## Calls -/

theorem dueOf_request {α : Type} (shape : Shape α) (make : Id → α → Message)
    (hmake : ∀ id params, (make id params).due = .result id) (call : Call) :
    dueOf (Message.request shape make call) =
      match call.id with
      | none => .nothing
      | some id => if (shape.ofValue call.arguments).isOk then .result id else .failure id := by
  rw [Message.request_eq]
  cases call.id with
  | none => rfl
  | some id =>
    cases shape.ofValue call.arguments with
    | error reason => rfl
    | ok params => exact hmake id params

theorem dueOf_notification {α : Type} (shape : Shape α) (make : α → Message)
    (hmake : ∀ params, (make params).due = .findings) (call : Call) :
    dueOf (Message.notification shape make call) =
      if (shape.ofValue call.arguments).isOk then .findings else .nothing := by
  rw [Message.notification_eq]
  cases shape.ofValue call.arguments with
  | error reason => rfl
  | ok params => exact hmake params

/-- The names that ask for a reply are names of methods. -/
theorem isSome_ofName? : ∀ name ∈ requestMethods ++ editMethods, (Method.ofName? name).isSome := by
  decide

theorem due_of_ofName?_eq_none {call : Call} (h : Method.ofName? call.method = none) :
    call.due = .nothing := by
  have hnone : call.method ∉ requestMethods ++ editMethods := by
    intro hmem
    have hsome := isSome_ofName? _ hmem
    rw [h] at hsome
    cases hsome
  rw [List.mem_append, not_or] at hnone
  rw [Call.due, if_neg hnone.1, if_neg hnone.2]

/-- What is due to the sender of a call does not depend on how the call is taken. -/
theorem dueOf_ofCall (call : Call) : dueOf (Message.ofCall call) = call.due := by
  cases hname : Method.ofName? call.method with
  | none =>
    rw [due_of_ofName?_eq_none hname]
    simp only [Message.ofCall, hname]
    rfl
  | some method =>
    obtain ⟨id, jsonrpc, name, params⟩ := call
    -- with the name in its place, both sides can be computed but for identifier and parameters
    have hmethod : method.name = name := Method.name_of_ofName? hname
    subst hmethod
    simp only [Message.ofCall, hname]
    cases method with
    | startup => exact dueOf_request InitializeParams.shape .startup (fun _ _ => rfl) _
    | hover => exact dueOf_request TextDocumentPositionParams.shape .hover (fun _ _ => rfl) _
    | definition =>
      exact dueOf_request TextDocumentPositionParams.shape .definition (fun _ _ => rfl) _
    | codeAction => exact dueOf_request CodeActionParams.shape .codeAction (fun _ _ => rfl) _
    | completion =>
      exact dueOf_request TextDocumentPositionParams.shape .completion (fun _ _ => rfl) _
    | didOpen => exact dueOf_notification DidOpenTextDocumentParams.shape .didOpen (fun _ => rfl) _
    | didChange =>
      exact dueOf_notification DidChangeTextDocumentParams.shape .didChange (fun _ => rfl) _
    | shutdown =>
      cases id with
      | none => rfl
      | some id => rfl
    | initialized => rfl
    | exit => rfl
    | publishDiagnostics => rfl

/-! ## Frames -/

/-- A session that the client has not left gives what is due to the sender of a call. -/
theorem Session.met_step {session : Session} {frame : String} {delivery : Delivery}
    (hactive : session.exited = false) (hframe : Delivery.ofFrame frame = .ok delivery) :
    delivery.call.due.Met (session.step frame).reply := by
  simp only [step, hframe]
  rw [← dueOf_ofCall]
  exact met_answer hactive delivery.call

/-! ## What a reply can be -/

section Met

variable {call : Call} {reply : Option Reply}

theorem Due.Met.of_request {id : Id} (h : call.due.Met reply)
    (hmethod : call.method ∈ requestMethods) (hid : call.id = some id) :
    (call.isReadable = true ∧ ∃ value, reply = some (.result id value)) ∨
      (call.isReadable = false ∧ ∃ message, reply = some (.failure id (-32602) message)) := by
  simp only [Call.due, if_pos hmethod, hid] at h
  cases hreadable : call.isReadable with
  | true =>
    rw [if_pos hreadable] at h
    cases h with
    | result _ value => exact .inl ⟨rfl, value, rfl⟩
  | false =>
    rw [if_neg (by simp [hreadable])] at h
    cases h with
    | failure _ message => exact .inr ⟨rfl, message, rfl⟩

theorem Due.Met.of_request_without_id (h : call.due.Met reply)
    (hmethod : call.method ∈ requestMethods) (hid : call.id = none) : reply = none := by
  simp only [Call.due, if_pos hmethod, hid] at h
  cases h
  rfl

theorem Due.Met.of_edit (h : call.due.Met reply) (hmethod : call.method ∈ editMethods) :
    (call.isReadable = true ∧
        ∃ params, reply = some (.notification "textDocument/publishDiagnostics" params)) ∨
      (call.isReadable = false ∧ reply = none) := by
  -- no method both asks for an answer and edits a document
  have hother : call.method ∉ requestMethods := by
    intro hrequest
    have hdisjoint : ∀ name ∈ editMethods, name ∉ requestMethods := by decide
    exact hdisjoint _ hmethod hrequest
  rw [Call.due, if_neg hother, if_pos hmethod] at h
  cases hreadable : call.isReadable with
  | true =>
    rw [if_pos hreadable] at h
    cases h with
    | findings params => exact .inl ⟨rfl, params, rfl⟩
  | false =>
    rw [if_neg (by simp [hreadable])] at h
    cases h
    exact .inr ⟨rfl, rfl⟩

theorem Due.Met.of_other (h : call.due.Met reply) (hrequest : call.method ∉ requestMethods)
    (hedit : call.method ∉ editMethods) : reply = none := by
  rw [Call.due, if_neg hrequest, if_neg hedit] at h
  cases h
  rfl

end Met

/-- The data at `id` in a reply, as it is sent. -/
def Rpc.Reply.sentId? (reply : Reply) : Option Value :=
  match reply.encode with
  | .object fields => findEntry "id" fields
  | _ => none

/-- Whatever is sent with an identifier answers a request that has it. -/
theorem Due.Met.id_eq {call : Call} {reply : Reply} {data : Value} (h : call.due.Met (some reply))
    (hsent : reply.sentId? = some data) : ∃ id, call.id = some id ∧ data = id.encode := by
  by_cases hrequest : call.method ∈ requestMethods
  · cases hid : call.id with
    | none => cases h.of_request_without_id hrequest hid
    | some id =>
      refine ⟨id, rfl, ?_⟩
      obtain ⟨-, value, hreply⟩ | ⟨-, message, hreply⟩ := h.of_request hrequest hid
      · cases hreply
        exact (Option.some.inj hsent).symm
      · cases hreply
        exact (Option.some.inj hsent).symm
  · by_cases hedit : call.method ∈ editMethods
    · obtain ⟨-, params, hreply⟩ | ⟨-, hreply⟩ := h.of_edit hedit
      · cases hreply
        cases hsent
      · cases hreply
    · cases h.of_other hrequest hedit

/-! ## Correlation -/

namespace Session

/-- The reply to a call, in a session that the client has not left, and the text that is sent.  A
request with an identifier gets exactly one, a result or a failure with that identifier, and a
failure just when its parameters cannot be read, to which `shutdown` has none.  A request without an
identifier gets none.  An edit gets the findings in the document, without an identifier, just when
its parameters can be read.  Any other call gets none.  So what is sent with an identifier answers a
call with that identifier. -/
theorem reply_correlates {session : Session} {frame : String} {delivery : Delivery}
    (hactive : session.phase ≠ .exited) (hframe : Delivery.ofFrame frame = .ok delivery) :
    (∀ id, delivery.call.method ∈ requestMethods → delivery.call.id = some id →
      ∃ reply, (session.step frame).reply = some reply ∧ reply.sentId? = some id.encode ∧
        ((∃ value, reply = .result id value ∧ reply.frame = answerText id "result" value) ∨
          ∃ message, reply = .failure id (-32602) message ∧
            reply.frame = answerText id "error"
              (.object [("code", .int (-32602)), ("message", .string message)])) ∧
        ((∃ message, reply = .failure id (-32602) message) ↔
          delivery.call.method ≠ "shutdown" ∧ delivery.call.isReadable = false)) ∧
    (delivery.call.method ∈ requestMethods → delivery.call.id = none →
      (session.step frame).reply = none) ∧
    (delivery.call.method ∈ editMethods →
      (∀ reply, (session.step frame).reply = some reply → reply.sentId? = none ∧
        ∃ params, reply = .notification "textDocument/publishDiagnostics" params ∧
          reply.frame = noticeText "textDocument/publishDiagnostics" params) ∧
      ((session.step frame).reply.isSome ↔ delivery.call.isReadable = true)) ∧
    (delivery.call.method ∉ requestMethods → delivery.call.method ∉ editMethods →
      (session.step frame).reply = none) ∧
    ∀ reply data, (session.step frame).reply = some reply → reply.sentId? = some data →
      ∃ id, delivery.call.id = some id ∧ data = id.encode := by
  have hexited : session.exited = false := by simpa [exited] using hactive
  have hmet := met_step hexited hframe
  generalize (session.step frame).reply = reply at hmet
  refine ⟨fun id hmethod hid => ?_, hmet.of_request_without_id, fun hmethod => ?_, hmet.of_other,
    fun sent data hreply hsent => ?_⟩
  · obtain ⟨hreadable, value, rfl⟩ | ⟨hreadable, message, rfl⟩ := hmet.of_request hmethod hid
    · exact ⟨_, rfl, rfl, .inl ⟨value, rfl, Reply.frame_eq _⟩, by simp [hreadable]⟩
    · -- `shutdown` reads no parameters, so it is not the method here
      have hne : delivery.call.method ≠ "shutdown" := by
        intro heq
        rw [Call.isReadable, heq] at hreadable
        cases hreadable
      exact ⟨_, rfl, rfl, .inr ⟨message, rfl, Reply.frame_eq _⟩,
        ⟨fun _ => ⟨hne, hreadable⟩, fun _ => ⟨message, rfl⟩⟩⟩
  · obtain ⟨hreadable, params, rfl⟩ | ⟨hreadable, rfl⟩ := hmet.of_edit hmethod
    · refine ⟨fun sent hsent => ?_, by simp [hreadable]⟩
      cases hsent
      exact ⟨rfl, params, rfl, Reply.frame_eq _⟩
    · exact ⟨fun sent hsent => (by cases hsent), by simp [hreadable]⟩
  · subst hreply
    exact hmet.id_eq hsent

/-- A request under a text, without the parameters that it needs. -/
theorem reply_correlates_refused :
    ∃ message,
      (standard.step (Frame.encode (.array [.string "q", .string "2.0",
        .string "textDocument/hover"]))).reply = some (.failure (.text "q") (-32602) message) ∧
      (Reply.failure (.text "q") (-32602) message).frame =
        Frame.encode (.object [("jsonrpc", .string "2.0"), ("id", .string "q"),
          ("error", .object [("code", .int (-32602)), ("message", .string message)])]) := by
  generalize hframe : Frame.encode (.array [.string "q", .string "2.0",
    .string "textDocument/hover"]) = frame
  have hcall : (Delivery.ofFrame frame).toOption.map
      (fun delivery => (delivery.call.method, delivery.call.id, delivery.call.isReadable)) =
        some ("textDocument/hover", some (.text "q"), false) := by
    rw [← hframe]
    decide +kernel
  cases hdelivery : Delivery.ofFrame frame with
  | error fault =>
    rw [hdelivery] at hcall
    cases hcall
  | ok delivery =>
    rw [hdelivery] at hcall
    obtain ⟨hmethod, hid, hreadable⟩ : delivery.call.method = "textDocument/hover" ∧
        delivery.call.id = some (.text "q") ∧ delivery.call.isReadable = false := by
      simpa [Except.toOption] using hcall
    have hrequest : delivery.call.method ∈ requestMethods := by
      rw [hmethod]
      decide
    obtain ⟨reply, hreply, -, hoptions, hfailure⟩ :=
      (@reply_correlates standard _ _ (by decide) hdelivery).1 _ hrequest hid
    obtain ⟨message, rfl⟩ := hfailure.mpr ⟨by rw [hmethod]; decide, hreadable⟩
    obtain ⟨value, hresult, -⟩ | ⟨_, hsame, htext⟩ := hoptions
    · cases hresult
    · cases hsame
      exact ⟨message, hreply, htext⟩

end Session
end TermLint

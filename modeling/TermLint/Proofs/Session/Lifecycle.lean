/-
  TermLint.Proofs.Session.Lifecycle

  The phase of a session after any run.  It is computed from the frames alone: a
  call of `exit` ends the session for good, and before that the last accepted
  request of the lifecycle decides, wherever it stands among other frames.  What a
  session was started with, its linter and its name, never changes.
-/

import TermLint.Proofs.Lsp.Message
import TermLint.Proofs.Session.Refinement
import TermLint.Proofs.Session.Run

namespace TermLint

open Lint (Linter)
open Lsp (Method Message InitializeParams TextDocumentPositionParams CodeActionParams
  DidOpenTextDocumentParams DidChangeTextDocumentParams ServerInfo)
open Rpc (Id Call Delivery)

/-! ## Requests of the lifecycle -/

/-- The call that a frame holds, if it holds one. -/
def callOf? (frame : String) : Option Call :=
  match Delivery.ofFrame frame with
  | .error _ => none
  | .ok delivery => some delivery.call

/-- The phase that an accepted call leads to, if it is one of the lifecycle.  `exit` is always
accepted; a request needs an identifier, and `initialize` needs parameters that can be read. -/
def Rpc.Call.phase? (call : Call) : Option Phase :=
  match call.method, call.id with
  | "exit", _ => some .exited
  | "initialize", some _ => if call.isReadable then some .initialized else none
  | "shutdown", some _ => some .shutDown
  | _, _ => none

/-- The phases that the accepted calls of the lifecycle lead to, in order. -/
def phases (frames : List String) : List Phase :=
  frames.filterMap fun frame => (callOf? frame).bind Call.phase?

/-- The phase that a message leads to. -/
def Lsp.Message.phase? : Message → Option Phase
  | .startup _ _ => some .initialized
  | .shutdown _ => some .shutDown
  | .exit => some .exited
  | _ => none

/-! ## Calls -/

theorem messageOf?_eq_bind (frame : String) :
    messageOf? frame = (callOf? frame).bind fun call => (Message.ofCall call).toOption := by
  unfold messageOf? callOf?
  cases Delivery.ofFrame frame with
  | error fault => rfl
  | ok delivery => rfl

theorem phase?_request {α : Type} (shape : Shape α) (make : Id → α → Message)
    {phase? : Option Phase} (hmake : ∀ id params, (make id params).phase? = phase?) (call : Call) :
    (Message.request shape make call).toOption.bind Message.phase? =
      match call.id with
      | none => none
      | some _ => if (shape.ofValue call.arguments).isOk then phase? else none := by
  rw [Message.request_eq]
  cases call.id with
  | none => rfl
  | some id =>
    cases shape.ofValue call.arguments with
    | error reason => rfl
    | ok params => exact hmake id params

theorem phase?_request_of_none {α : Type} (shape : Shape α) (make : Id → α → Message)
    (hmake : ∀ id params, (make id params).phase? = none) (call : Call) :
    (Message.request shape make call).toOption.bind Message.phase? = none := by
  rw [phase?_request shape make hmake]
  split
  · rfl
  · exact ite_self none

theorem phase?_notification {α : Type} (shape : Shape α) (make : α → Message)
    (hmake : ∀ params, (make params).phase? = none) (call : Call) :
    (Message.notification shape make call).toOption.bind Message.phase? = none := by
  rw [Message.notification_eq]
  cases shape.ofValue call.arguments with
  | error reason => rfl
  | ok params => exact hmake params

theorem phase?_of_ofName?_eq_none {call : Call} (h : Method.ofName? call.method = none) :
    call.phase? = none := by
  unfold Call.phase?
  -- the three names that lead to a phase are names of methods
  split
  · rename_i hmethod
    rw [hmethod] at h
    cases h
  · rename_i hmethod _
    rw [hmethod] at h
    cases h
  · rename_i hmethod _
    rw [hmethod] at h
    cases h
  · rfl

/-- The phase that a call leads to does not depend on how the call is taken. -/
theorem phase?_ofCall (call : Call) :
    (Message.ofCall call).toOption.bind Message.phase? = call.phase? := by
  cases hname : Method.ofName? call.method with
  | none =>
    rw [phase?_of_ofName?_eq_none hname]
    simp only [Message.ofCall, hname]
    rfl
  | some method =>
    obtain ⟨id, jsonrpc, name, params⟩ := call
    -- with the name in its place, both sides can be computed but for identifier and parameters
    have hmethod : method.name = name := Method.name_of_ofName? hname
    subst hmethod
    simp only [Message.ofCall, hname]
    cases method with
    | startup =>
      refine (phase?_request InitializeParams.shape .startup (fun _ _ => rfl) _).trans ?_
      cases id with
      | none => rfl
      | some id => rfl
    | shutdown =>
      cases id with
      | none => rfl
      | some id => rfl
    | hover =>
      exact phase?_request_of_none TextDocumentPositionParams.shape .hover (fun _ _ => rfl) _
    | definition =>
      exact phase?_request_of_none TextDocumentPositionParams.shape .definition (fun _ _ => rfl) _
    | codeAction =>
      exact phase?_request_of_none CodeActionParams.shape .codeAction (fun _ _ => rfl) _
    | completion =>
      exact phase?_request_of_none TextDocumentPositionParams.shape .completion (fun _ _ => rfl) _
    | didOpen => exact phase?_notification DidOpenTextDocumentParams.shape .didOpen (fun _ => rfl) _
    | didChange =>
      exact phase?_notification DidChangeTextDocumentParams.shape .didChange (fun _ => rfl) _
    | initialized => rfl
    | exit => rfl
    | publishDiagnostics => rfl

theorem phase?_eq_exited_iff (call : Call) :
    call.phase? = some .exited ↔ call.method = "exit" := by
  constructor
  · intro h
    unfold Call.phase? at h
    split at h
    · assumption
    · split at h <;> cases h
    · cases h
    · cases h
  · intro h
    simp only [Call.phase?, h]

/-! ## Frames -/

theorem phase?_messageOf? (frame : String) :
    (messageOf? frame).bind Message.phase? = (callOf? frame).bind Call.phase? := by
  rw [messageOf?_eq_bind]
  cases callOf? frame with
  | none => rfl
  | some call => exact phase?_ofCall call

/-- A frame says `exit` exactly when it holds a call of that method. -/
theorem messageOf?_eq_exit_iff (frame : String) :
    messageOf? frame = some .exit ↔
      ∃ delivery, Delivery.ofFrame frame = .ok delivery ∧ delivery.call.method = "exit" := by
  have hphase :
      messageOf? frame = some .exit ↔ (callOf? frame).bind Call.phase? = some .exited := by
    rw [← phase?_messageOf?]
    cases messageOf? frame with
    | none => simp
    | some message => cases message <;> simp [Message.phase?]
  rw [hphase]
  unfold callOf?
  cases Delivery.ofFrame frame with
  | error fault => simp
  | ok delivery => simp [phase?_eq_exited_iff]

/-- The first frame counts only if no later one leads to a phase. -/
theorem getLast?_phases_cons (frame : String) (frames : List String) (phase : Phase) :
    (phases (frame :: frames)).getLast?.getD phase =
      (phases frames).getLast?.getD (((callOf? frame).bind Call.phase?).getD phase) := by
  unfold phases
  rw [List.filterMap_cons]
  cases (callOf? frame).bind Call.phase? with
  | none => rfl
  | some first =>
    simp only [List.getLast?_cons, Option.getD_some]

namespace Session

variable {session : Session}

theorem phase_take (session : Session) (message : Message) :
    (session.take message).session.phase = message.phase?.getD session.phase := by
  cases message <;> rfl

/-- The phase after one frame. -/
theorem phase_step (hactive : session.exited = false) (frame : String) :
    (session.step frame).session.phase =
      ((callOf? frame).bind Call.phase?).getD session.phase := by
  rw [← phase?_messageOf?]
  cases hmessage : messageOf? frame with
  | none =>
    rw [step_of_none hmessage]
    rfl
  | some message =>
    rw [(step_of_message hactive hmessage).1]
    exact session.phase_take message

/-- The phase after frames that do not end the session. -/
theorem phase_run (hactive : session.exited = false) {frames : List String}
    (h : ∀ frame ∈ frames, messageOf? frame ≠ some .exit) :
    (session.run frames).phase = (phases frames).getLast?.getD session.phase := by
  induction frames generalizing session with
  | nil => rfl
  | cons frame frames ih =>
    have hstep := exited_step hactive (h frame List.mem_cons_self)
    rw [run, ih hstep fun f hf => h f (List.mem_cons_of_mem _ hf), phase_step hactive,
      getLast?_phases_cons]

theorem exited_run_iff (hactive : session.exited = false) (frames : List String) :
    (session.run frames).exited = true ↔ ∃ frame ∈ frames, messageOf? frame = some .exit := by
  induction frames generalizing session with
  | nil => simp [run, hactive]
  | cons frame frames ih =>
    rw [run]
    by_cases hexit : messageOf? frame = some .exit
    · have hgone : (session.step frame).session.exited = true := by
        rw [(step_of_message hactive hexit).1]
        rfl
      rw [run_of_exited hgone]
      simp [hgone, hexit]
    · rw [ih (exited_step hactive hexit)]
      simp [hexit]

theorem server_step (frame : String) : (session.step frame).session.server = session.server := by
  cases hactive : session.exited with
  | true => rw [(step_of_exited hactive).1]
  | false =>
    cases hmessage : messageOf? frame with
    | none => rw [step_of_none hmessage]
    | some message =>
      rw [(step_of_message hactive hmessage).1]
      cases message <;> rfl

theorem server_run (frames : List String) : (session.run frames).server = session.server := by
  induction frames generalizing session with
  | nil => rfl
  | cons frame frames ih => exact ih.trans (server_step frame)

/-! ## Runs from the start -/

/-- The phase of a session after any run.  It has ended exactly when some frame holds a call of
`exit`, and then no frame is answered or changes anything any more.  Otherwise the last accepted
request of the lifecycle decides, and a session without one has not begun.  The linter and the name
that it was started with stay. -/
theorem phase_run_start (linter : Linter) (server : ServerInfo) (frames : List String) :
    (((start linter server).run frames).phase = .exited ↔
      ∃ frame ∈ frames, ∃ delivery, Delivery.ofFrame frame = .ok delivery ∧
        delivery.call.method = "exit") ∧
    (((start linter server).run frames).phase ≠ .exited →
      ((start linter server).run frames).phase = (phases frames).getLast?.getD .uninitialized) ∧
    (((start linter server).run frames).phase = .exited → ∀ more,
      ((start linter server).run frames).run more = (start linter server).run frames ∧
        ∀ reply ∈ ((start linter server).run frames).replies more, reply = none) ∧
    ((start linter server).run frames).store.linter = linter ∧
    ((start linter server).run frames).server = server := by
  have hactive : (start linter server).exited = false := rfl
  have hexited : ((start linter server).run frames).phase = .exited ↔
      ((start linter server).run frames).exited = true := beq_iff_eq.symm
  refine ⟨?_, fun h => ?_, fun h more => ?_, linter_run (keyed_start linter server) frames,
    server_run frames⟩
  · rw [hexited, exited_run_iff hactive]
    simp only [messageOf?_eq_exit_iff]
  · rw [ne_eq, hexited, exited_run_iff hactive] at h
    refine phase_run hactive fun frame hmem hexit => h ⟨frame, hmem, hexit⟩
  · have hgone := hexited.mp h
    exact ⟨run_of_exited hgone more, replies_of_exited hgone more⟩

/-- A client that starts again after it asked for the end; one without an identifier is not
accepted, and nothing follows on `exit`. -/
theorem phase_run_start_again :
    ((start Linter.standard ServerInfo.standard).run
        [Frame.encode (.array [.int 1, .string "2.0", .string "shutdown"]),
          Frame.encode (.array [.int 2, .string "2.0", .string "initialize"]),
          Frame.encode (.array [.null, .string "2.0", .string "shutdown"])]).phase =
      .initialized ∧
    (((start Linter.standard ServerInfo.standard).run
        [Frame.encode (.array [.null, .string "2.0", .string "exit"])]).run
        [Frame.encode (.array [.int 2, .string "2.0", .string "initialize"])]).phase = .exited := by
  constructor
  · rw [(phase_run_start Linter.standard ServerInfo.standard _).2.1 (by decide +kernel)]
    decide +kernel
  · have hgone : ((start Linter.standard ServerInfo.standard).run
        [Frame.encode (.array [.null, .string "2.0", .string "exit"])]).phase = .exited := by
      decide +kernel
    rw [((phase_run_start Linter.standard ServerInfo.standard _).2.2.1 hgone _).1]
    exact hgone

end Session
end TermLint

/-
  TermLint.Proofs.Session.Step

  What one frame does to a session.  A frame either says a message or it does not;
  in the second case the session stays as it was.  A message is an edit, which
  writes one document, or it leaves all documents alone.
-/

import TermLint.Proofs.Store
import TermLint.Session

namespace TermLint

open Lint (Linter)
open Lsp (Message ServerInfo)
open Rpc (Delivery)

/-! ## What a frame says -/

/-- The message of a frame, if it holds a call that can be taken. -/
def messageOf? (frame : String) : Option Message :=
  match Delivery.ofFrame frame with
  | .error _ => none
  | .ok delivery => (Message.ofCall delivery.call).toOption

/-- The document that an edit leaves: what is opened, or the last text of a batch of changes, which
is empty when the batch is. -/
def Lsp.Message.edit? : Message → Option Document
  | .didOpen params =>
    some ⟨params.textDocument.uri, params.textDocument.version, params.textDocument.text⟩
  | .didChange params =>
    some ⟨params.textDocument.uri, params.textDocument.version,
      (params.contentChanges.getLast?.map (·.text)).getD ""⟩
  | _ => none

namespace Session

variable {session : Session} {frame : String} {message : Message}

/-! ## Frames without effect -/

/-- After the client has left, no frame changes anything or is answered. -/
theorem step_of_exited (h : session.exited = true) :
    (session.step frame).session = session ∧ (session.step frame).reply = none := by
  unfold step
  split
  · exact ⟨rfl, rfl⟩
  · simp only [answer, h, if_true, and_self]

theorem run_of_exited (h : session.exited = true) (frames : List String) :
    session.run frames = session := by
  induction frames with
  | nil => rfl
  | cons frame frames ih => rw [run, (step_of_exited h).1, ih]

/-- A frame that says no message leaves the session as it was. -/
theorem step_of_none (h : messageOf? frame = none) : (session.step frame).session = session := by
  cases hframe : Delivery.ofFrame frame with
  | error fault => simp only [step, hframe]
  | ok delivery =>
    simp only [messageOf?, hframe] at h
    simp only [step, hframe, answer]
    split
    · rfl
    · cases hcall : Message.ofCall delivery.call with
      | error refusal => rfl
      | ok message =>
        rw [hcall] at h
        cases h

/-! ## Messages -/

/-- A frame that says a message does what the message asks for. -/
theorem step_of_message (hactive : session.exited = false) (h : messageOf? frame = some message) :
    (session.step frame).session = (session.take message).session ∧
      (session.step frame).reply = (session.take message).reply := by
  cases hframe : Delivery.ofFrame frame with
  | error fault =>
    simp only [messageOf?, hframe] at h
    cases h
  | ok delivery =>
    simp only [messageOf?, hframe] at h
    cases hcall : Message.ofCall delivery.call with
    | error refusal =>
      rw [hcall] at h
      cases h
    | ok found =>
      rw [hcall] at h
      cases h
      simp only [step, hframe, answer, hactive, hcall, Bool.false_eq_true, if_false, and_self]

/-- An edit writes its document and is answered with the findings in the text that it leaves. -/
theorem take_of_edit {document : Document} (hkeyed : session.store.Keyed)
    (h : message.edit? = some document) :
    (session.take message).session =
        { session with
          store := (session.store.put document.uri document.version document.text).1 } ∧
      (session.take message).reply =
        some (publish document.uri document.version (session.store.linter.scan document.text)) := by
  cases message with
  | didOpen params =>
    cases h
    exact ⟨rfl, rfl⟩
  | didChange params =>
    cases h
    -- a change writes and reports what opening the document with the last text would
    constructor
    · simp only [take, Store.change_eq_put hkeyed, Store.textAfter_eq]
    · simp only [take, Store.change_eq_put hkeyed, Store.textAfter_eq]
      rfl
  | _ => cases h

/-- A message that is no edit leaves all documents alone. -/
theorem store_take_of_none (h : message.edit? = none) :
    (session.take message).session.store = session.store := by
  cases message with
  | didOpen params => cases h
  | didChange params => cases h
  | _ => rfl

/-- Only `exit` ends a session. -/
theorem exited_take (hactive : session.exited = false) (h : message ≠ .exit) :
    (session.take message).session.exited = false := by
  cases message with
  | exit => exact absurd rfl h
  | startup id params => rfl
  | shutdown id => rfl
  | _ => exact hactive

/-! ## One step -/

theorem exited_step (hactive : session.exited = false) (h : messageOf? frame ≠ some .exit) :
    (session.step frame).session.exited = false := by
  cases hmessage : messageOf? frame with
  | none => rw [step_of_none hmessage, hactive]
  | some message =>
    rw [(step_of_message hactive hmessage).1]
    exact exited_take hactive fun heq => h (by rw [hmessage, heq])

/-- What one frame does to the documents of a session that goes on. -/
theorem store_step (hactive : session.exited = false) (hkeyed : session.store.Keyed) :
    (session.step frame).session.store =
      match (messageOf? frame).bind Message.edit? with
      | none => session.store
      | some document =>
        (session.store.put document.uri document.version document.text).1 := by
  cases hmessage : messageOf? frame with
  | none =>
    rw [step_of_none hmessage]
    rfl
  | some message =>
    rw [(step_of_message hactive hmessage).1, Option.bind_some]
    cases hedit : message.edit? with
    | none => exact store_take_of_none hedit
    | some document => rw [(take_of_edit hkeyed hedit).1]

end Session
end TermLint

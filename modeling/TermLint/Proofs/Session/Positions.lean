/-
  TermLint.Proofs.Session.Positions

  Positions over a whole session.  Every text that a session keeps came with a frame
  and is smaller than the greatest body; every range that it sends was found in such
  a text; so each range is where the editor will look for it, and no number in it is
  clamped.
-/

import TermLint.Proofs.Lint.Range
import TermLint.Proofs.Lsp.Extent
import TermLint.Proofs.Session.Refinement
import TermLint.Settings.Basic

namespace TermLint

open Lint (Linter)
open Lsp (Message Diagnostic CodeAction PublishDiagnosticsParams)
open Rpc (Reply Delivery)

/-! ## Documents -/

/-- The last edit of a document is one of the edits that the frames say. -/
theorem exists_of_lastEdit {frames : List String} {uri : String} {document : Document}
    (h : lastEdit frames uri = some document) :
    ∃ frame message, messageOf? frame = some message ∧ message.edit? = some document := by
  have hmem : document ∈ acceptedEdits frames := List.mem_of_mem_filter (List.mem_of_getLast? h)
  obtain ⟨frame, -, hedit⟩ := List.mem_filterMap.mp hmem
  obtain ⟨message, hmessage, hedit⟩ := Option.bind_eq_some_iff.mp hedit
  exact ⟨frame, message, hmessage, hedit⟩

namespace Session

variable {session : Session} {frame : String}

/-- Every text that a session keeps is smaller than the greatest body. -/
theorem size_lt_of_get?_run {linter : Linter} {server : Lsp.ServerInfo} {frames : List String}
    {uri : String} {document : Document}
    (h : ((start linter server).run frames).store.get? uri = some document) :
    document.text.utf8ByteSize < 4194304 := by
  rw [get?_run] at h
  obtain ⟨frame, message, hmessage, hedit⟩ := exists_of_lastEdit h
  exact size_lt_of_edit hmessage hedit

/-! ## Replies -/

/-- A frame that says no message is not answered with a notification. -/
theorem reply_ne_notification_of_none (h : messageOf? frame = none) (method : String)
    (params : Value) : (session.step frame).reply ≠ some (.notification method params) := by
  intro hreply
  cases hframe : Delivery.ofFrame frame with
  | error fault =>
    simp only [step, hframe] at hreply
    cases hreply
  | ok delivery =>
    simp only [messageOf?, hframe] at h
    simp only [step, hframe, answer] at hreply
    split at hreply
    · cases hreply
    · cases hcall : Message.ofCall delivery.call with
      | ok message =>
        rw [hcall] at h
        cases h
      | error refusal =>
        simp only [hcall, Option.map_eq_some_iff] at hreply
        obtain ⟨id, -, hfailure⟩ := hreply
        cases hfailure

/-- Only edits are answered with a notification. -/
theorem edit_of_take {message : Message} {method : String} {params : Value}
    (h : (session.take message).reply = some (.notification method params)) :
    ∃ document, message.edit? = some document := by
  cases message with
  | didOpen opened => exact ⟨_, rfl⟩
  | didChange changed => exact ⟨_, rfl⟩
  | _ => cases h

/-- What a notification publishes: the findings in the document that an edit has left. -/
theorem publish_of_notification (hkeyed : session.store.Keyed) {method : String} {params : Value}
    (h : (session.step frame).reply = some (.notification method params)) :
    ∃ document message, messageOf? frame = some message ∧ message.edit? = some document ∧
      (session.step frame).session.store.get? document.uri = some document ∧
      params = PublishDiagnosticsParams.shape.toValue
        ⟨document.uri, some document.version, session.store.linter.scan document.text⟩ := by
  have hactive : session.exited = false := by
    cases hexited : session.exited with
    | false => rfl
    | true =>
      rw [(step_of_exited hexited).2] at h
      cases h
  cases hmessage : messageOf? frame with
  | none => exact absurd h (reply_ne_notification_of_none hmessage method params)
  | some message =>
    obtain ⟨hsession, hreply⟩ := step_of_message hactive hmessage
    rw [hreply] at h
    obtain ⟨document, hedit⟩ := edit_of_take h
    obtain ⟨hstore, hpublish⟩ := take_of_edit hkeyed hedit
    rw [hpublish] at h
    refine ⟨document, message, rfl, hedit, ?_, ?_⟩
    · rw [hsession, hstore]
      simp only [Store.get?_put, if_true]
    · cases h
      rfl

/-- What a request for actions is answered with: the actions for the document that is kept. -/
theorem actions_of_reply {id : Rpc.Id} {params : Lsp.CodeActionParams} {reply : Reply}
    (hmessage : messageOf? frame = some (.codeAction id params))
    (h : (session.step frame).reply = some reply) :
    reply =
      .result id (CodeAction.shape.list.toValue (session.actions params.textDocument.uri)) := by
  cases hexited : session.exited with
  | true =>
    rw [(step_of_exited hexited).2] at h
    cases h
  | false =>
    rw [(step_of_message hexited hmessage).2] at h
    exact (Option.some.inj h).symm

end Session

/-! ## Positions on the wire -/

end TermLint

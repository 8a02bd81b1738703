/-
  TermLint.Proofs.Session.Refinement

  A session as a map from URIs to the last edit.  The abstract side is computed from
  the frames alone: those before the first `exit`, the edits among them, and for
  each URI the last edit that names it.  After every run the documents of the
  session are exactly these, and each text that is sent about a document is the one
  for that edit.
-/

import TermLint.Proofs.Rpc.Reply
import TermLint.Proofs.Session.Step

namespace TermLint

open Lint (Linter)
open Lsp (Message ServerInfo Hover CodeAction PublishDiagnosticsParams)
open Rpc (Reply answerText noticeText)

/-! ## The abstract map -/

/-- The frames that come before the first `exit`. -/
def beforeExit (frames : List String) : List String :=
  frames.takeWhile fun frame => messageOf? frame ≠ some .exit

/-- The documents that the accepted edits leave, in order. -/
def acceptedEdits (frames : List String) : List Document :=
  (beforeExit frames).filterMap fun frame => (messageOf? frame).bind Message.edit?

/-- The last accepted edit that names a URI. -/
def lastEdit (frames : List String) (uri : String) : Option Document :=
  ((acceptedEdits frames).filter fun document => document.uri = uri).getLast?

theorem lastEdit_exit {frame : String} (frames : List String) (uri : String)
    (h : messageOf? frame = some .exit) : lastEdit (frame :: frames) uri = none := by
  rw [lastEdit, acceptedEdits, beforeExit, List.takeWhile_cons_of_neg (by simp [h])]
  rfl

/-- The first frame counts for a URI only if no later edit names it. -/
theorem lastEdit_cons {frame : String} (frames : List String) (uri : String)
    (h : messageOf? frame ≠ some .exit) :
    lastEdit (frame :: frames) uri =
      (lastEdit frames uri).or
        (((messageOf? frame).bind Message.edit?).filter fun document => document.uri = uri) := by
  have hbefore : beforeExit (frame :: frames) = frame :: beforeExit frames :=
    List.takeWhile_cons_of_pos (by simpa using h)
  simp only [lastEdit, acceptedEdits, hbefore, List.filterMap_cons]
  cases hedit : (messageOf? frame).bind Message.edit? with
  | none => rw [Option.filter_none, Option.or_none]
  | some document =>
    simp only [List.filter_cons, Option.filter_some, decide_eq_true_eq]
    -- an edit of another document does not count; one of this document counts if it is the last
    by_cases huri : document.uri = uri
    · rw [if_pos huri, if_pos huri, List.getLast?_cons]
      cases List.getLast? _ with
      | none => rfl
      | some last => rfl
    · rw [if_neg huri, if_neg huri, Option.or_none]

namespace Session

variable {session : Session}

/-! ## Runs -/

theorem exited_run (hactive : session.exited = false) {frames : List String}
    (h : ∀ frame ∈ frames, messageOf? frame ≠ some .exit) :
    (session.run frames).exited = false := by
  induction frames generalizing session with
  | nil => exact hactive
  | cons frame frames ih =>
    exact ih (exited_step hactive (h frame List.mem_cons_self))
      fun f hf => h f (List.mem_cons_of_mem _ hf)

theorem keyed_step {frame : String} (hkeyed : session.store.Keyed) :
    (session.step frame).session.store.Keyed := by
  cases hactive : session.exited with
  | true => rw [(step_of_exited hactive).1]; exact hkeyed
  | false =>
    rw [store_step hactive hkeyed]
    split
    · exact hkeyed
    · exact Store.keyed_put hkeyed _ _ _

theorem keyed_run (hkeyed : session.store.Keyed) (frames : List String) :
    (session.run frames).store.Keyed := by
  induction frames generalizing session with
  | nil => exact hkeyed
  | cons frame frames ih => exact ih (keyed_step hkeyed)

theorem linter_step {frame : String} (hkeyed : session.store.Keyed) :
    (session.step frame).session.store.linter = session.store.linter := by
  cases hactive : session.exited with
  | true => rw [(step_of_exited hactive).1]
  | false =>
    rw [store_step hactive hkeyed]
    split
    · rfl
    · exact Store.linter_put _ _ _ _

theorem linter_run (hkeyed : session.store.Keyed) (frames : List String) :
    (session.run frames).store.linter = session.store.linter := by
  induction frames generalizing session with
  | nil => rfl
  | cons frame frames ih => exact (ih (keyed_step hkeyed)).trans (linter_step hkeyed)

/-- After a run the document at a URI is the one that the last edit left, or the one that was there
before the run. -/
theorem get?_run_of_active (hactive : session.exited = false) (hkeyed : session.store.Keyed)
    (frames : List String) (uri : String) :
    (session.run frames).store.get? uri = (lastEdit frames uri).or (session.store.get? uri) := by
  induction frames generalizing session with
  | nil => rfl
  | cons frame frames ih =>
    rw [run]
    by_cases hexit : messageOf? frame = some .exit
    · -- the frame that ends the session changes no document, and no frame after it counts
      have htake := step_of_message hactive hexit
      have hgone : (session.step frame).session.exited = true := by rw [htake.1]; rfl
      rw [run_of_exited hgone, htake.1, lastEdit_exit frames uri hexit]
      rfl
    · rw [ih (exited_step hactive hexit) (keyed_step hkeyed), lastEdit_cons frames uri hexit,
        store_step hactive hkeyed, Option.or_assoc]
      congr 1
      -- what is left to compare is the first frame alone: a write to the store, and an edit
      cases hedit : (messageOf? frame).bind Message.edit? with
      | none => rfl
      | some document =>
        simp only [Store.get?_put, Option.filter_some, decide_eq_true_eq]
        by_cases huri : document.uri = uri
        · rw [if_pos huri, if_pos huri]
          rfl
        · rw [if_neg huri, if_neg huri]
          rfl

theorem keyed_start (linter : Linter) (server : ServerInfo) :
    (start linter server).store.Keyed :=
  Store.keyed_empty linter

/-- The documents of a session are the last accepted edits. -/
theorem get?_run (linter : Linter) (server : ServerInfo) (frames : List String) (uri : String) :
    ((start linter server).run frames).store.get? uri = lastEdit frames uri := by
  rw [get?_run_of_active rfl (keyed_start linter server), start, Store.get?_empty, Option.or_none]

theorem text?_run (linter : Linter) (server : ServerInfo) (frames : List String) (uri : String) :
    ((start linter server).run frames).store.text? uri = (lastEdit frames uri).map (·.text) := by
  rw [Store.text?, get?_run]

/-! ## Replies -/

section Replies

variable {linter : Linter} {server : ServerInfo} {before : List String} {frame : String}

theorem reply_of_edit {message : Message} {document : Document}
    (hbefore : ∀ f ∈ before, messageOf? f ≠ some .exit) (hmessage : messageOf? frame = some message)
    (hedit : message.edit? = some document) :
    (((start linter server).run before).step frame).session.store.get? document.uri =
        some document ∧
      (((start linter server).run before).step frame).reply =
        some (publish document.uri document.version (linter.scan document.text)) := by
  have hactive : ((start linter server).run before).exited = false := exited_run rfl hbefore
  have hkeyed := keyed_run (keyed_start linter server) before
  have hlinter := linter_run (keyed_start linter server) before
  obtain ⟨hsession, hreply⟩ := step_of_message hactive hmessage
  obtain ⟨hstore, hpublish⟩ := take_of_edit hkeyed hedit
  constructor
  · rw [hsession, hstore]
    simp only [Store.get?_put, if_true]
  · rw [hreply, hpublish, hlinter]
    rfl

theorem reply_of_hover {id : Rpc.Id} {params : Lsp.TextDocumentPositionParams}
    (hbefore : ∀ f ∈ before, messageOf? f ≠ some .exit)
    (h : messageOf? frame = some (.hover id params)) :
    (((start linter server).run before).step frame).reply =
      some (.result id (Hover.shape.toValue
        (((start linter server).run before).hover params.textDocument.uri))) :=
  (step_of_message (exited_run rfl hbefore) h).2

theorem reply_of_codeAction {id : Rpc.Id} {params : Lsp.CodeActionParams}
    (hbefore : ∀ f ∈ before, messageOf? f ≠ some .exit)
    (h : messageOf? frame = some (.codeAction id params)) :
    (((start linter server).run before).step frame).reply =
      some (.result id (CodeAction.shape.list.toValue
        (((start linter server).run before).actions params.textDocument.uri))) :=
  (step_of_message (exited_run rfl hbefore) h).2

end Replies

/-- A session refines the map from URIs to the last accepted edit.  After every run the documents
are those of the map.  And before the client leaves, what is sent for an edit is a notice with the
findings in the text that it leaves; for a request for a hover text, an answer with the length of
the text in the map; and for a request for actions, an answer with the actions for that text. -/
theorem refines_lastEdit (linter : Linter) (server : ServerInfo) :
    (∀ frames uri, ((start linter server).run frames).store.get? uri = lastEdit frames uri) ∧
    ∀ before frame, (∀ f ∈ before, messageOf? f ≠ some .exit) →
      (∀ message document, messageOf? frame = some message → message.edit? = some document →
        (((start linter server).run before).step frame).session.store.get? document.uri =
            some document ∧
          (((start linter server).run before).step frame).reply.map Reply.frame =
            some (noticeText "textDocument/publishDiagnostics"
              (PublishDiagnosticsParams.shape.toValue
                ⟨document.uri, some document.version, linter.scan document.text⟩))) ∧
      (∀ id params, messageOf? frame = some (.hover id params) →
        (((start linter server).run before).step frame).reply.map Reply.frame =
          some (answerText id "result" (.object [("contents",
            .string ("File: " ++ params.textDocument.uri ++ ", Characters: " ++
              toString ((lastEdit before params.textDocument.uri).elim 0
                fun document => Text.units document.text.toList)))]))) ∧
      ∀ id params, messageOf? frame = some (.codeAction id params) →
        (((start linter server).run before).step frame).reply.map Reply.frame =
          some (answerText id "result" (CodeAction.shape.list.toValue
            ((lastEdit before params.textDocument.uri).elim []
              fun document => linter.actions document.text params.textDocument.uri))) := by
  refine ⟨get?_run linter server, fun before frame hbefore => ⟨?_, ?_, ?_⟩⟩
  · intro message document hmessage hedit
    obtain ⟨hget, hreply⟩ := reply_of_edit hbefore hmessage hedit
    refine ⟨hget, ?_⟩
    rw [hreply, Option.map_some, Reply.frame_eq]
    rfl
  · intro id params h
    rw [reply_of_hover hbefore h, Option.map_some, Reply.frame_eq, Session.hover, text?_run]
    cases lastEdit before params.textDocument.uri with
    | none => rfl
    | some document => rfl
  · intro id params h
    rw [reply_of_codeAction hbefore h, Option.map_some, Reply.frame_eq, Session.actions, text?_run,
      linter_run (keyed_start linter server)]
    cases lastEdit before params.textDocument.uri with
    | none => rfl
    | some document => rfl

/-- A frame that changes the document `a` twice in one batch. -/
def batchFrame : String :=
  Frame.encode (.array [.null, .string "2.0", .string "textDocument/didChange",
    .array [.array [.string "a", .int 2],
      .array [.array [.null, .null, .string "xyz"], .array [.null, .null, .string "😀"]]]])

/-- A frame that asks for the hover text of the document `a`. -/
def hoverFrame : String :=
  Frame.encode (.array [.int 7, .string "2.0", .string "textDocument/hover",
    .array [.array [.string "a"], .array [.int 0, .int 0]]])

/-- A document that was not opened is changed twice in one batch and asked about; its text has two
code units in UTF-16. -/
theorem refines_lastEdit_changed :
    ((start Linter.standard ServerInfo.standard).step batchFrame).reply.map Reply.frame =
      some ("Content-Length: 110\r\n\r\n\x7b\"jsonrpc\":\"2.0\"," ++
        "\"method\":\"textDocument/publishDiagnostics\"," ++
        "\"params\":\x7b\"diagnostics\":[],\"uri\":\"a\",\"version\":2\x7d\x7d") ∧
    (((start Linter.standard ServerInfo.standard).run [batchFrame]).step
        hoverFrame).reply.map Reply.frame =
      some ("Content-Length: 71\r\n\r\n\x7b\"jsonrpc\":\"2.0\",\"id\":7," ++
        "\"result\":\x7b\"contents\":\"File: a, Characters: 2\"\x7d\x7d") := by
  have hbatch : messageOf? batchFrame =
      some (.didChange ⟨⟨"a", 2⟩, [⟨none, none, "xyz"⟩, ⟨none, none, "😀"⟩]⟩) := by
    decide +kernel
  have hhover : messageOf? hoverFrame = some (.hover (.number 7) ⟨⟨"a"⟩, ⟨0, 0⟩⟩) := by
    decide +kernel
  have hgoes : messageOf? batchFrame ≠ some .exit := by simp [hbatch]
  have hlast : lastEdit [batchFrame] "a" = some ⟨"a", 2, "😀"⟩ := by
    rw [lastEdit_cons [] "a" hgoes, hbatch]
    rfl
  constructor
  · refine (((refines_lastEdit _ _).2 [] batchFrame (by simp)).1 _ _ hbatch rfl).2.trans ?_
    decide +kernel
  · rw [((refines_lastEdit _ _).2 [batchFrame] _ (by simpa using hgoes)).2.1 _ _ hhover, hlast]
    decide +kernel

end Session
end TermLint

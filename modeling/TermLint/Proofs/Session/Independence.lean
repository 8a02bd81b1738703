/-
  TermLint.Proofs.Session.Independence

  What the frames of a run do not have to do with each other.  An inert frame asks
  for something, or cannot be used at all; no other frame of the run can tell
  whether it was there.  Edits of different documents do not see each other either,
  so that two of them can change places.
-/

import TermLint.Proofs.Session.Run

namespace TermLint

open Lsp (Message Refusal)
open Rpc (Delivery)

/-! ## Inert frames -/

/-- A message that a session answers, or takes note of, and nothing more. -/
def Lsp.Message.isPassive : Message → Bool
  | .initialized => true
  | .publishDiagnostics => true
  | .unknown _ _ => true
  | .hover _ _ => true
  | .definition _ _ => true
  | .codeAction _ _ => true
  | .completion _ _ => true
  | _ => false

/-- A frame without effect on what comes after it. -/
inductive Inert (frame : String) : Prop where
  /-- The frame holds no call. -/
  | unreadable (fault : Frame.Fault) (h : Delivery.ofFrame frame = .error fault)
  /-- The call has no identifier, or parameters that cannot be read. -/
  | refused (delivery : Delivery) (refusal : Refusal) (h : Delivery.ofFrame frame = .ok delivery)
      (hcall : Message.ofCall delivery.call = .error refusal)
  | passive (delivery : Delivery) (message : Message) (h : Delivery.ofFrame frame = .ok delivery)
      (hcall : Message.ofCall delivery.call = .ok message) (hpassive : message.isPassive = true)

/-- A frame is inert exactly when every message that it says is passive. -/
theorem inert_iff (frame : String) :
    Inert frame ↔ (messageOf? frame).all Message.isPassive = true := by
  unfold messageOf?
  constructor
  · intro h
    cases h with
    | unreadable fault h => rw [h]; rfl
    | refused delivery refusal h hcall => simp only [h, hcall]; rfl
    | passive delivery message h hcall hpassive => simp only [h, hcall]; exact hpassive
  · intro h
    cases hframe : Delivery.ofFrame frame with
    | error fault => exact .unreadable fault hframe
    | ok delivery =>
      simp only [hframe] at h
      cases hcall : Message.ofCall delivery.call with
      | error refusal => exact .refused delivery refusal hframe hcall
      | ok message =>
        rw [hcall] at h
        exact .passive delivery message hframe hcall h

instance (frame : String) : Decidable (Inert frame) :=
  decidable_of_iff' _ (inert_iff frame)

namespace Session

variable {session : Session}

theorem session_take_of_isPassive {message : Message} (h : message.isPassive = true) :
    (session.take message).session = session := by
  cases message with
  | startup id params => cases h
  | shutdown id => cases h
  | exit => cases h
  | didOpen params => cases h
  | didChange params => cases h
  | _ => rfl

/-- An inert frame leaves a session as it was. -/
theorem session_step_of_inert {frame : String} (h : Inert frame) :
    (session.step frame).session = session := by
  rw [inert_iff] at h
  cases hmessage : messageOf? frame with
  | none => exact step_of_none hmessage
  | some message =>
    rw [hmessage, Option.all_some] at h
    cases hactive : session.exited with
    | true => exact (step_of_exited hactive).1
    | false =>
      rw [(step_of_message hactive hmessage).1]
      exact session_take_of_isPassive h

/-! ## Edits -/

/-- A session with one document written. -/
def write (session : Session) (document : Document) (key : String) : Session :=
  { session with
    store := { session.store with documents := session.store.documents.insert key document } }

/-- What an edit does in any session: it writes one document, for which it looks at that document
only, and is answered with the findings in the text that it leaves. -/
theorem take_edit {message : Message} {edit : Document} (h : message.edit? = some edit) :
    ∃ next : Option Document → Document, ∀ session : Session,
      (session.take message).session =
          session.write (next (session.store.get? edit.uri)) edit.uri ∧
        (session.take message).reply =
          some (publish edit.uri edit.version (session.store.linter.scan edit.text)) := by
  cases message with
  | didOpen params =>
    cases h
    exact ⟨fun _ => _, fun session => ⟨rfl, rfl⟩⟩
  | didChange params =>
    cases h
    rw [← Store.textAfter_eq]
    exact ⟨fun old => { old.getD ⟨params.textDocument.uri, params.textDocument.version, ""⟩ with
      version := params.textDocument.version
      text := Store.textAfter params.contentChanges }, fun session => ⟨rfl, rfl⟩⟩
  | _ => cases h

/-- The same for the frame of an edit. -/
theorem step_edit {frame : String} {edit : Document}
    (h : (messageOf? frame).bind Message.edit? = some edit) :
    ∃ next : Option Document → Document, ∀ session : Session, session.exited = false →
      (session.step frame).session =
          session.write (next (session.store.get? edit.uri)) edit.uri ∧
        (session.step frame).reply =
          some (publish edit.uri edit.version (session.store.linter.scan edit.text)) := by
  obtain ⟨message, hmessage, hedit⟩ := Option.bind_eq_some_iff.mp h
  obtain ⟨next, htake⟩ := take_edit hedit
  refine ⟨next, fun session hactive => ?_⟩
  rw [(step_of_message hactive hmessage).1, (step_of_message hactive hmessage).2]
  exact htake session

theorem get?_write_of_ne {document : Document} {key other : String} (h : key ≠ other) :
    (session.write document key).store.get? other = session.store.get? other := by
  rw [write, Store.get?, Dict.get?_insert, if_neg h]
  rfl

theorem write_comm {a b : Document} {key other : String} (h : key ≠ other) :
    (session.write a key).write b other = (session.write b other).write a key := by
  simp only [write, Dict.insert_comm _ a b h]

/-- Two edits of different documents lead to the same session in either order, and neither reply
depends on the order. -/
theorem step_step_edits {f g : String} {a b : Document}
    (hf : (messageOf? f).bind Message.edit? = some a)
    (hg : (messageOf? g).bind Message.edit? = some b) (hne : a.uri ≠ b.uri) :
    ((session.step f).session.step g).session = ((session.step g).session.step f).session ∧
      ((session.step g).session.step f).reply = (session.step f).reply ∧
      ((session.step f).session.step g).reply = (session.step g).reply := by
  cases hactive : session.exited with
  | true =>
    -- neither of the two does anything any more
    have hstep : ∀ frame, (session.step frame).session = session := fun _ =>
      (step_of_exited hactive).1
    simp only [hstep, and_self]
  | false =>
    obtain ⟨nextF, hf⟩ := step_edit hf
    obtain ⟨nextG, hg⟩ := step_edit hg
    have hactive' : ∀ document key, (session.write document key).exited = false := fun _ _ =>
      hactive
    rw [(hf session hactive).1, (hg session hactive).1, (hf session hactive).2,
      (hg session hactive).2, (hg _ (hactive' _ _)).1, (hf _ (hactive' _ _)).1,
      (hg _ (hactive' _ _)).2, (hf _ (hactive' _ _)).2, get?_write_of_ne hne,
      get?_write_of_ne hne.symm]
    exact ⟨write_comm hne, rfl, rfl⟩

/-! ## Runs -/

/-- Frames of a run that do not depend on each other.  An inert frame can be left out: the run ends
in the same session, and every other frame is answered as before.  Two edits of different documents
that follow one another can change places: the run ends in the same session, and every frame is
answered as before. -/
theorem run_independent (session : Session) (xs ys : List String) :
    (∀ frame, Inert frame →
      session.run (xs ++ [frame] ++ ys) = session.run (xs ++ ys) ∧
        ∃ before reply after, before.length = xs.length ∧
          session.replies (xs ++ [frame] ++ ys) = before ++ [reply] ++ after ∧
          session.replies (xs ++ ys) = before ++ after) ∧
    ∀ f g a b, (messageOf? f).bind Message.edit? = some a →
      (messageOf? g).bind Message.edit? = some b → a.uri ≠ b.uri →
      session.run (xs ++ [f, g] ++ ys) = session.run (xs ++ [g, f] ++ ys) ∧
        ∃ before replyF replyG after, before.length = xs.length ∧
          session.replies (xs ++ [f, g] ++ ys) = before ++ [replyF, replyG] ++ after ∧
          session.replies (xs ++ [g, f] ++ ys) = before ++ [replyG, replyF] ++ after := by
  constructor
  · intro frame hinert
    have hrun : (session.run xs).run [frame] = session.run xs := session_step_of_inert hinert
    refine ⟨?_, session.replies xs, ((session.run xs).step frame).reply,
      (session.run xs).replies ys, length_replies xs, ?_, replies_append xs ys⟩
    · rw [run_append, run_append, run_append, hrun]
    · rw [replies_append, replies_append, run_append, hrun]
      rfl
  · intro f g a b hf hg hne
    obtain ⟨hsession, hreplyF, hreplyG⟩ :=
      @step_step_edits (session.run xs) f g a b hf hg hne
    have hrun : (session.run xs).run [f, g] = (session.run xs).run [g, f] := hsession
    refine ⟨?_, session.replies xs, ((session.run xs).step f).reply,
      ((session.run xs).step g).reply, ((session.run xs).run [g, f]).replies ys,
      length_replies xs, ?_, ?_⟩
    · rw [run_append, run_append, hrun, run_append, run_append]
    · rw [replies_append, replies_append, run_append, hrun, ← hreplyG]
      rfl
    · rw [replies_append, replies_append, run_append, ← hreplyF]
      rfl

/-- A request without an identifier between two edits of different documents, which can then change
places. -/
theorem run_independent_edits :
    standard.run ([Frame.encode (.array [.null, .string "2.0", .string "textDocument/didOpen",
          .array [.array [.string "a", .string "text", .int 1, .string "x"]]])] ++
        [Frame.encode (.array [.null, .string "2.0", .string "textDocument/hover"])] ++
        [Frame.encode (.array [.null, .string "2.0", .string "textDocument/didChange",
          .array [.array [.string "b", .int 2], .array []]])]) =
      standard.run ([] ++
        [Frame.encode (.array [.null, .string "2.0", .string "textDocument/didChange",
            .array [.array [.string "b", .int 2], .array []]]),
          Frame.encode (.array [.null, .string "2.0", .string "textDocument/didOpen",
            .array [.array [.string "a", .string "text", .int 1, .string "x"]]])] ++ []) := by
  have hopen : (messageOf? (Frame.encode (.array [.null, .string "2.0",
      .string "textDocument/didOpen",
      .array [.array [.string "a", .string "text", .int 1, .string "x"]]]))).bind Message.edit? =
      some ⟨"a", 1, "x"⟩ := by
    decide +kernel
  have hchange : (messageOf? (Frame.encode (.array [.null, .string "2.0",
      .string "textDocument/didChange", .array [.array [.string "b", .int 2], .array []]]))).bind
      Message.edit? = some ⟨"b", 2, ""⟩ := by
    decide +kernel
  have hinert : Inert (Frame.encode (.array [.null, .string "2.0",
      .string "textDocument/hover"])) := by
    decide +kernel
  refine ((run_independent standard _ _).1 _ hinert).1.trans ?_
  exact ((run_independent standard [] []).2 _ _ _ _ hopen hchange (by decide)).1

end Session
end TermLint

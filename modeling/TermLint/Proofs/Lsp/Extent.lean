/-
  TermLint.Proofs.Lsp.Extent

  The size of the documents that a frame can bring.  A body has a greatest length,
  the parameters of a call are a part of the body, and the text of an edit is one of
  the strings in the parameters; so the text is smaller than the greatest body,
  whatever is escaped in it and whatever else the body holds.
-/

import TermLint.Proofs.Frame.Canonical
import TermLint.Proofs.Json.Extent
import TermLint.Proofs.Lsp.Message
import TermLint.Proofs.Session.Step
import TermLint.Proofs.Shape.Origin

namespace TermLint

open Lsp (Message Method DidOpenTextDocumentParams DidChangeTextDocumentParams TextDocumentItem
  TextDocumentContentChangeEvent)
open Rpc (Id Call Delivery)
open Shape (Field Fields)

/-! ## Calls -/

/-- The parameters of a call are within the body that held it. -/
theorem Rpc.Call.within_params {body : String} {call : Call}
    (h : Call.shape.parse body = .ok call) : call.params.Within body.utf8ByteSize := by
  have hfields : Call.fields.Trim :=
    ⟨(Shape.trims_judged _ _).optional, Shape.trims_string, Shape.trims_string,
      Shape.trims_judged _ _, trivial⟩
  rw [Shape.parse, Json.whole] at h
  split at h
  · cases h
  · rename_i call' rest hread
    split at h
    · cases h
      obtain ⟨inner, ⟨id, jsonrpc, method, params, ⟨⟩⟩, heach, rfl⟩ :=
        Shape.each_of_read hfields hread
      obtain ⟨-, -, -, hparams, -⟩ := heach
      -- the parameters are missing, or they were read from a part of the body
      rcases hparams with habsent | hvacant | ⟨t, left, ht, hrun⟩
      · cases habsent
        exact .null
      · cases hvacant
        exact .null
      · have hcheck : ((Json.tree inner).check fun v => Shape.inText (.ok v.canonical)).run t =
            .ok (params, left) := hrun
        obtain ⟨v, htree, hcanonical⟩ := Shape.check_eq_ok hcheck
        have hwithin := ((Json.confined_tree _).within htree).canonical
        rw [← Except.ok.inj hcanonical, Text.utf8ByteSize_eq]
        exact hwithin.mono (Text.byteCount_le_of_suffix ht)
    · cases h

theorem Rpc.Call.within_arguments {call : Call} {n : Nat} (h : call.params.Within n) :
    call.arguments.Within n := by
  unfold arguments
  split
  · exact .object fun field hmem => (by cases hmem)
  · exact h

/-- The parameters of a call that a frame delivers. -/
theorem Rpc.Delivery.within_arguments {frame : String} {delivery : Delivery}
    (h : Delivery.ofFrame frame = .ok delivery) :
    delivery.call.arguments.Within Frame.maxLength := by
  unfold Delivery.ofFrame at h
  split at h
  · cases h
  · rename_i length body hsplit
    obtain ⟨header, -, -, -, hfits, -⟩ := Frame.split_eq_ok hsplit
    split at h
    · cases h
    · rename_i call hparse
      cases h
      exact Call.within_arguments ((Call.within_params hparse).mono hfits)

/-! ## Parameters -/

variable {n : Nat} {v : Value}

theorem Value.Within.parts (h : v.Within n) : ∀ part ∈ v.parts, part.Within n := by
  cases h with
  | array h => exact h
  | object h =>
    intro part hmem
    obtain ⟨field, hfield, rfl⟩ := List.mem_map.mp hmem
    exact h field hfield
  | _ => exact fun part hmem => (by cases hmem)

theorem Value.Within.size_of_string {text : String} (h : v.Within n)
    (hdecode : Shape.string.decode v = .ok text) : text.utf8ByteSize + 2 ≤ n := by
  simp only [Shape.string] at hdecode
  split at hdecode
  · cases hdecode
    cases h with
    | string hsize => exact hsize
  · cases hdecode

/-- A field that must be there was decoded from a part of the data. -/
theorem Shape.Field.of_required {α : Type} {name : String} {shape : Shape α} {parts : List Value}
    {a : α}
    (h : (Field.required name shape).absent = some a ∨ (Field.required name shape).vacant = some a ∨
      Fields.decodedFrom parts (Field.required name shape) a) :
    ∃ part ∈ parts, shape.decode part = .ok a := by
  rcases h with habsent | hvacant | hdecoded
  · cases habsent
  · cases hvacant
  · exact hdecoded

theorem size_of_textDocumentItem {item : TextDocumentItem} (h : v.Within n)
    (hdecode : TextDocumentItem.shape.decode v = .ok item) : item.text.utf8ByteSize + 2 ≤ n := by
  obtain ⟨⟨uri, languageId, version, text, ⟨⟩⟩, heach, rfl⟩ := Shape.each_of_decode hdecode
  obtain ⟨-, -, -, htext, -⟩ := heach
  obtain ⟨part, hpart, hstring⟩ := Field.of_required htext
  exact (h.parts part hpart).size_of_string hstring

theorem size_of_didOpen {params : DidOpenTextDocumentParams} (h : v.Within n)
    (hdecode : DidOpenTextDocumentParams.shape.decode v = .ok params) :
    params.textDocument.text.utf8ByteSize + 2 ≤ n := by
  obtain ⟨⟨item, ⟨⟩⟩, heach, rfl⟩ := Shape.each_of_decode hdecode
  obtain ⟨part, hpart, hitem⟩ := Field.of_required heach.1
  exact size_of_textDocumentItem (h.parts part hpart) hitem

theorem size_of_change {change : TextDocumentContentChangeEvent} (h : v.Within n)
    (hdecode : TextDocumentContentChangeEvent.shape.decode v = .ok change) :
    change.text.utf8ByteSize + 2 ≤ n := by
  obtain ⟨⟨range, rangeLength, text, ⟨⟩⟩, heach, rfl⟩ := Shape.each_of_decode hdecode
  obtain ⟨-, -, htext, -⟩ := heach
  obtain ⟨part, hpart, hstring⟩ := Field.of_required htext
  exact (h.parts part hpart).size_of_string hstring

theorem size_of_didChange {params : DidChangeTextDocumentParams} (h : v.Within n)
    (hdecode : DidChangeTextDocumentParams.shape.decode v = .ok params) :
    ∀ change ∈ params.contentChanges, change.text.utf8ByteSize + 2 ≤ n := by
  obtain ⟨⟨document, changes, ⟨⟩⟩, heach, rfl⟩ := Shape.each_of_decode hdecode
  obtain ⟨list, hlist, hchanges⟩ := Field.of_required heach.2.1
  intro change hmem
  obtain ⟨part, hpart, hchange⟩ := Shape.mem_of_list_decode hchanges hmem
  exact size_of_change ((h.parts list hlist).parts part hpart) hchange

/-! ## Edits -/

theorem Lsp.Message.request_eq_ok {α : Type} {shape : Shape α} {make : Id → α → Message}
    {call : Call} {message : Message} (h : request shape make call = .ok message) :
    ∃ id params, message = make id params := by
  rw [request_eq] at h
  split at h
  · cases h
  · split at h
    · cases h
    · cases h
      exact ⟨_, _, rfl⟩

theorem Lsp.Message.notification_eq_ok {α : Type} {shape : Shape α} {make : α → Message}
    {call : Call} {message : Message} (h : notification shape make call = .ok message) :
    ∃ params, shape.ofValue call.arguments = .ok params ∧ message = make params := by
  rw [notification_eq] at h
  split at h
  · cases h
  · rename_i params hparams
    cases h
    exact ⟨params, hparams, rfl⟩

/-- Only two methods make edits of calls. -/
theorem Lsp.Message.edit_of_ofCall {call : Call} {message : Message} {document : Document}
    (h : ofCall call = .ok message) (hedit : message.edit? = some document) :
    (∃ params, DidOpenTextDocumentParams.shape.ofValue call.arguments = .ok params ∧
        message = .didOpen params) ∨
      ∃ params, DidChangeTextDocumentParams.shape.ofValue call.arguments = .ok params ∧
        message = .didChange params := by
  unfold ofCall at h
  split at h
  case h_5 => exact .inl (notification_eq_ok h)
  case h_6 => exact .inr (notification_eq_ok h)
  case h_3 =>
    split at h
    · cases h
    · cases h
      cases hedit
  case h_1 | h_7 | h_8 | h_9 | h_10 =>
    obtain ⟨id, params, rfl⟩ := request_eq_ok h
    cases hedit
  all_goals
    cases h
    cases hedit

/-- The text that an edit leaves is smaller than the greatest body. -/
theorem size_lt_of_edit {frame : String} {message : Message} {document : Document}
    (hmessage : messageOf? frame = some message) (hedit : message.edit? = some document) :
    document.text.utf8ByteSize < Frame.maxLength := by
  unfold messageOf? at hmessage
  split at hmessage
  · cases hmessage
  · rename_i delivery hframe
    have hwithin := Delivery.within_arguments hframe
    have hcall : Message.ofCall delivery.call = .ok message := by
      cases hcall : Message.ofCall delivery.call with
      | error refusal =>
        rw [hcall] at hmessage
        cases hmessage
      | ok found =>
        rw [hcall] at hmessage
        cases hmessage
        rfl
    rcases Message.edit_of_ofCall hcall hedit with ⟨params, hparams, rfl⟩ | ⟨params, hparams, rfl⟩
    · cases hedit
      have hsize := size_of_didOpen hwithin hparams
      show params.textDocument.text.utf8ByteSize < Frame.maxLength
      omega
    · cases hedit
      have hsize := size_of_didChange hwithin hparams
      -- an empty batch leaves an empty text
      cases hlast : params.contentChanges.getLast? with
      | none =>
        show 0 < Frame.maxLength
        decide
      | some change =>
        have hchange := hsize change (List.mem_of_getLast? hlast)
        show change.text.utf8ByteSize < Frame.maxLength
        omega

end TermLint

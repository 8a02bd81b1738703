/-
  TermLint.Proofs.Lsp.Payload

  The catalogue of what editor and server send each other.  Whatever can be both
  written and read comes back from its text and from its data, and writing what was
  read settles its form: a text that was accepted in another order, or as a
  sequence, is written as an object, and stays as it is from then on.
-/

import TermLint.Lsp.Diagnostic
import TermLint.Lsp.Document
import TermLint.Lsp.Edit
import TermLint.Lsp.Lifecycle
import TermLint.Proofs.Rpc.Interpretation
import TermLint.Proofs.Shape.Inverse

namespace TermLint

open Shape (inverts_string inverts_uint32 inverts_int32 inverts_int64 inverts_record
  record_encode_ne_null)
open Shape.Field

/-- A text read and written again. -/
def Shape.rewrite {α : Type} (shape : Shape α) (text : String) : Except Json.Fault String :=
  (shape.parse text).map shape.render

/-! ## Identifiers and severities -/

theorem Rpc.inverts_id (depth : Nat) : Rpc.Id.shape.Inverts depth := by
  have hdecode : ∀ id : Rpc.Id, Rpc.Id.ofValue id.encode = .ok id :=
    fun id => (Rpc.ofValue_eq_ok_iff _ id).mpr rfl
  refine ⟨Shape.faithful_judged _ _, fun id => ?_, fun id => ?_, hdecode, fun id => ?_⟩
  · cases id with
    | number value =>
      have hlow := value.minValue_le_toInt
      have hhigh : value.toInt ≤ 9223372036854775807 := value.toInt_le
      exact .int _ hlow (Int.lt_of_le_of_lt hhigh (by decide))
    | text value => exact .string value
  · cases id with
    | number value => exact Nat.zero_le depth
    | text value => exact Nat.zero_le depth
  · cases id with
    | number value => exact hdecode (.number value)
    | text value => exact hdecode (.text value)

namespace Lsp

open Rpc (Id)

theorem inverts_severity (depth : Nat) : Severity.shape.Inverts depth := by
  refine ⟨Shape.faithful_judged _ _, fun severity => ?_, fun severity => Nat.zero_le depth,
    fun severity => ?_, fun severity => ?_⟩
  · cases severity <;> exact .int _ (by decide) (by decide)
  · cases severity <;> rfl
  · cases severity <;> rfl

/-! ## Records -/

theorem inverts_position (depth : Nat) : Position.shape.Inverts (depth + 1) :=
  inverts_record (by decide) (fun _ => rfl)
    ⟨.required (inverts_uint32 _), .required (inverts_uint32 _), trivial⟩

theorem inverts_range (depth : Nat) : Range.shape.Inverts (depth + 2) :=
  inverts_record (by decide) (fun _ => rfl)
    ⟨.required (inverts_position depth), .required (inverts_position depth), trivial⟩

theorem inverts_location (depth : Nat) : Location.shape.Inverts (depth + 3) :=
  inverts_record (by decide) (fun _ => rfl)
    ⟨.required (inverts_string _), .required (inverts_range depth), trivial⟩

theorem inverts_diagnostic (depth : Nat) : Diagnostic.shape.Inverts (depth + 3) :=
  inverts_record (by decide) (fun _ => rfl)
    ⟨.required (inverts_range depth), .required (inverts_severity _),
      .required (inverts_string _), .required (inverts_string _), trivial⟩

theorem inverts_textEdit (depth : Nat) : TextEdit.shape.Inverts (depth + 3) :=
  inverts_record (by decide) (fun _ => rfl)
    ⟨.required (inverts_range depth), .required (inverts_string _), trivial⟩

theorem inverts_workspaceEdit (depth : Nat) : WorkspaceEdit.shape.Inverts (depth + 6) :=
  inverts_record (by decide) (fun _ => rfl) ⟨.required (inverts_textEdit depth).list.dict, trivial⟩

theorem inverts_codeAction (depth : Nat) : CodeAction.shape.Inverts (depth + 7) :=
  inverts_record (by decide) (fun _ => rfl)
    ⟨.required (inverts_string _), .required (inverts_workspaceEdit depth), trivial⟩

/-- A text that may be missing. -/
theorem inverts_optional_string (depth : Nat) : Shape.string.optional.Inverts depth :=
  (inverts_string depth).optional fun _ h => by cases h

theorem inverts_completionItem (depth : Nat) : CompletionItem.shape.Inverts (depth + 1) :=
  inverts_record (by decide) (fun _ => rfl)
    ⟨.required (inverts_string _), (Inverts.optional (inverts_optional_string _)).omitted rfl,
      (Inverts.optional (inverts_optional_string _)).omitted rfl, trivial⟩

theorem inverts_hover (depth : Nat) : Hover.shape.Inverts (depth + 1) :=
  inverts_record (by decide) (fun _ => rfl) ⟨.required (inverts_string _), trivial⟩

theorem inverts_clientInfo (depth : Nat) : ClientInfo.shape.Inverts (depth + 1) :=
  inverts_record (by decide) (fun _ => rfl)
    ⟨.required (inverts_string _), .defaulted (inverts_optional_string _), trivial⟩

theorem inverts_initializeParams (depth : Nat) : InitializeParams.shape.Inverts (depth + 2) :=
  inverts_record (by decide) (fun _ => rfl)
    ⟨.defaulted ((inverts_int64 _).optional fun _ h => by cases h),
      .defaulted (inverts_optional_string _),
      .defaulted ((inverts_clientInfo depth).optional record_encode_ne_null), trivial⟩

theorem inverts_serverInfo (depth : Nat) : ServerInfo.shape.Inverts (depth + 1) :=
  inverts_record (by decide) (fun _ => rfl)
    ⟨.required (inverts_string _), (Inverts.optional (inverts_optional_string _)).omitted rfl,
      trivial⟩

theorem inverts_textDocumentItem (depth : Nat) : TextDocumentItem.shape.Inverts (depth + 1) :=
  inverts_record (by decide) (fun _ => rfl)
    ⟨.required (inverts_string _), .defaulted (inverts_string _), .required (inverts_int32 _),
      .required (inverts_string _), trivial⟩

theorem inverts_textDocumentIdentifier (depth : Nat) :
    TextDocumentIdentifier.shape.Inverts (depth + 1) :=
  inverts_record (by decide) (fun _ => rfl) ⟨.required (inverts_string _), trivial⟩

theorem inverts_versionedTextDocumentIdentifier (depth : Nat) :
    VersionedTextDocumentIdentifier.shape.Inverts (depth + 1) :=
  inverts_record (by decide) (fun _ => rfl)
    ⟨.required (inverts_string _), .required (inverts_int32 _), trivial⟩

theorem inverts_contentChange (depth : Nat) :
    TextDocumentContentChangeEvent.shape.Inverts (depth + 3) :=
  inverts_record (by decide) (fun _ => rfl)
    ⟨(Inverts.defaulted ((inverts_range depth).optional record_encode_ne_null)).omitted rfl,
      (Inverts.defaulted ((inverts_uint32 _).optional fun _ h => by cases h)).omitted rfl,
      .required (inverts_string _), trivial⟩

theorem inverts_didOpen (depth : Nat) : DidOpenTextDocumentParams.shape.Inverts (depth + 2) :=
  inverts_record (by decide) (fun _ => rfl)
    ⟨.required (inverts_textDocumentItem depth), trivial⟩

theorem inverts_didChange (depth : Nat) : DidChangeTextDocumentParams.shape.Inverts (depth + 5) :=
  inverts_record (by decide) (fun _ => rfl)
    ⟨.required (inverts_versionedTextDocumentIdentifier (depth + 3)),
      .required (inverts_contentChange depth).list, trivial⟩

theorem inverts_textDocumentPosition (depth : Nat) :
    TextDocumentPositionParams.shape.Inverts (depth + 2) :=
  inverts_record (by decide) (fun _ => rfl)
    ⟨.required (inverts_textDocumentIdentifier depth), .required (inverts_position depth), trivial⟩

theorem inverts_codeActionParams (depth : Nat) : CodeActionParams.shape.Inverts (depth + 3) :=
  inverts_record (by decide) (fun _ => rfl)
    ⟨.required (inverts_textDocumentIdentifier (depth + 1)), .defaulted (inverts_range depth),
      trivial⟩

theorem inverts_publishDiagnostics (depth : Nat) :
    PublishDiagnosticsParams.shape.Inverts (depth + 5) :=
  inverts_record (by decide) (fun _ => rfl)
    ⟨.required (inverts_string _),
      (Inverts.optional ((inverts_int32 _).optional fun _ h => by cases h)).omitted rfl,
      .required (inverts_diagnostic depth).list, trivial⟩

/-! ## The catalogue -/

/-- The types that are both written and read, each with its layout. -/
def payloads : List ((α : Type) × Shape α) :=
  [⟨_, Position.shape⟩, ⟨_, Range.shape⟩, ⟨_, Location.shape⟩, ⟨_, Severity.shape⟩,
    ⟨_, Diagnostic.shape⟩, ⟨_, TextEdit.shape⟩, ⟨_, WorkspaceEdit.shape⟩, ⟨_, CodeAction.shape⟩,
    ⟨_, CompletionItem.shape⟩, ⟨_, Hover.shape⟩, ⟨_, ClientInfo.shape⟩,
    ⟨_, InitializeParams.shape⟩, ⟨_, ServerInfo.shape⟩, ⟨_, TextDocumentItem.shape⟩,
    ⟨_, TextDocumentIdentifier.shape⟩, ⟨_, VersionedTextDocumentIdentifier.shape⟩,
    ⟨_, TextDocumentContentChangeEvent.shape⟩, ⟨_, DidOpenTextDocumentParams.shape⟩,
    ⟨_, DidChangeTextDocumentParams.shape⟩, ⟨_, TextDocumentPositionParams.shape⟩,
    ⟨_, CodeActionParams.shape⟩, ⟨_, PublishDiagnosticsParams.shape⟩, ⟨_, Id.shape⟩]

theorem inverts_of_mem_payloads :
    ∀ payload ∈ payloads, payload.2.Inverts Json.maxNesting := by
  simp only [payloads, List.forall_mem_cons, List.not_mem_nil, false_implies, implies_true,
    and_true]
  exact ⟨inverts_position 126, inverts_range 125, inverts_location 124, inverts_severity 127,
    inverts_diagnostic 124, inverts_textEdit 124, inverts_workspaceEdit 121,
    inverts_codeAction 120, inverts_completionItem 126, inverts_hover 126, inverts_clientInfo 126,
    inverts_initializeParams 125, inverts_serverInfo 126, inverts_textDocumentItem 126,
    inverts_textDocumentIdentifier 126, inverts_versionedTextDocumentIdentifier 126,
    inverts_contentChange 124, inverts_didOpen 125, inverts_didChange 122,
    inverts_textDocumentPosition 125, inverts_codeActionParams 124, inverts_publishDiagnostics 122,
    Rpc.inverts_id 127⟩

/-- Every value of the catalogue comes back from its text and from its canonical data, in which the
fields stand in the order of their keys.  So a text that was read and written once does not change
when it is read and written again, in whichever form it was accepted at first. -/
theorem payloads_invertible {payload : (α : Type) × Shape α} (h : payload ∈ payloads) :
    (∀ x, payload.2.parse (payload.2.render x) = .ok x) ∧
      (∀ x, payload.2.ofValue (payload.2.toValue x) = .ok x) ∧
      ∀ text once, payload.2.rewrite text = .ok once → payload.2.rewrite once = .ok once := by
  have hinverts := inverts_of_mem_payloads payload h
  have hparse := hinverts.parse_render (Nat.le_refl _)
  refine ⟨hparse, hinverts.ofValue_toValue, fun text once hrewrite => ?_⟩
  -- what was written at first is the text of the value that was read
  obtain ⟨x, rfl⟩ : ∃ x, payload.2.render x = once := by
    unfold Shape.rewrite at hrewrite
    cases hread : payload.2.parse text with
    | error fault =>
      rw [hread] at hrewrite
      cases hrewrite
    | ok x =>
      rw [hread] at hrewrite
      exact ⟨x, Except.ok.inj hrewrite⟩
  unfold Shape.rewrite
  rw [hparse x]
  rfl

/-- An action on two documents; the text is accepted as a sequence, with its keys out of order. -/
theorem payloads_invertible_codeAction :
    (⟨CodeAction, CodeAction.shape⟩ : (α : Type) × Shape α) ∈ payloads ∧
      (∃ once, CodeAction.shape.rewrite
          "[\"t\",[\x7b\"b\":[],\"a\":[[[[0,1],\x7b\"character\":2,\"line\":0\x7d],\"\\u00e9\"]]\x7d]]" =
            .ok once ∧ CodeAction.shape.rewrite once = .ok once) ∧
      CodeAction.shape.ofValue (CodeAction.shape.toValue
          ⟨"t", ⟨Dict.ofList [("b", []), ("a", [⟨⟨⟨0, 1⟩, ⟨0, 2⟩⟩, "é"⟩])]⟩⟩) =
        .ok ⟨"t", ⟨Dict.ofList [("b", []), ("a", [⟨⟨⟨0, 1⟩, ⟨0, 2⟩⟩, "é"⟩])]⟩⟩ := by
  have hmem : (⟨CodeAction, CodeAction.shape⟩ : (α : Type) × Shape α) ∈ payloads := by
    simp only [payloads, List.mem_cons, true_or, or_true]
  obtain ⟨-, hvalue, hrewrite⟩ := payloads_invertible hmem
  have honce : CodeAction.shape.rewrite
      "[\"t\",[\x7b\"b\":[],\"a\":[[[[0,1],\x7b\"character\":2,\"line\":0\x7d],\"\\u00e9\"]]\x7d]]" =
        .ok ("\x7b\"title\":\"t\",\"edit\":\x7b\"changes\":\x7b\"a\":[\x7b\"range\":" ++
          "\x7b\"start\":\x7b\"line\":0,\"character\":1\x7d,\"end\":\x7b\"line\":0,\"character\":2\x7d\x7d," ++
          "\"newText\":\"é\"\x7d],\"b\":[]\x7d\x7d\x7d") := by
    decide +kernel
  exact ⟨hmem, ⟨_, honce, hrewrite _ _ honce⟩, hvalue _⟩

end Lsp
end TermLint

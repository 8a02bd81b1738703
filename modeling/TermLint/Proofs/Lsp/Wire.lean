/-
  TermLint.Proofs.Lsp.Wire

  Messages on their way from client to server.  A client writes a message as an
  object with the version of the protocol, the name of the method, an identifier
  when it expects an answer, and the data of the parameters when there are any; the
  server takes the same message from the frame of that object.  Parameters that are
  absent, `null` or an empty object are the same to every method.
-/

import TermLint.Proofs.Lsp.Message
import TermLint.Proofs.Lsp.Payload
import TermLint.Rpc.Reply

namespace TermLint

open Lsp (Method Message InitializeParams DidOpenTextDocumentParams DidChangeTextDocumentParams
  TextDocumentPositionParams CodeActionParams)
open Rpc (Id Call Delivery)

/-! ## Written calls -/

/-- Entries in another order have the same values at a key that is written at most once. -/
theorem valuesAt_of_perm {α : Type} {key : String} {fields others : List (String × α)}
    (h : fields.Perm others) (hone : (valuesAt key others).length ≤ 1) :
    valuesAt key fields = valuesAt key others := by
  have hvalues : (valuesAt key fields).Perm (valuesAt key others) := (h.filter _).map _
  match hothers : valuesAt key others with
  | [] => exact List.perm_nil.mp (hothers ▸ hvalues)
  | [value] => exact List.perm_singleton.mp (hothers ▸ hvalues)
  | value :: other :: values =>
    rw [hothers] at hone
    exact absurd hone (by simp)

namespace Rpc.Call

/-- The fields of the object with which a client calls a method. -/
def written (id : Option Id) (method : String) (params : Option Value) : List (String × Value) :=
  (id.map fun id => ("id", id.encode)).toList ++
    [("jsonrpc", .string version), ("method", .string method)] ++
      (params.map fun params => ("params", params)).toList

variable {id : Option Id} {method : String} {params : Option Value}
  {fields : List (String × Value)}

theorem valuesAt_id : valuesAt "id" (written id method params) = (id.map Id.encode).toList := by
  cases id <;> cases params <;> rfl

theorem valuesAt_jsonrpc :
    valuesAt "jsonrpc" (written id method params) = [.string version] := by
  cases id <;> cases params <;> rfl

theorem valuesAt_method : valuesAt "method" (written id method params) = [.string method] := by
  cases id <;> cases params <;> rfl

theorem valuesAt_params : valuesAt "params" (written id method params) = params.toList := by
  cases id <;> cases params <;> rfl

theorem takes_id (h : valuesAt "id" fields = (id.map Id.encode).toList) :
    (Shape.Field.defaulted "id" Id.shape.optional none).Takes none (valuesAt "id" fields) id := by
  rw [h]
  cases id with
  | none => rfl
  | some id =>
    have hdecode : Id.shape.decode id.encode = .ok id := (ofValue_eq_ok_iff _ id).mpr rfl
    have hnull : id.encode ≠ .null := by cases id <;> exact fun heq => by cases heq
    show Id.shape.optional.decode id.encode = .ok (some id)
    rw [Shape.optional_decode hnull, hdecode]

theorem takes_params (hplain : ∀ v ∈ params, v.IsPlain)
    (h : valuesAt "params" fields = params.toList) :
    (Shape.Field.defaulted "params" Shape.any .null).Takes none (valuesAt "params" fields)
      (params.getD .null) := by
  rw [h]
  cases params with
  | none => rfl
  | some v =>
    show Except.ok v.canonical = .ok v
    rw [(hplain v rfl).canonical_eq]

/-- The call that a written object holds, in whatever order its fields stand. -/
theorem decode_written (hperm : fields.Perm (written id method params))
    (hplain : ∀ v ∈ params, v.IsPlain) :
    Call.shape.decode (.object fields) = .ok ⟨id, version, method, params.getD .null⟩ := by
  rw [shape_decode_eq_ok_iff, Shape.decodeFieldsOf_object_iff (by decide)]
  have hid : valuesAt "id" fields = (id.map Id.encode).toList := by
    rw [valuesAt_of_perm hperm (by rw [valuesAt_id]; exact Option.length_toList_le), valuesAt_id]
  have hjsonrpc : valuesAt "jsonrpc" fields = [.string version] := by
    rw [valuesAt_of_perm hperm (by simp [valuesAt_jsonrpc]), valuesAt_jsonrpc]
  have hmethod : valuesAt "method" fields = [.string method] := by
    rw [valuesAt_of_perm hperm (by simp [valuesAt_method]), valuesAt_method]
  have hparams : valuesAt "params" fields = params.toList := by
    rw [valuesAt_of_perm hperm (by rw [valuesAt_params]; exact Option.length_toList_le),
      valuesAt_params]
  refine ⟨takes_id hid, ?_, ?_, takes_params hplain hparams, trivial⟩
  · show (Shape.Field.defaulted "jsonrpc" Shape.string "").Takes none (valuesAt "jsonrpc" fields) _
    rw [hjsonrpc]
    rfl
  · show (Shape.Field.required "method" Shape.string).Takes none (valuesAt "method" fields) _
    rw [hmethod]
    rfl

theorem of_mem_written (hparams : ∀ v ∈ params, v.IsPlain ∧ v.nesting < Json.maxNesting)
    {field : String × Value} (h : field ∈ written id method params) :
    field.2.IsIntegral ∧ field.2.nesting < Json.maxNesting := by
  have hid : ∀ id : Id, id.encode.IsIntegral ∧ id.encode.nesting < Json.maxNesting := fun id =>
    ⟨(inverts_id 0).integral id, Nat.lt_of_le_of_lt ((inverts_id 0).nesting_le id) (by decide)⟩
  have htext : ∀ text : String, (Value.string text).IsIntegral ∧
      (Value.string text).nesting < Json.maxNesting :=
    fun text => ⟨.string text, Nat.zero_lt_succ _⟩
  simp only [written, List.mem_append, Option.mem_toList, Option.map_eq_some_iff, List.mem_cons,
    List.not_mem_nil, or_false] at h
  rcases h with (⟨id, -, rfl⟩ | rfl | rfl) | ⟨v, hv, rfl⟩
  · exact hid id
  · exact htext version
  · exact htext method
  · exact ⟨(hparams v hv).1.isIntegral, (hparams v hv).2⟩

/-- A written object as a value that can be read back. -/
theorem integral_written (hperm : fields.Perm (written id method params))
    (hparams : ∀ v ∈ params, v.IsPlain ∧ v.nesting < Json.maxNesting) :
    (Value.object fields).IsIntegral ∧ (Value.object fields).nesting ≤ Json.maxNesting := by
  have hmem : ∀ field ∈ fields, field.2.IsIntegral ∧ field.2.nesting < Json.maxNesting :=
    fun field hfield => of_mem_written hparams (hperm.mem_iff.mp hfield)
  refine ⟨.object fields fun field hfield => (hmem field hfield).1, ?_⟩
  rw [Value.nesting]
  exact Nat.succ_le_of_lt (Nat.lt_of_le_of_lt
    (Value.fieldsNesting_le_iff.mpr fun field hfield => Nat.le_pred_of_lt (hmem field hfield).2)
    (by decide))

theorem parse_written (hperm : fields.Perm (written id method params))
    (hparams : ∀ v ∈ params, v.IsPlain ∧ v.nesting < Json.maxNesting) :
    Call.shape.parse (Json.render (.object fields)) =
      .ok ⟨id, version, method, params.getD .null⟩ := by
  obtain ⟨hintegral, hnesting⟩ := integral_written hperm hparams
  have hwhole := Json.whole_render hintegral hnesting
  refine (Shape.parse_eq_ok_iff faithful_shape hwhole _).mpr ?_
  exact decode_written hperm fun v hv => (hparams v hv).1

/-- The frame of a written object gives the call that the object holds. -/
theorem ofFrame_written (hperm : fields.Perm (written id method params))
    (hparams : ∀ v ∈ params, v.IsPlain ∧ v.nesting < Json.maxNesting)
    (hsize : (Json.render (.object fields)).utf8ByteSize ≤ Frame.maxLength) :
    Delivery.ofFrame (Frame.encode (.object fields)) =
      .ok ⟨⟨id, version, method, params.getD .null⟩,
        (Json.render (.object fields)).utf8ByteSize⟩ := by
  have hne := Frame.render_ne_empty (integral_written hperm hparams).1
  have hword : (Json.render (.object fields)).utf8ByteSize < UInt64.size :=
    Nat.lt_of_le_of_lt hsize (by decide)
  have hsplit := Frame.split_wrap hne
  rw [if_pos hword, if_neg (Nat.not_lt.mpr hsize)] at hsplit
  simp only [Delivery.ofFrame, Frame.encode, hsplit, parse_written hperm hparams]

end Rpc.Call

/-! ## Written messages -/

namespace Lsp.Message

/-- The identifier that a message is sent with. -/
def id? : Message → Option Id
  | .startup id _ | .shutdown id | .hover id _ | .definition id _ | .codeAction id _
  | .completion id _ => some id
  | .unknown id _ => id
  | .initialized | .exit | .didOpen _ | .didChange _ | .publishDiagnostics => none

/-- The name of the method that a message calls. -/
def method : Message → String
  | .startup _ _ => "initialize"
  | .initialized => "initialized"
  | .shutdown _ => "shutdown"
  | .exit => "exit"
  | .didOpen _ => "textDocument/didOpen"
  | .didChange _ => "textDocument/didChange"
  | .hover _ _ => "textDocument/hover"
  | .definition _ _ => "textDocument/definition"
  | .codeAction _ _ => "textDocument/codeAction"
  | .completion _ _ => "textDocument/completion"
  | .publishDiagnostics => "textDocument/publishDiagnostics"
  | .unknown _ method => method

/-- The data of the parameters of a message. -/
def params? : Message → Option Value
  | .startup _ params => some (InitializeParams.shape.toValue params)
  | .didOpen params => some (DidOpenTextDocumentParams.shape.toValue params)
  | .didChange params => some (DidChangeTextDocumentParams.shape.toValue params)
  | .hover _ params | .definition _ params | .completion _ params =>
    some (TextDocumentPositionParams.shape.toValue params)
  | .codeAction _ params => some (CodeActionParams.shape.toValue params)
  | .initialized | .shutdown _ | .exit | .publishDiagnostics | .unknown _ _ => none

/-- The fields of the object with which a client sends a message. -/
def written (message : Message) : List (String × Value) :=
  Call.written message.id? message.method message.params?

/-- A message of which only the name is known has a name that no method has. -/
def WellNamed : Message → Prop
  | .unknown _ method => ∀ known : Method, known.name ≠ method
  | _ => True

variable {α : Type} {shape : Shape α} {depth : Nat}

theorem plain_toValue (h : shape.Inverts depth) (hdepth : depth < Json.maxNesting) (params : α) :
    (shape.toValue params).IsPlain ∧ (shape.toValue params).nesting < Json.maxNesting := by
  have hintegral := h.integral params
  refine ⟨hintegral.isPlain_canonical, Nat.lt_of_le_of_lt ?_ hdepth⟩
  exact Nat.le_trans hintegral.nesting_canonical_le (h.nesting_le params)

/-- The data of all parameters is plain and nests little. -/
theorem plain_params (message : Message) :
    ∀ v ∈ message.params?, v.IsPlain ∧ v.nesting < Json.maxNesting := by
  intro v hv
  cases message with
  | startup id params =>
    cases hv
    exact plain_toValue (inverts_initializeParams 0) (by decide) params
  | didOpen params =>
    cases hv
    exact plain_toValue (inverts_didOpen 0) (by decide) params
  | didChange params =>
    cases hv
    exact plain_toValue (inverts_didChange 0) (by decide) params
  | hover id params =>
    cases hv
    exact plain_toValue (inverts_textDocumentPosition 0) (by decide) params
  | definition id params =>
    cases hv
    exact plain_toValue (inverts_textDocumentPosition 0) (by decide) params
  | completion id params =>
    cases hv
    exact plain_toValue (inverts_textDocumentPosition 0) (by decide) params
  | codeAction id params =>
    cases hv
    exact plain_toValue (inverts_codeActionParams 0) (by decide) params
  | initialized => cases hv
  | shutdown id => cases hv
  | exit => cases hv
  | publishDiagnostics => cases hv
  | unknown id method => cases hv

/-- Parameters that are not written as `null` are read from what they are written as. -/
theorem paramsOf_toValue (h : shape.Inverts depth) (hnull : ∀ a, shape.encode a ≠ .null)
    (id : Option Id) (jsonrpc method : String) (params : α) :
    shape.ofValue (Call.arguments ⟨id, jsonrpc, method, shape.toValue params⟩) = .ok params := by
  have harguments : Call.arguments ⟨id, jsonrpc, method, shape.toValue params⟩ =
      shape.toValue params := by
    have hne : shape.toValue params ≠ .null := Shape.canonical_ne_null (hnull params)
    unfold Call.arguments
    split
    · rename_i heq
      exact absurd heq hne
    · rfl
  rw [harguments, h.ofValue_toValue]

theorem request_toValue (h : shape.Inverts depth) (hnull : ∀ a, shape.encode a ≠ .null)
    (make : Id → α → Message) (id : Id) (jsonrpc method : String) (params : α) :
    request shape make ⟨some id, jsonrpc, method, shape.toValue params⟩ =
      .ok (make id params) := by
  rw [request_eq]
  simp only [paramsOf_toValue h hnull]

theorem notification_toValue (h : shape.Inverts depth) (hnull : ∀ a, shape.encode a ≠ .null)
    (make : α → Message) (id : Option Id) (jsonrpc method : String) (params : α) :
    notification shape make ⟨id, jsonrpc, method, shape.toValue params⟩ = .ok (make params) := by
  rw [notification_eq]
  simp only [paramsOf_toValue h hnull]

/-- The call of a message is that message. -/
theorem ofCall_of_wellNamed {message : Message} (h : message.WellNamed) :
    ofCall ⟨message.id?, Rpc.version, message.method, message.params?.getD .null⟩ =
      .ok message := by
  cases message with
  | startup id params =>
    exact request_toValue (inverts_initializeParams 0) Shape.record_encode_ne_null _ id _ _ params
  | didOpen params =>
    exact notification_toValue (inverts_didOpen 0) Shape.record_encode_ne_null _ _ _ _ params
  | didChange params =>
    exact notification_toValue (inverts_didChange 0) Shape.record_encode_ne_null _ _ _ _ params
  | hover id params =>
    exact request_toValue (inverts_textDocumentPosition 0) Shape.record_encode_ne_null _ id _ _
      params
  | definition id params =>
    exact request_toValue (inverts_textDocumentPosition 0) Shape.record_encode_ne_null _ id _ _
      params
  | completion id params =>
    exact request_toValue (inverts_textDocumentPosition 0) Shape.record_encode_ne_null _ id _ _
      params
  | codeAction id params =>
    exact request_toValue (inverts_codeActionParams 0) Shape.record_encode_ne_null _ id _ _ params
  | initialized => rfl
  | shutdown id => rfl
  | exit => rfl
  | publishDiagnostics => rfl
  | unknown id method =>
    have hname : Method.ofName? method = none := by
      refine List.find?_eq_none.mpr fun known _ => ?_
      rw [beq_iff_eq]
      exact h known
    show ofCall ⟨id, Rpc.version, method, .null⟩ = _
    simp only [ofCall, hname]

/-- No parameters and an empty object are the same to every method. -/
theorem ofCall_empty_params (id : Option Id) (jsonrpc method : String) :
    ofCall ⟨id, jsonrpc, method, .object []⟩ = ofCall ⟨id, jsonrpc, method, .null⟩ := by
  simp only [ofCall]
  cases Method.ofName? method with
  | none => rfl
  | some known => cases known <;> rfl

/-- Every message survives the way through a frame: the object with which a client sends it, in any
order of its fields and as long as its text has at most 4194304 bytes, is taken as a call, and the
call as that message.  Whether parameters are absent, `null` or an empty object makes no difference
to what a call is taken as, whatever its method and identifier are. -/
theorem survives_wire :
    (∀ message : Message, message.WellNamed → ∀ fields, fields.Perm message.written →
      (Json.render (.object fields)).utf8ByteSize ≤ 4194304 →
        ∃ delivery, Delivery.ofFrame (Frame.encode (.object fields)) = .ok delivery ∧
          ofCall delivery.call = .ok message) ∧
      ∀ (id : Option Id) (method : String), ∃ result,
        ∀ params ∈ [none, some .null, some (.object [])], ∃ call,
          Call.shape.parse (Json.render (.object (Call.written id method params))) = .ok call ∧
            ofCall call = result := by
  refine ⟨fun message hnamed fields hperm hsize => ?_, fun id method => ?_⟩
  · exact ⟨_, Call.ofFrame_written hperm message.plain_params hsize, ofCall_of_wellNamed hnamed⟩
  · refine ⟨ofCall ⟨id, Rpc.version, method, .null⟩, fun params hparams => ?_⟩
    have hplain : ∀ v ∈ params, v.IsPlain ∧ v.nesting < Json.maxNesting := by
      intro v hv
      simp only [List.mem_cons, List.not_mem_nil, or_false] at hparams
      rcases hparams with rfl | rfl | rfl
      · cases hv
      · cases hv
        exact ⟨.null, by decide⟩
      · cases hv
        exact ⟨.object [] List.Pairwise.nil (by simp), by decide⟩
    refine ⟨_, Call.parse_written (List.Perm.refl _) hplain, ?_⟩
    simp only [List.mem_cons, List.not_mem_nil, or_false] at hparams
    rcases hparams with rfl | rfl | rfl
    · rfl
    · rfl
    · exact ofCall_empty_params id Rpc.version method

/-- A change with a range and one without, and a request whose identifier is a text; the fields
stand in the opposite order. -/
theorem survives_wire_reversed :
    (∃ delivery, Delivery.ofFrame (Frame.encode (.object (written (.didChange
        ⟨⟨"file:///a", -1⟩, [⟨some ⟨⟨0, 1⟩, ⟨2, 3⟩⟩, some 0, "é\n"⟩, ⟨none, none, ""⟩]⟩)).reverse)) =
          .ok delivery ∧
        ofCall delivery.call = .ok (.didChange
          ⟨⟨"file:///a", -1⟩, [⟨some ⟨⟨0, 1⟩, ⟨2, 3⟩⟩, some 0, "é\n"⟩, ⟨none, none, ""⟩]⟩)) ∧
      ∃ delivery, Delivery.ofFrame (Frame.encode (.object (written (.startup (.text "\"7\"")
          ⟨some (-1), none, some ⟨"c", none⟩⟩)).reverse)) = .ok delivery ∧
        ofCall delivery.call = .ok (.startup (.text "\"7\"") ⟨some (-1), none, some ⟨"c", none⟩⟩) :=
  ⟨survives_wire.1 _ (by trivial) _ (List.reverse_perm _) (by decide +kernel),
    survives_wire.1 _ (by trivial) _ (List.reverse_perm _) (by decide +kernel)⟩

end Lsp.Message
end TermLint

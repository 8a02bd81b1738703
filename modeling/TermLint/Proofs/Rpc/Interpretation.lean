/-
  TermLint.Proofs.Rpc.Interpretation

  A call is read straight from the text of a frame, not from the data in it.  The
  two agree: `Carries` says which call the data of a frame stands for, and a frame
  gives a call exactly when its data carries it and no key of a call is written
  twice.  Faults of framing are the same on both ways.
-/

import TermLint.Proofs.Frame.RoundTrip
import TermLint.Proofs.Shape.Agreement
import TermLint.Rpc.Call

namespace TermLint.Rpc

open Shape (Field Fields Mismatch)

/-! ## What data stands for -/

/-- The identifier that data at `id` stands for. -/
inductive IdOf : Option Value → Option Id → Prop where
  | absent : IdOf none none
  | null : IdOf (some .null) none
  | number (value : Int64) : IdOf (some (.number (.int value.toInt))) (some (.number value))
  | text (value : String) : IdOf (some (.string value)) (some (.text value))

/-- The version that data at `jsonrpc` stands for. -/
inductive VersionOf : Option Value → String → Prop where
  | absent : VersionOf none ""
  | text (value : String) : VersionOf (some (.string value)) value

/-- The call that data stands for: an object, of which other keys do not matter, or a sequence of
three or four items. -/
inductive Carries : Value → Call → Prop where
  | object {fields : List (String × Value)} {call : Call}
      (id : IdOf (findEntry "id" fields) call.id)
      (jsonrpc : VersionOf (findEntry "jsonrpc" fields) call.jsonrpc)
      (method : findEntry "method" fields = some (.string call.method))
      (params : call.params = (findEntry "params" fields).getD .null) :
      Carries (.object fields) call
  | triple {item : Value} {id : Option Id} {jsonrpc method : String} (h : IdOf (some item) id) :
      Carries (.array [item, .string jsonrpc, .string method]) ⟨id, jsonrpc, method, .null⟩
  | quadruple {item params : Value} {id : Option Id} {jsonrpc method : String}
      (h : IdOf (some item) id) :
      Carries (.array [item, .string jsonrpc, .string method, params])
        ⟨id, jsonrpc, method, params⟩

/-! ## The fields of a call -/

namespace Call

/-- The fields of a call, in the order of their declaration. -/
def fields : Fields [Option Id, String, String, Value] :=
  .cons (.defaulted "id" Id.shape.optional none) (.cons (.defaulted "jsonrpc" .string "")
    (.cons (.required "method" .string) (.cons (.defaulted "params" .any .null) .nil)))

theorem faithful_shape : Call.shape.Faithful := by
  have hfields : fields.Faithful :=
    ⟨(Shape.faithful_judged _ _).optional, Shape.faithful_string, Shape.faithful_string,
      Shape.faithful_judged _ _, trivial⟩
  exact Shape.faithful_record hfields _ _ _

theorem shape_decode_eq_ok_iff (v : Value) (call : Call) :
    Call.shape.decode v = .ok call ↔
      Shape.decodeFieldsOf "RawEnvelope" fields v =
        .ok (call.id, call.jsonrpc, call.method, call.params, ()) := by
  refine (Shape.record_decode_eq_ok_iff v call).trans ⟨?_, ?_⟩
  · rintro ⟨⟨id, jsonrpc, method, params, ⟨⟩⟩, hrow, rfl⟩
    exact hrow
  · intro hrow
    exact ⟨_, hrow, rfl⟩

end Call

/-! ## Each field, from data in any order -/

/-- An identifier is taken exactly from what it is written as. -/
theorem ofValue_eq_ok_iff (v : Value) (id : Id) : Id.ofValue v = .ok id ↔ v = id.encode := by
  constructor
  · intro h
    unfold Id.ofValue at h
    split at h
    · rename_i n
      split at h
      · rename_i hn
        cases h
        have hvalue : (Int64.ofInt n).toInt = n := @Int64.toInt_ofIntLE n hn.1 hn.2
        rw [Id.encode, Value.int, hvalue]
      · cases h
    · cases h
      rfl
    · cases h
  · rintro rfl
    cases id with
    | number value =>
      rw [Id.encode, Value.int, Id.ofValue, if_pos ⟨value.minValue_le_toInt, value.toInt_le⟩,
        Int64.ofInt_toInt]
    | text value => rfl

/-- Data that is neither a list nor an object is canonical by itself. -/
theorem eq_of_canonical_eq {v w : Value} (h : v.canonical = w) (hlist : ∀ items, w ≠ .array items)
    (hobject : ∀ fields, w ≠ .object fields) : v = w := by
  cases v with
  | array items => exact absurd h.symm (hlist _)
  | object fields => exact absurd h.symm (hobject _)
  | null => exact h
  | bool value => exact h
  | number n => exact h
  | string text => exact h

theorem optional_id_iff (v : Value) (id : Option Id) :
    Id.shape.optional.decode v = .ok id ↔ IdOf (some v.canonical) id := by
  by_cases hnull : v = .null
  · subst hnull
    constructor
    · intro h
      cases h
      exact .null
    · intro h
      cases h
      rfl
  · have hdecode : Id.shape.optional.decode v = .ok id ↔ ∃ i : Id, v = i.encode ∧ some i = id := by
      simp only [← ofValue_eq_ok_iff, Shape.optional, Id.shape, Shape.judged]
      cases Id.ofValue v with
      | error m => simp
      | ok i => simp
    rw [hdecode]
    constructor
    · rintro ⟨i, rfl, rfl⟩
      cases i with
      | number value => exact .number value
      | text value => exact .text value
    · intro h
      generalize hv : v.canonical = w at h
      cases h with
      | null => exact absurd (eq_of_canonical_eq hv (by simp) (by simp)) hnull
      | number value =>
        have hnumber := eq_of_canonical_eq hv (by simp) (by simp)
        exact ⟨.number value, hnumber, rfl⟩
      | text value =>
        have htext := eq_of_canonical_eq hv (by simp) (by simp)
        exact ⟨.text value, htext, rfl⟩

theorem string_iff (v : Value) (text : String) :
    Shape.string.decode v = .ok text ↔ v.canonical = .string text := by
  constructor
  · intro h
    simp only [Shape.string] at h
    split at h
    · cases h
      rfl
    · cases h
  · intro h
    rw [eq_of_canonical_eq h (by simp) (by simp)]
    rfl

/-! ## The value at a key -/

/-- The value at a key of canonical data is the last that was written. -/
theorem canonical_object (entries : List (String × Value)) :
    ∃ fields, Value.canonical (.object entries) = .object fields ∧
      ∀ key, findEntry key fields = (valuesAt key entries).getLast?.map Value.canonical := by
  refine ⟨_, rfl, fun key => ?_⟩
  rw [findEntry_orderFields, Value.canonicalFields_eq, List.reverse_nil, List.nil_append,
    valuesAt_map, List.getLast?_map]

theorem holds_id_iff (o : Option Value) (id : Option Id) :
    (Field.defaulted "id" Id.shape.optional none).Holds o id ↔
      IdOf (o.map Value.canonical) id := by
  cases o with
  | some v => exact optional_id_iff v id
  | none =>
    constructor
    · intro h
      cases h
      exact .absent
    · intro h
      cases h
      rfl

theorem holds_jsonrpc_iff (o : Option Value) (text : String) :
    (Field.defaulted "jsonrpc" Shape.string "").Holds o text ↔
      VersionOf (o.map Value.canonical) text := by
  cases o with
  | some v =>
    refine (string_iff v text).trans ⟨?_, ?_⟩
    · intro h
      rw [Option.map_some, h]
      exact .text text
    · intro h
      rw [Option.map_some] at h
      generalize v.canonical = w at h
      cases h
      rfl
  | none =>
    constructor
    · intro h
      cases h
      exact .absent
    · intro h
      cases h
      rfl

theorem holds_method_iff (o : Option Value) (text : String) :
    (Field.required "method" Shape.string).Holds o text ↔
      o.map Value.canonical = some (.string text) := by
  cases o with
  | some v =>
    rw [Option.map_some, Option.some_inj]
    exact string_iff v text
  | none => simp [Field.Holds, Field.required]

theorem holds_params_iff (o : Option Value) (params : Value) :
    (Field.defaulted "params" Shape.any .null).Holds o params ↔
      params = (o.map Value.canonical).getD .null := by
  cases o with
  | some v =>
    show Except.ok v.canonical = .ok params ↔ params = v.canonical
    rw [Except.ok.injEq]
    exact eq_comm
  | none =>
    show some Value.null = some params ↔ params = .null
    rw [Option.some_inj]
    exact eq_comm

/-! ## Objects and sequences -/

/-- Among the keys that are written, none of a call comes twice. -/
def NamedOnce (written : List String) : Prop :=
  ∀ key ∈ ["id", "jsonrpc", "method", "params"], written.count key ≤ 1

theorem namedOnce_iff (written : List String) :
    NamedOnce written ↔
      written.count "id" ≤ 1 ∧ written.count "jsonrpc" ≤ 1 ∧ written.count "method" ≤ 1 ∧
        written.count "params" ≤ 1 := by
  simp [NamedOnce]

theorem decode_object_iff (entries : List (String × Value)) (call : Call) :
    Call.shape.decode (.object entries) = .ok call ↔
      NamedOnce (entries.map (·.1)) ∧ Carries (Value.canonical (.object entries)) call := by
  obtain ⟨fields, hcanonical, hfind⟩ := canonical_object entries
  -- the fields of a call one by one, each with an empty slot at first
  have htakes : Call.fields.Takes entries (Shape.Slots.empty _)
        (call.id, call.jsonrpc, call.method, call.params, ()) ↔
      (Field.defaulted "id" Id.shape.optional none).Takes none (valuesAt "id" entries) call.id ∧
        (Field.defaulted "jsonrpc" Shape.string "").Takes none (valuesAt "jsonrpc" entries)
          call.jsonrpc ∧
        (Field.required "method" Shape.string).Takes none (valuesAt "method" entries)
          call.method ∧
        (Field.defaulted "params" Shape.any .null).Takes none (valuesAt "params" entries)
          call.params ∧ True :=
    Iff.rfl
  rw [Call.shape_decode_eq_ok_iff, Shape.decodeFieldsOf_object_iff (by decide), hcanonical, htakes,
    namedOnce_iff]
  simp only [Field.takes_none_iff, length_valuesAt, holds_id_iff, holds_jsonrpc_iff,
    holds_method_iff, holds_params_iff, ← hfind]
  constructor
  · rintro ⟨⟨hid, id⟩, ⟨hjsonrpc, jsonrpc⟩, ⟨hmethod, method⟩, ⟨hparams, params⟩, -⟩
    exact ⟨⟨hid, hjsonrpc, hmethod, hparams⟩, .object id jsonrpc method params⟩
  · rintro ⟨⟨hid, hjsonrpc, hmethod, hparams⟩, hcarries⟩
    cases hcarries with
    | object id jsonrpc method params =>
      exact ⟨⟨hid, id⟩, ⟨hjsonrpc, jsonrpc⟩, ⟨hmethod, method⟩, ⟨hparams, params⟩, trivial⟩

theorem Carries.length_eq {items : List Value} {call : Call} (h : Carries (.array items) call) :
    items.length = 3 ∨ items.length = 4 := by
  cases h with
  | triple hid => exact .inl rfl
  | quadruple hid => exact .inr rfl

theorem carries_triple_iff (x y z : Value) (call : Call) :
    Carries (.array [x, y, z]) call ↔
      IdOf (some x) call.id ∧ y = .string call.jsonrpc ∧ z = .string call.method ∧
        call.params = .null := by
  constructor
  · intro h
    cases h with
    | triple hid => exact ⟨hid, rfl, rfl, rfl⟩
  · obtain ⟨id, jsonrpc, method, params⟩ := call
    rintro ⟨hid, rfl, rfl, rfl⟩
    exact .triple hid

theorem carries_quadruple_iff (x y z w : Value) (call : Call) :
    Carries (.array [x, y, z, w]) call ↔
      IdOf (some x) call.id ∧ y = .string call.jsonrpc ∧ z = .string call.method ∧
        call.params = w := by
  constructor
  · intro h
    cases h with
    | quadruple hid => exact ⟨hid, rfl, rfl, rfl⟩
  · obtain ⟨id, jsonrpc, method, params⟩ := call
    rintro ⟨hid, rfl, rfl, rfl⟩
    exact .quadruple hid

theorem decode_array_iff (items : List Value) (call : Call) :
    Call.shape.decode (.array items) = .ok call ↔
      Carries (Value.canonical (.array items)) call := by
  have hcanonical : Value.canonical (.array items) = .array (items.map Value.canonical) := by
    rw [Value.canonical, Value.canonicalItems_eq, List.reverse_nil, List.nil_append]
  rw [Call.shape_decode_eq_ok_iff, Shape.decodeFieldsOf_array_iff, hcanonical]
  -- a sequence that ends before the method or goes on after the parameters is no call
  rcases items with _ | ⟨x, _ | ⟨y, _ | ⟨z, _ | ⟨w, _ | ⟨u, items⟩⟩⟩⟩⟩
  · refine ⟨fun h => ?_, fun h => absurd h.length_eq (by simp)⟩
    obtain ⟨-, -, hmethod, -⟩ := h
    cases hmethod
  · refine ⟨fun h => ?_, fun h => absurd h.length_eq (by simp)⟩
    obtain ⟨-, -, hmethod, -⟩ := h
    cases hmethod
  · refine ⟨fun h => ?_, fun h => absurd h.length_eq (by simp)⟩
    obtain ⟨-, -, hmethod, -⟩ := h
    cases hmethod
  · rw [List.map_cons, List.map_cons, List.map_cons, List.map_nil, carries_triple_iff,
      ← optional_id_iff, ← string_iff, ← string_iff]
    show _ ∧ _ ∧ _ ∧ some Value.null = some call.params ∧ [] = [] ↔ _
    rw [Option.some_inj, eq_comm (a := Value.null), and_iff_left (rfl : ([] : List Value) = [])]
    exact Iff.rfl
  · rw [List.map_cons, List.map_cons, List.map_cons, List.map_cons, List.map_nil,
      carries_quadruple_iff, ← optional_id_iff, ← string_iff, ← string_iff]
    show _ ∧ _ ∧ _ ∧ Except.ok w.canonical = .ok call.params ∧ [] = [] ↔ _
    rw [Except.ok.injEq, eq_comm (a := w.canonical),
      and_iff_left (rfl : ([] : List Value) = [])]
    exact Iff.rfl
  · refine ⟨fun h => ?_, fun h => absurd h.length_eq (by simp)⟩
    obtain ⟨-, -, -, -, hsurplus⟩ := h
    cases hsurplus

/-- The keys of an object, as often as they are written. -/
def writtenKeys : Value → List String
  | .object entries => entries.map (·.1)
  | _ => []

/-- Decoding data in the order of the text, against what its canonical form carries. -/
theorem decode_iff_carries (v : Value) (call : Call) :
    Call.shape.decode v = .ok call ↔ NamedOnce (writtenKeys v) ∧ Carries v.canonical call := by
  have hnone : NamedOnce [] := fun key _ => Nat.zero_le 1
  cases v with
  | object entries => exact decode_object_iff entries call
  | array items => exact (decode_array_iff items call).trans (iff_and_self.mpr fun _ => hnone)
  | null => exact ⟨fun h => (by cases h), fun h => (by cases h.2)⟩
  | bool value => exact ⟨fun h => (by cases h), fun h => (by cases h.2)⟩
  | number n => exact ⟨fun h => (by cases h), fun h => (by cases h.2)⟩
  | string text => exact ⟨fun h => (by cases h), fun h => (by cases h.2)⟩

/-! ## Frames -/

/-- The keys at the top level of the body of a frame, as often as they are written there. -/
def topKeys (frame : String) : List String :=
  match Frame.split frame with
  | .error _ => []
  | .ok (_, body) =>
    match Json.whole (Json.tree Json.maxNesting) body with
    | .error _ => []
    | .ok v => writtenKeys v

theorem ofFrame_framing_iff (frame : String) (fault : Frame.FramingFault) :
    Delivery.ofFrame frame = .error (.framing fault) ↔ Frame.split frame = .error fault := by
  unfold Delivery.ofFrame
  split
  · rename_i e hsplit
    rw [hsplit, Except.error.injEq, Except.error.injEq, Frame.Fault.framing.injEq]
  · rename_i length body hsplit
    rw [hsplit]
    cases Call.shape.parse body with
    | error e => simp
    | ok call => simp

theorem decode_framing_iff (frame : String) (fault : Frame.FramingFault) :
    Frame.decode frame = .error (.framing fault) ↔ Frame.split frame = .error fault := by
  unfold Frame.decode
  split
  · rename_i e hsplit
    rw [hsplit, Except.error.injEq, Except.error.injEq, Frame.Fault.framing.injEq]
  · rename_i length body hsplit
    rw [hsplit]
    cases Json.parse body with
    | error e => simp
    | ok call => simp

theorem decode_eq_ok {frame : String} {content : Frame.Content}
    (h : Frame.decode frame = .ok content) :
    ∃ body v, Frame.split frame = .ok (content.length, body) ∧
      Json.whole (Json.tree Json.maxNesting) body = .ok v ∧ content.body = v.canonical := by
  unfold Frame.decode at h
  split at h
  · cases h
  · rename_i length body hsplit
    unfold Json.parse at h
    cases hwhole : Json.whole (Json.tree Json.maxNesting) body with
    | error e =>
      rw [hwhole] at h
      cases h
    | ok v =>
      rw [hwhole] at h
      cases h
      exact ⟨body, v, hsplit, hwhole, rfl⟩

/-- A frame gives a call exactly when its data carries the call and writes no key of a call twice,
and it is ill framed as a call exactly when it is as data. -/
theorem ofFrame_iff_carries (frame : String) :
    (∀ fault, Delivery.ofFrame frame = .error (.framing fault) ↔
        Frame.decode frame = .error (.framing fault)) ∧
      ∀ content, Frame.decode frame = .ok content → ∀ delivery : Delivery,
        Delivery.ofFrame frame = .ok delivery ↔
          NamedOnce (topKeys frame) ∧ Carries content.body delivery.call ∧
            delivery.length = content.length := by
  refine ⟨fun fault => ?_, fun content hdecode delivery => ?_⟩
  · rw [ofFrame_framing_iff, decode_framing_iff]
  · -- the data in the order of the text stands between the body and its canonical form
    obtain ⟨body, v, hsplit, hwhole, hbody⟩ := decode_eq_ok hdecode
    have hkeys : topKeys frame = writtenKeys v := by
      simp only [topKeys, hsplit, hwhole]
    have hframe : Delivery.ofFrame frame = .ok delivery ↔
        Call.shape.parse body = .ok delivery.call ∧ delivery.length = content.length := by
      simp only [Delivery.ofFrame, hsplit]
      cases Call.shape.parse body with
      | error e => simp
      | ok call =>
        obtain ⟨call', length⟩ := delivery
        simp [eq_comm]
    rw [hframe, Shape.parse_eq_ok_iff Call.faithful_shape hwhole, decode_iff_carries, hkeys, hbody,
      and_assoc]

/-- A request with a key that names no field of a call, and without a version. -/
theorem ofFrame_encoded_request :
    Delivery.ofFrame
        (Frame.encode (.object [("id", .int 7), ("method", .string "hover"), ("trace", .null)])) =
      .ok ⟨⟨some (.number 7), "", "hover", .null⟩, 38⟩ := by
  have hplain : (Value.object
      [("id", .int 7), ("method", .string "hover"), ("trace", .null)]).IsPlain := by
    refine .object _ (by decide) ?_
    simp only [List.mem_cons, List.not_mem_nil, or_false, forall_eq_or_imp, forall_eq]
    exact ⟨.int _ (by decide) (by decide), .string _, .null⟩
  have hdecode := Frame.decode_encode_of_le hplain (by decide)
  rw [if_pos (by decide)] at hdecode
  refine ((ofFrame_iff_carries _).2 _ hdecode _).mpr ⟨?_, .object ?_ .absent rfl rfl, rfl⟩
  · rw [namedOnce_iff]
    decide +kernel
  · exact .number 7

end TermLint.Rpc

/-
  TermLint.Proofs.Shape.Inverse

  Shapes whose writing can be undone.  `Inverts` gathers what a shape needs for its
  values to come back, both from their text, where fields stand in the order of
  their declaration, and from their canonical data, where they stand in the order of
  their keys.  It is kept by every way to build a shape from others, so a type has
  it as soon as its fields do.
-/

import Mathlib.Data.List.Nodup
import TermLint.Proofs.Json.RoundTrip
import TermLint.Proofs.Shape.Agreement

namespace TermLint

open Value (IsIntegral orderFields ordered_orderFields)

/-! ## The value at a key of ordered entries -/

theorem Ordered.valuesAt_eq {α : Type} {entries : List (String × α)} (h : Ordered entries)
    (key : String) : valuesAt key entries = (findEntry key entries).toList := by
  induction entries with
  | nil => rfl
  | cons entry entries ih =>
    obtain ⟨other, value⟩ := entry
    obtain ⟨hhead, htail⟩ := List.pairwise_cons.mp h
    by_cases hkey : other = key
    · -- all later keys are larger, so this is the only value
      have hnone : findEntry key entries = none :=
        findEntry_eq_none_of_lt fun e he => hkey ▸ hhead e he
      rw [hkey, valuesAt_cons_self, ih htail, hnone, findEntry_cons_self]
      rfl
    · rw [valuesAt_cons_ne hkey, ih htail, findEntry_cons_of_ne _ _ hkey]

/-- Putting fields in order changes nothing at a key that is written at most once. -/
theorem valuesAt_orderFields {α : Type} {key : String} {fields : List (String × α)}
    (h : (valuesAt key fields).length ≤ 1) :
    valuesAt key (orderFields fields) = valuesAt key fields := by
  rw [(ordered_orderFields fields).valuesAt_eq, findEntry_orderFields]
  match hvalues : valuesAt key fields with
  | [] => rfl
  | [value] => rfl
  | value :: other :: values =>
    rw [hvalues] at h
    exact absurd h (by simp)

namespace Shape

variable {α β σ : Type} {ts : List Type} {depth : Nat}

/-! ## Invertible shapes -/

/-- Every value can be taken back from what is written of it, which nests at most `depth` lists and
objects. -/
structure Inverts (shape : Shape α) (depth : Nat) : Prop where
  faithful : shape.Faithful
  integral : ∀ a, (shape.encode a).IsIntegral
  nesting_le : ∀ a, (shape.encode a).nesting ≤ depth
  decode_encode : ∀ a, shape.decode (shape.encode a) = .ok a
  decode_canonical : ∀ a, shape.decode (shape.encode a).canonical = .ok a

/-- The text of a value holds that value. -/
theorem Inverts.parse_render {shape : Shape α} (h : shape.Inverts depth)
    (hdepth : depth ≤ Json.maxNesting) (a : α) : shape.parse (shape.render a) = .ok a := by
  have hnesting := Nat.le_trans (h.nesting_le a) hdepth
  have hwhole := Json.whole_render (h.integral a) hnesting
  exact (parse_eq_ok_iff h.faithful hwhole a).mpr (h.decode_encode a)

/-- The canonical data of a value holds that value. -/
theorem Inverts.ofValue_toValue {shape : Shape α} (h : shape.Inverts depth) (a : α) :
    shape.ofValue (shape.toValue a) = .ok a :=
  h.decode_canonical a

/-! ## Scalars -/

theorem inverts_string (depth : Nat) : Shape.string.Inverts depth where
  faithful := faithful_string
  integral text := .string text
  nesting_le _ := Nat.zero_le depth
  decode_encode _ := rfl
  decode_canonical _ := rfl

/-- Numbers of a type all of whose values lie in a range of 64 bits. -/
theorem inverts_integer {name : String} {low high : Int} {make : Int → β} {back : β → Int}
    (hlow : Int64.minValue.toInt ≤ low) (hhigh : high < UInt64.size)
    (hrange : ∀ b, low ≤ back b ∧ back b ≤ high) (hback : ∀ b, make (back b) = b) (depth : Nat) :
    ((integer name low high).iso make back).Inverts depth := by
  have hdecode : ∀ b, ((integer name low high).iso make back).decode (.int (back b)) = .ok b := by
    intro b
    simp only [iso, refine, integer, Value.int, integerOf, if_pos (hrange b), hback]
  refine ⟨(faithful_integer name low high).refine _ _, fun b => ?_, fun b => Nat.zero_le depth,
    hdecode, hdecode⟩
  obtain ⟨hl, hh⟩ := hrange b
  exact .int _ (Int.le_trans hlow hl) (Int.lt_of_le_of_lt hh hhigh)

theorem inverts_uint32 (depth : Nat) : Shape.uint32.Inverts depth := by
  refine inverts_integer (by decide) (by decide) (fun n => ⟨Int.natCast_nonneg _, ?_⟩) (fun n => ?_)
    depth
  · have hn := n.toNat_lt
    omega
  · rw [Int.toNat_natCast, UInt32.ofNat_toNat]

theorem inverts_int32 (depth : Nat) : Shape.int32.Inverts depth :=
  inverts_integer (by decide) (by decide) (fun n => ⟨n.minValue_le_toInt, n.toInt_le⟩)
    Int32.ofInt_toInt depth

theorem inverts_int64 (depth : Nat) : Shape.int64.Inverts depth :=
  inverts_integer (by decide) (by decide) (fun n => ⟨n.minValue_le_toInt, n.toInt_le⟩)
    Int64.ofInt_toInt depth

/-! ## Derived shapes -/

theorem Inverts.refine {shape : Shape α} (h : shape.Inverts depth)
    {make : α → Except Mismatch β} {back : β → α} (hback : ∀ b, make (back b) = .ok b) :
    (shape.refine make back).Inverts depth where
  faithful := h.faithful.refine make back
  integral b := h.integral (back b)
  nesting_le b := h.nesting_le (back b)
  decode_encode b := by simp only [Shape.refine, h.decode_encode, hback]
  decode_canonical b := by simp only [Shape.refine, h.decode_canonical, hback]

/-- Nothing is written as `null` but the lack of a value. -/
theorem optional_decode {shape : Shape α} {v : Value} (h : v ≠ .null) :
    shape.optional.decode v =
      match shape.decode v with
      | .error m => .error m
      | .ok a => .ok (some a) := by
  cases v with
  | null => exact absurd rfl h
  | bool value => rfl
  | number n => rfl
  | string text => rfl
  | array items => rfl
  | object fields => rfl

theorem canonical_ne_null {v : Value} (h : v ≠ .null) : v.canonical ≠ .null := by
  cases v with
  | null => exact absurd rfl h
  | bool value => exact h
  | number n => exact h
  | string text => exact h
  | array items => simp [Value.canonical]
  | object fields => simp [Value.canonical]

theorem Inverts.optional {shape : Shape α} (h : shape.Inverts depth)
    (hnull : ∀ a, shape.encode a ≠ .null) : shape.optional.Inverts depth where
  faithful := h.faithful.optional
  integral
    | none => .null
    | some a => h.integral a
  nesting_le
    | none => Nat.zero_le depth
    | some a => h.nesting_le a
  decode_encode
    | none => rfl
    | some a => by
      show shape.optional.decode (shape.encode a) = _
      rw [optional_decode (hnull a), h.decode_encode]
  decode_canonical
    | none => rfl
    | some a => by
      show shape.optional.decode (shape.encode a).canonical = _
      rw [optional_decode (canonical_ne_null (hnull a)), h.decode_canonical]

/-! ## Lists and maps -/

theorem decodeItems_map {decode : Value → Except Mismatch α} {write : α → Value}
    (h : ∀ a, decode (write a) = .ok a) (done items : List α) :
    decodeItems decode done (items.map write) = .ok (done.reverse ++ items) := by
  induction items generalizing done with
  | nil => rw [List.map_nil, decodeItems, List.append_nil]
  | cons a items ih =>
    rw [List.map_cons, decodeItems, h]
    simp only [ih, List.reverse_cons, List.append_assoc, List.singleton_append]

theorem decodeFields_map {decode : Value → Except Mismatch α} {write : α → Value}
    (h : ∀ a, decode (write a) = .ok a) (done entries : List (String × α)) :
    decodeFields decode done (entries.map fun entry => (entry.1, write entry.2)) =
      .ok (done.reverse ++ entries) := by
  induction entries generalizing done with
  | nil => rw [List.map_nil, decodeFields, List.append_nil]
  | cons entry entries ih =>
    obtain ⟨key, a⟩ := entry
    rw [List.map_cons, decodeFields, h]
    simp only [ih, List.reverse_cons, List.append_assoc, List.singleton_append]

theorem Inverts.list {shape : Shape α} (h : shape.Inverts depth) :
    shape.list.Inverts (depth + 1) where
  faithful := h.faithful.list
  integral items := by
    refine .array _ fun v hv => ?_
    obtain ⟨a, -, rfl⟩ := List.mem_map.mp hv
    exact h.integral a
  nesting_le items := by
    refine Nat.succ_le_succ (Value.itemsNesting_le_iff.mpr fun v hv => ?_)
    obtain ⟨a, -, rfl⟩ := List.mem_map.mp hv
    exact h.nesting_le a
  decode_encode items := decodeItems_map h.decode_encode [] items
  decode_canonical items := by
    show shape.list.decode (Value.canonical (.array (items.map shape.encode))) = _
    rw [Value.canonical_array, List.map_map]
    exact decodeItems_map h.decode_canonical [] items

/-- A map is what its entries describe. -/
theorem ofList_entries (d : Dict α) : Dict.ofList d.entries = d := by
  have hfold : ∀ (entries : List (String × α)) (done : Dict α),
      (entries.foldl (fun d entry => d.insert entry.1 entry.2) done).entries =
        entries.foldl (fun done entry => insertEntry entry.1 entry.2 done) done.entries := by
    intro entries
    induction entries with
    | nil => exact fun done => rfl
    | cons entry entries ih => exact fun done => ih (done.insert entry.1 entry.2)
  refine Dict.ext ((hfold d.entries Dict.empty).trans ?_)
  exact Value.orderFields_of_ordered d.ordered

/-- Keys that increase do so whatever the values are. -/
theorem ordered_map {entries : List (String × α)} (h : Ordered entries) (f : α → β) :
    Ordered (entries.map fun entry => (entry.1, f entry.2)) :=
  List.pairwise_map.mpr h

theorem dict_decode_map {shape : Shape α} {write : α → Value}
    (h : ∀ a, shape.decode (write a) = .ok a) (d : Dict α) :
    shape.dict.decode (.object (d.entries.map fun entry => (entry.1, write entry.2))) = .ok d := by
  simp only [Shape.dict, decodeFields_map h, List.reverse_nil, List.nil_append, ofList_entries]

theorem Inverts.dict {shape : Shape α} (h : shape.Inverts depth) :
    shape.dict.Inverts (depth + 1) where
  faithful := h.faithful.dict
  integral d := by
    refine .object _ fun field hfield => ?_
    obtain ⟨entry, -, rfl⟩ := List.mem_map.mp hfield
    exact h.integral entry.2
  nesting_le d := by
    refine Nat.succ_le_succ (Value.fieldsNesting_le_iff.mpr fun field hfield => ?_)
    obtain ⟨entry, -, rfl⟩ := List.mem_map.mp hfield
    exact h.nesting_le entry.2
  decode_encode d := dict_decode_map h.decode_encode d
  decode_canonical d := by
    -- the keys of a map are in order already
    have hordered := ordered_map d.ordered fun a => (shape.encode a).canonical
    have hcanonical : (shape.dict.encode d).canonical =
        .object (d.entries.map fun entry => (entry.1, (shape.encode entry.2).canonical)) := by
      show Value.canonical
        (.object (d.entries.map fun entry => (entry.1, shape.encode entry.2))) = _
      rw [Value.canonical_object, List.map_map]
      exact congrArg Value.object (Value.orderFields_of_ordered hordered)
    rw [hcanonical]
    exact dict_decode_map h.decode_canonical d

/-! ## Fields -/

/-- A field whose values come back, those with which it is left out included. -/
structure Field.Inverts (field : Field α) (depth : Nat) : Prop where
  shape : field.shape.Inverts depth
  absent_of_hidden : ∀ a, field.hidden a = true → field.absent = some a

namespace Field.Inverts

variable {shape : Shape α} {name : String}

theorem required (h : shape.Inverts depth) : (Field.required name shape).Inverts depth :=
  ⟨h, fun _ hhidden => by cases hhidden⟩

theorem defaulted {default : α} (h : shape.Inverts depth) :
    (Field.defaulted name shape default).Inverts depth :=
  ⟨h, fun _ hhidden => by cases hhidden⟩

theorem optional (h : shape.optional.Inverts depth) : (Field.optional name shape).Inverts depth :=
  ⟨h, fun _ hhidden => by cases hhidden⟩

/-- A field may be left out for want of a value when its key may be missing for the same reason. -/
theorem omitted {field : Field (Option α)} (h : field.Inverts depth)
    (habsent : field.absent = some none) : field.omitted.Inverts depth := by
  refine ⟨h.shape, fun a hhidden => ?_⟩
  rw [Option.isNone_iff_eq_none.mp hhidden]
  exact habsent

end Field.Inverts

/-- Every field inverts. -/
def Fields.Invert (depth : Nat) : {ts : List Type} → Fields ts → Prop
  | _, .nil => True
  | _, .cons field rest => field.Inverts depth ∧ rest.Invert depth

namespace Fields

variable {fields : Fields ts}

theorem Invert.faithful (h : fields.Invert depth) : fields.Faithful := by
  induction fields with
  | nil => trivial
  | cons field fields ih => exact ⟨h.1.shape.faithful, ih h.2⟩

/-- What is written of a row is small and integral, as what is written of each value. -/
theorem Invert.of_mem_encode (h : fields.Invert depth) {row : Row ts} {entry : String × Value}
    (hmem : entry ∈ fields.encode row) : entry.2.IsIntegral ∧ entry.2.nesting ≤ depth := by
  induction fields with
  | nil => cases hmem
  | cons field fields ih =>
    obtain ⟨a, row⟩ := row
    obtain ⟨hfield, hmore⟩ := h
    rw [encode] at hmem
    split at hmem
    · exact ih hmore hmem
    · rcases List.mem_cons.mp hmem with rfl | hmem
      · exact ⟨hfield.shape.integral a, hfield.shape.nesting_le a⟩
      · exact ih hmore hmem

/-- The keys that are written are those of the fields, some left out. -/
theorem keys_encode_sublist (fields : Fields ts) (row : Row ts) :
    ((fields.encode row).map (·.1)).Sublist fields.names := by
  induction fields with
  | nil => exact List.Sublist.slnil
  | cons field fields ih =>
    obtain ⟨a, row⟩ := row
    rw [encode]
    split
    · exact (ih row).cons field.name
    · exact (ih row).cons_cons field.name

theorem valuesAt_encode_of_not_mem {row : Row ts} {key : String} (h : key ∉ fields.names) :
    valuesAt key (fields.encode row) = [] := by
  rw [← List.length_eq_zero_iff, length_valuesAt, List.count_eq_zero]
  exact fun hmem => h ((keys_encode_sublist fields row).subset hmem)

theorem length_valuesAt_encode_le (hnames : fields.names.Nodup) (row : Row ts) (key : String) :
    (valuesAt key (fields.encode row)).length ≤ 1 := by
  rw [length_valuesAt]
  exact List.nodup_iff_count_le_one.mp (hnames.sublist (keys_encode_sublist fields row)) key

/-- Each field takes its own value back from entries in any order, in which the value may have been
changed to another form that it can be taken from. -/
theorem takes_encode (f : Value → Value) (hnames : fields.names.Nodup) (h : fields.Invert depth)
    (hform : ∀ {α : Type} {field : Field α}, field.Inverts depth →
      ∀ a, field.shape.decode (f (field.shape.encode a)) = .ok a)
    {entries : List (String × Value)} {row : Row ts}
    (hentries : ∀ key ∈ fields.names,
      valuesAt key entries = (valuesAt key (fields.encode row)).map f) :
    fields.Takes entries (Slots.empty ts) row := by
  induction fields with
  | nil => trivial
  | cons field fields ih =>
    obtain ⟨a, row⟩ := row
    obtain ⟨hname, hmore⟩ := List.nodup_cons.mp hnames
    obtain ⟨hfield, hrest⟩ := h
    refine ⟨?_, ih hmore hrest fun key hkey => ?_⟩
    · rw [hentries field.name List.mem_cons_self, encode]
      split
      · rename_i hhidden
        rw [valuesAt_encode_of_not_mem hname]
        exact hfield.absent_of_hidden a hhidden
      · rw [valuesAt_cons_self, valuesAt_encode_of_not_mem hname]
        exact hform hfield a
    · -- the first field does not write the key of a later one
      have hne : field.name ≠ key := fun heq => hname (heq ▸ hkey)
      rw [hentries key (List.mem_cons_of_mem _ hkey), encode]
      split
      · rfl
      · rw [valuesAt_cons_ne hne]

end Fields

/-! ## Records -/

theorem inverts_row {fields : Fields ts} (hnames : fields.names.Nodup)
    (h : fields.Invert depth) (name : String) : (row name fields).Inverts (depth + 1) where
  faithful := faithful_row h.faithful name
  integral values := .object _ fun _ hentry => (h.of_mem_encode hentry).1
  nesting_le values :=
    Nat.succ_le_succ
      (Value.fieldsNesting_le_iff.mpr fun _ hentry => (h.of_mem_encode hentry).2)
  decode_encode values := by
    refine (decodeFieldsOf_object_iff hnames name _ values).mpr ?_
    refine Fields.takes_encode id hnames h (fun hfield a => hfield.shape.decode_encode a) ?_
    exact fun key _ => (List.map_id _).symm
  decode_canonical values := by
    show decodeFieldsOf name fields (Value.canonical (.object (fields.encode values))) = _
    rw [Value.canonical_object]
    refine (decodeFieldsOf_object_iff hnames name _ values).mpr ?_
    refine Fields.takes_encode Value.canonical hnames h
      (fun hfield a => hfield.shape.decode_canonical a) fun key _ => ?_
    have hlength := Fields.length_valuesAt_encode_le hnames values key
    rw [valuesAt_orderFields (by rw [valuesAt_map, List.length_map]; exact hlength), valuesAt_map]

theorem inverts_record {fields : Fields ts} {toRow : σ → Row ts} {ofRow : Row ts → σ}
    {name : String} (hnames : fields.names.Nodup) (hback : ∀ s, ofRow (toRow s) = s)
    (h : fields.Invert depth) : (record name fields toRow ofRow).Inverts (depth + 1) :=
  (inverts_row hnames h name).refine fun s => congrArg Except.ok (hback s)

/-- A record is never written as `null`. -/
theorem record_encode_ne_null {fields : Fields ts} {toRow : σ → Row ts} {ofRow : Row ts → σ}
    {name : String} (s : σ) : (record name fields toRow ofRow).encode s ≠ .null := by
  intro h
  cases h

end Shape
end TermLint

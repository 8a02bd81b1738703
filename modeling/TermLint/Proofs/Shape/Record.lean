/-
  TermLint.Proofs.Shape.Record

  What a record takes from data, field by field.  The slots of an object are filled
  in the order of its entries, but the outcome does not depend on it: a field has
  the value at its key, which comes at most once, or the value of an absent field.
  A sequence gives its items to the fields in turn.
-/

import TermLint.Shape.Record

namespace TermLint

/-! ## The values at a key -/

variable {α β : Type}

/-- All values at a key, in order. -/
def valuesAt (key : String) (entries : List (String × α)) : List α :=
  (entries.filter fun entry => entry.1 == key).map (·.2)

theorem valuesAt_cons_self (key : String) (value : α) (entries : List (String × α)) :
    valuesAt key ((key, value) :: entries) = value :: valuesAt key entries := by
  simp only [valuesAt, List.filter_cons, beq_self_eq_true, if_true, List.map_cons]

theorem valuesAt_cons_ne {key other : String} (h : other ≠ key) (value : α)
    (entries : List (String × α)) :
    valuesAt key ((other, value) :: entries) = valuesAt key entries := by
  simp only [valuesAt, List.filter_cons, beq_eq_false_iff_ne.mpr h, Bool.false_eq_true, if_false]

/-- As many values as the key is written. -/
theorem length_valuesAt (key : String) (entries : List (String × α)) :
    (valuesAt key entries).length = (entries.map (·.1)).count key := by
  rw [valuesAt, List.length_map, List.count_eq_countP, List.countP_map,
    List.countP_eq_length_filter]
  rfl

theorem valuesAt_map (f : α → β) (key : String) (entries : List (String × α)) :
    valuesAt key (entries.map fun entry => (entry.1, f entry.2)) =
      (valuesAt key entries).map f := by
  induction entries with
  | nil => rfl
  | cons entry entries ih =>
    obtain ⟨other, value⟩ := entry
    rw [List.map_cons]
    by_cases h : other = key
    · rw [h, valuesAt_cons_self, valuesAt_cons_self, ih, List.map_cons]
    · rw [valuesAt_cons_ne h, valuesAt_cons_ne h, ih]

/-- In the order of keys, a key has the last of its values. -/
theorem findEntry_foldl_insertEntry {done : List (String × α)} (h : Ordered done) (key : String)
    (fields : List (String × α)) :
    findEntry key (fields.foldl (fun done field => insertEntry field.1 field.2 done) done) =
      ((valuesAt key fields).getLast? <|> findEntry key done) := by
  induction fields generalizing done with
  | nil => rfl
  | cons field fields ih =>
    obtain ⟨other, value⟩ := field
    rw [List.foldl_cons, ih (ordered_insertEntry other value h),
      findEntry_insertEntry other value done key h]
    -- a later value at the key is found in the rest, else this one has replaced the one before
    by_cases hkey : other = key
    · rw [if_pos hkey, hkey, valuesAt_cons_self, List.getLast?_cons]
      cases (valuesAt key fields).getLast? with
      | none => rfl
      | some last => rfl
    · rw [if_neg hkey, valuesAt_cons_ne hkey]

theorem findEntry_orderFields (key : String) (fields : List (String × α)) :
    findEntry key (Value.orderFields fields) = (valuesAt key fields).getLast? := by
  rw [Value.orderFields, findEntry_foldl_insertEntry List.Pairwise.nil]
  show ((valuesAt key fields).getLast? <|> none) = _
  cases (valuesAt key fields).getLast? with
  | none => rfl
  | some last => rfl

namespace Shape

variable {ts : List Type}

/-! ## Fields -/

/-- What a field comes to, from its slot and the values at its key: a key comes once, and not after
its slot is filled. -/
def Field.Takes (field : Field α) : Option α → List Value → α → Prop
  | some b, [], a => b = a
  | none, [], a => field.absent = some a
  | none, [v], a => field.shape.decode v = .ok a
  | _, _, _ => False

/-- The first value at a key fills the slot, and no other may follow. -/
theorem Field.takes_none_cons_iff (field : Field α) (v : Value) (values : List Value) (a : α) :
    field.Takes none (v :: values) a ↔
      ∃ b, field.shape.decode v = .ok b ∧ field.Takes (some b) values a := by
  cases values with
  | nil => simp only [Takes, exists_eq_right]
  | cons other values => simp only [Takes, and_false, exists_false]

/-- What a field comes to from the value at its key, if there is one. -/
def Field.Holds (field : Field α) : Option Value → α → Prop
  | none, a => field.absent = some a
  | some v, a => field.shape.decode v = .ok a

theorem Field.takes_none_iff (field : Field α) (values : List Value) (a : α) :
    field.Takes none values a ↔ values.length ≤ 1 ∧ field.Holds values.getLast? a := by
  match values with
  | [] => simp [Takes, Holds]
  | [v] => simp [Takes, Holds]
  | v :: w :: values => simp [Takes]

namespace Fields

/-- The keys of the fields. -/
def names : {ts : List Type} → Fields ts → List String
  | _, .nil => []
  | _, .cons field rest => field.name :: rest.names

/-- What a row comes to, from slots and the entries of an object. -/
def Takes (entries : List (String × Value)) :
    {ts : List Type} → Fields ts → Slots ts → Row ts → Prop
  | _, .nil, (), () => True
  | _, .cons field rest, (slot, more), (a, row) =>
    field.Takes slot (valuesAt field.name entries) a ∧ rest.Takes entries more row

/-- An entry that names no field makes no difference. -/
theorem takes_cons_of_not_mem {fields : Fields ts} {key : String} (hkey : key ∉ fields.names)
    (v : Value) (entries : List (String × Value)) (slots : Slots ts) (row : Row ts) :
    fields.Takes ((key, v) :: entries) slots row ↔ fields.Takes entries slots row := by
  induction fields with
  | nil => exact Iff.rfl
  | cons field fields ih =>
    obtain ⟨hne, hmore⟩ := List.ne_and_not_mem_of_not_mem_cons hkey
    obtain ⟨slot, more⟩ := slots
    obtain ⟨a, row⟩ := row
    rw [Takes, Takes, valuesAt_cons_ne hne, ih hmore]

/-- At the end of an object each field has the value of its slot or that of an absent field. -/
theorem takes_nil_iff (fields : Fields ts) (slots : Slots ts) (row : Row ts) :
    fields.Takes [] slots row ↔ fields.close slots = .ok row := by
  induction fields with
  | nil => exact ⟨fun _ => rfl, fun _ => trivial⟩
  | cons field fields ih =>
    obtain ⟨slot, more⟩ := slots
    obtain ⟨a, row⟩ := row
    rw [Takes, ih, close]
    show (field.Takes slot [] a ∧ _) ↔ _
    have hslot : field.Takes slot [] a ↔ (slot <|> field.absent) = some a := by
      cases slot with
      | none => exact Iff.rfl
      | some b => exact Option.some_inj.symm
    rw [hslot]
    cases (slot <|> field.absent) with
    | none => simp
    | some b =>
      cases fields.close more with
      | error m => simp
      | ok row' => simp

/-- One entry: its key is refused or fills a slot. -/
theorem takes_cons_iff {fields : Fields ts} (hnames : fields.names.Nodup) (key : String)
    (v : Value) (entries : List (String × Value)) (slots : Slots ts) (row : Row ts) :
    fields.Takes ((key, v) :: entries) slots row ↔
      ∃ slots', fields.fill key v slots = .ok slots' ∧ fields.Takes entries slots' row := by
  induction fields with
  | nil => exact ⟨fun _ => ⟨(), rfl, trivial⟩, fun _ => trivial⟩
  | cons field fields ih =>
    obtain ⟨hname, hmore⟩ := List.nodup_cons.mp hnames
    obtain ⟨slot, more⟩ := slots
    obtain ⟨a, row⟩ := row
    simp only [Takes, fill]
    by_cases hkey : key = field.name
    · -- this field takes the value, and `hname` keeps it from all later ones
      subst hkey
      rw [if_pos rfl, valuesAt_cons_self, takes_cons_of_not_mem hname]
      cases slot with
      | some b => simp [Field.Takes]
      | none =>
        rw [Field.takes_none_cons_iff]
        cases field.shape.decode v with
        | error m => simp
        | ok b => simp
    · rw [if_neg hkey, valuesAt_cons_ne hkey, ih hmore]
      cases fields.fill key v more with
      | error m => simp
      | ok more' => simp

/-- All entries of an object, by induction on them. -/
theorem takes_iff {fields : Fields ts} (hnames : fields.names.Nodup)
    (entries : List (String × Value)) (slots : Slots ts) (row : Row ts) :
    fields.Takes entries slots row ↔
      ∃ slots', fields.fillAll slots entries = .ok slots' ∧ fields.close slots' = .ok row := by
  induction entries generalizing slots with
  | nil =>
    rw [takes_nil_iff]
    constructor
    · intro hclose
      exact ⟨slots, rfl, hclose⟩
    · rintro ⟨slots', hfill, hclose⟩
      cases hfill
      exact hclose
  | cons entry entries ih =>
    obtain ⟨key, v⟩ := entry
    rw [takes_cons_iff hnames, fillAll]
    cases fields.fill key v slots with
    | error m => simp
    | ok slots' => simp [ih]

end Fields

/-- A record is taken from an object exactly when each of its fields is. -/
theorem decodeFieldsOf_object_iff {fields : Fields ts} (hnames : fields.names.Nodup)
    (name : String) (entries : List (String × Value)) (row : Row ts) :
    decodeFieldsOf name fields (.object entries) = .ok row ↔
      fields.Takes entries (Slots.empty ts) row := by
  rw [Fields.takes_iff hnames, decodeFieldsOf]
  cases fields.fillAll (Slots.empty ts) entries with
  | error m => simp
  | ok slots => simp

/-! ## Sequences -/

/-- A row of which nothing is left over. -/
def exactRow (surplus : Mismatch) (taken : Except Mismatch (Row ts × List Value)) :
    Except Mismatch (Row ts) :=
  match taken with
  | .error m => .error m
  | .ok (row, []) => .ok row
  | .ok (_, _ :: _) => .error surplus

theorem exactRow_eq_ok_iff {surplus : Mismatch} {held : Except Mismatch (Row ts × List Value)}
    {row : Row ts} : exactRow surplus held = .ok row ↔ held = .ok (row, []) := by
  rcases held with m | ⟨row', left⟩
  · simp [exactRow]
  · cases left with
    | nil => simp [exactRow]
    | cons item items => simp [exactRow]

/-- What a row comes to from the items of a sequence: one item for each field, or the value of a
field that the sequence does not reach. -/
def Fields.Lists : {ts : List Type} → Fields ts → List Value → Row ts → Prop
  | _, .nil, items, () => items = []
  | _, .cons field rest, [], (a, row) => field.vacant = some a ∧ rest.Lists [] row
  | _, .cons field rest, v :: items, (a, row) =>
    field.shape.decode v = .ok a ∧ rest.Lists items row

theorem Fields.lists_iff (fields : Fields ts) (expected : String) (index : Nat)
    (items : List Value) (row : Row ts) :
    fields.Lists items row ↔ fields.decodeRow expected index items = .ok (row, []) := by
  induction fields generalizing index items with
  | nil => simp [Lists, decodeRow]
  | cons field fields ih =>
    obtain ⟨a, row⟩ := row
    cases items with
    | nil =>
      rw [Lists, decodeRow, ih (index + 1) []]
      cases field.vacant with
      | none => simp
      | some b =>
        rcases decodeRow expected fields (index + 1) [] with m | ⟨row', left⟩
        · simp
        · simp [and_assoc]
    | cons v items =>
      rw [Lists, decodeRow, ih (index + 1) items]
      cases field.shape.decode v with
      | error m => simp
      | ok b =>
        rcases decodeRow expected fields (index + 1) items with m | ⟨row', left⟩
        · simp
        · simp [and_assoc]

theorem decodeFieldsOf_array (name : String) (fields : Fields ts) (items : List Value) :
    decodeFieldsOf name fields (.array items) =
      exactRow (.length items.length "fewer elements in array")
        (fields.decodeRow (rowExpected name fields.size) 0 items) :=
  rfl

/-- A record is taken from a sequence exactly when its items are those of the fields. -/
theorem decodeFieldsOf_array_iff (name : String) (fields : Fields ts) (items : List Value)
    (row : Row ts) :
    decodeFieldsOf name fields (.array items) = .ok row ↔ fields.Lists items row := by
  rw [decodeFieldsOf_array, exactRow_eq_ok_iff, ← Fields.lists_iff]

theorem record_decode_eq_ok_iff {name : String} {fields : Fields ts} {toRow : β → Row ts}
    {ofRow : Row ts → β} (v : Value) (b : β) :
    (record name fields toRow ofRow).decode v = .ok b ↔
      ∃ row, decodeFieldsOf name fields v = .ok row ∧ ofRow row = b := by
  simp only [record, iso, refine, Shape.row]
  cases decodeFieldsOf name fields v with
  | error m => simp
  | ok row => simp

end Shape
end TermLint

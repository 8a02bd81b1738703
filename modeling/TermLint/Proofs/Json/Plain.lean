/-
  TermLint.Proofs.Json.Plain

  Plain values: all numbers are integers of 64 bits, and the fields of every object
  stand in the order of their keys, each key once.  They are their own canonical
  form.  Integral values have the same numbers and their fields in any order; the
  canonical form of an integral value is plain and nests no deeper.
-/

import TermLint.Value

namespace TermLint

/-! ## Ordered fields -/

instance {α : Type} (entries : List (String × α)) : Decidable (Ordered entries) :=
  inferInstanceAs (Decidable (entries.Pairwise fun a b => a.1 < b.1))

theorem insertEntry_of_lt {α : Type} {key : String} {value : α} {entries : List (String × α)}
    (h : ∀ entry ∈ entries, entry.1 < key) :
    insertEntry key value entries = entries ++ [(key, value)] := by
  induction entries with
  | nil => rfl
  | cons entry entries ih =>
    have hlt : entry.1 < key := h entry List.mem_cons_self
    have hnot : ¬ key < entry.1 := fun hk => String.lt_irrefl _ (String.lt_trans hk hlt)
    have hne : key ≠ entry.1 := fun heq => String.lt_irrefl _ (heq ▸ hlt)
    rw [insertEntry, if_neg hnot, if_neg hne, ih fun e he => h e (List.mem_cons_of_mem _ he)]
    rfl

namespace Value

theorem foldl_insertEntry_of_ordered {α : Type} {done fields : List (String × α)}
    (h : Ordered (done ++ fields)) :
    fields.foldl (fun done field => insertEntry field.1 field.2 done) done = done ++ fields := by
  induction fields generalizing done with
  | nil => rw [List.foldl_nil, List.append_nil]
  | cons field fields ih =>
    -- the next key is above all that were put in, so it is put at the end
    have hlast : ∀ entry ∈ done, entry.1 < field.1 := by
      intro entry hentry
      exact (List.pairwise_append.mp h).2.2 entry hentry field List.mem_cons_self
    have hsplit : done ++ [field] ++ fields = done ++ field :: fields := by
      rw [List.append_assoc, List.singleton_append]
    rw [List.foldl_cons, insertEntry_of_lt hlast, ih (hsplit ▸ h), hsplit]

theorem orderFields_of_ordered {α : Type} {fields : List (String × α)} (h : Ordered fields) :
    orderFields fields = fields :=
  foldl_insertEntry_of_ordered h

theorem mem_insertEntry {α : Type} {key : String} {value : α} {entries : List (String × α)}
    {entry : String × α} (h : entry ∈ insertEntry key value entries) :
    entry = (key, value) ∨ entry ∈ entries := by
  induction entries with
  | nil => exact .inl (List.mem_singleton.mp h)
  | cons first entries ih =>
    rw [insertEntry] at h
    split at h
    · exact List.mem_cons.mp h
    · split at h
      · rcases List.mem_cons.mp h with h | h
        · exact .inl h
        · exact .inr (List.mem_cons_of_mem _ h)
      · rcases List.mem_cons.mp h with h | h
        · exact .inr (h ▸ List.mem_cons_self)
        · exact (ih h).imp_right (List.mem_cons_of_mem _)

/-- Ordering fields adds none. -/
theorem mem_of_mem_orderFields {α : Type} {fields : List (String × α)} {field : String × α}
    (h : field ∈ orderFields fields) : field ∈ fields := by
  have hfold : ∀ (fields done : List (String × α)),
      field ∈ fields.foldl (fun done field => insertEntry field.1 field.2 done) done →
        field ∈ fields ∨ field ∈ done := by
    intro fields
    induction fields with
    | nil => exact fun done h => .inr h
    | cons first fields ih =>
      intro done h
      rcases ih _ h with h | h
      · exact .inl (List.mem_cons_of_mem _ h)
      · rcases mem_insertEntry h with h | h
        · exact .inl (h ▸ List.mem_cons_self)
        · exact .inr h
  exact (hfold fields [] h).resolve_right List.not_mem_nil

theorem ordered_orderFields {α : Type} (fields : List (String × α)) :
    Ordered (orderFields fields) := by
  have hfold : ∀ (fields done : List (String × α)), Ordered done →
      Ordered (fields.foldl (fun done field => insertEntry field.1 field.2 done) done) := by
    intro fields
    induction fields with
    | nil => exact fun done h => h
    | cons field fields ih => exact fun done h => ih _ (ordered_insertEntry field.1 field.2 h)
  exact hfold fields [] List.Pairwise.nil

/-! ## Canonical form -/

theorem canonical_array (items : List Value) :
    canonical (.array items) = .array (items.map canonical) := by
  rw [canonical, canonicalItems_eq, List.reverse_nil, List.nil_append]

theorem canonical_object (fields : List (String × Value)) :
    canonical (.object fields) =
      .object (orderFields (fields.map fun field => (field.1, field.2.canonical))) := by
  rw [canonical, canonicalFields_eq, List.reverse_nil, List.nil_append]

/-! ## Plain values -/

/-- All numbers are integers of 64 bits, signed or unsigned, and the keys of every object increase
strictly. -/
inductive IsPlain : Value → Prop where
  | null : IsPlain .null
  | bool (value : Bool) : IsPlain (.bool value)
  | int (value : Int) (low : Int64.minValue.toInt ≤ value) (high : value < UInt64.size) :
      IsPlain (.number (.int value))
  | string (value : String) : IsPlain (.string value)
  | array (items : List Value) (items_plain : ∀ item ∈ items, IsPlain item) :
      IsPlain (.array items)
  | object (fields : List (String × Value)) (ordered : Ordered fields)
      (values_plain : ∀ field ∈ fields, IsPlain field.2) : IsPlain (.object fields)

/-- A plain value is its own canonical form. -/
theorem IsPlain.canonical_eq {v : Value} (h : v.IsPlain) : v.canonical = v := by
  induction h with
  | null => rfl
  | bool value => rfl
  | int value low high => rfl
  | string value => rfl
  | array items items_plain ih =>
    have hmap : items.map canonical = items := by
      rw [List.map_congr_left ih, List.map_id']
    rw [canonical_array, hmap]
  | object fields ordered values_plain ih =>
    have hmap : (fields.map fun field => (field.1, field.2.canonical)) = fields := by
      have hcongr : ∀ field ∈ fields, (field.1, field.2.canonical) = field :=
        fun field hfield => by rw [ih field hfield]
      rw [List.map_congr_left hcongr, List.map_id']
    rw [canonical_object, hmap, orderFields_of_ordered ordered]

/-! ## Integral values -/

/-- All numbers are integers of 64 bits, signed or unsigned. -/
inductive IsIntegral : Value → Prop where
  | null : IsIntegral .null
  | bool (value : Bool) : IsIntegral (.bool value)
  | int (value : Int) (low : Int64.minValue.toInt ≤ value) (high : value < UInt64.size) :
      IsIntegral (.number (.int value))
  | string (value : String) : IsIntegral (.string value)
  | array (items : List Value) (items_integral : ∀ item ∈ items, IsIntegral item) :
      IsIntegral (.array items)
  | object (fields : List (String × Value))
      (values_integral : ∀ field ∈ fields, IsIntegral field.2) : IsIntegral (.object fields)

theorem IsPlain.isIntegral {v : Value} (h : v.IsPlain) : v.IsIntegral := by
  induction h with
  | null => exact .null
  | bool value => exact .bool value
  | int value low high => exact .int value low high
  | string value => exact .string value
  | array items items_plain ih => exact .array items ih
  | object fields ordered values_plain ih => exact .object fields ih

/-- Putting the fields in order makes an integral value plain. -/
theorem IsIntegral.isPlain_canonical {v : Value} (h : v.IsIntegral) : v.canonical.IsPlain := by
  induction h with
  | null => exact .null
  | bool value => exact .bool value
  | int value low high => exact .int value low high
  | string value => exact .string value
  | array items items_integral ih =>
    rw [canonical_array]
    refine .array _ fun item hmem => ?_
    obtain ⟨original, horiginal, rfl⟩ := List.mem_map.mp hmem
    exact ih original horiginal
  | object fields values_integral ih =>
    rw [canonical_object]
    refine .object _ (ordered_orderFields _) fun field hmem => ?_
    obtain ⟨original, horiginal, rfl⟩ := List.mem_map.mp (mem_of_mem_orderFields hmem)
    exact ih original horiginal

/-! ## Nesting -/

theorem itemsNesting_cons_le {item : Value} {rest : List Value} {n : Nat} :
    itemsNesting (item :: rest) ≤ n ↔ item.nesting ≤ n ∧ itemsNesting rest ≤ n := by
  rw [itemsNesting, Nat.max_le]

theorem fieldsNesting_cons_le {key : String} {value : Value} {rest : List (String × Value)}
    {n : Nat} :
    fieldsNesting ((key, value) :: rest) ≤ n ↔ value.nesting ≤ n ∧ fieldsNesting rest ≤ n := by
  rw [fieldsNesting, Nat.max_le]

theorem itemsNesting_le_iff {items : List Value} {n : Nat} :
    itemsNesting items ≤ n ↔ ∀ item ∈ items, item.nesting ≤ n := by
  induction items with
  | nil => simp [itemsNesting]
  | cons item items ih => rw [itemsNesting_cons_le, ih, List.forall_mem_cons]

theorem fieldsNesting_le_iff {fields : List (String × Value)} {n : Nat} :
    fieldsNesting fields ≤ n ↔ ∀ field ∈ fields, field.2.nesting ≤ n := by
  induction fields with
  | nil => simp [fieldsNesting]
  | cons field fields ih =>
    obtain ⟨key, value⟩ := field
    rw [fieldsNesting_cons_le, ih, List.forall_mem_cons]

/-- Putting the fields in order nests nothing deeper. -/
theorem IsIntegral.nesting_canonical_le {v : Value} (h : v.IsIntegral) :
    v.canonical.nesting ≤ v.nesting := by
  induction h with
  | null => exact Nat.le_refl 0
  | bool value => exact Nat.le_refl 0
  | int value low high => exact Nat.le_refl 0
  | string value => exact Nat.le_refl 0
  | array items items_integral ih =>
    have hitems := itemsNesting_le_iff.mp (Nat.le_refl (itemsNesting items))
    rw [canonical_array, nesting, nesting]
    refine Nat.succ_le_succ (itemsNesting_le_iff.mpr fun item hmem => ?_)
    obtain ⟨original, horiginal, rfl⟩ := List.mem_map.mp hmem
    exact Nat.le_trans (ih original horiginal) (hitems original horiginal)
  | object fields values_integral ih =>
    have hfields := fieldsNesting_le_iff.mp (Nat.le_refl (fieldsNesting fields))
    rw [canonical_object, nesting, nesting]
    refine Nat.succ_le_succ (fieldsNesting_le_iff.mpr fun field hmem => ?_)
    obtain ⟨original, horiginal, rfl⟩ := List.mem_map.mp (mem_of_mem_orderFields hmem)
    exact Nat.le_trans (ih original horiginal) (hfields original horiginal)

end Value
end TermLint

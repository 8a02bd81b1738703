/-
  TermLint.Proofs.Shape.Agreement

  Reading a text directly and reading it as data first.  A shape is faithful when,
  on every text that holds data, its reader takes what the data decodes to, or
  refuses the text when the data is refused.  The faults may differ.
-/

import TermLint.Proofs.Json.Passing
import TermLint.Proofs.Shape.Record

namespace TermLint.Shape

open Text (Reader)
open Json (Fault Taken TreeRead ItemsRead FieldsRead treeRead_of_tree)

variable {α β σ : Type} {s rest : List Char} {v : Value}

/-- A reader takes what the data holds, up to `rest`, or both refuse. -/
def Agree (held : Except Mismatch α) (rest : List Char) (taken : Taken α) : Prop :=
  (∃ a, held = .ok a ∧ taken = .ok (a, rest)) ∨ (∃ m e, held = .error m ∧ taken = .error e)

/-- Reading a text agrees with decoding the data in it. -/
def Faithful (shape : Shape α) : Prop :=
  ∀ ⦃levels : Nat⦄ ⦃s rest : List Char⦄ ⦃v : Value⦄, (Json.tree levels).run s = .ok (v, rest) →
    Agree (shape.decode v) rest ((shape.read levels).run s)

theorem agree_ok (a : α) (rest : List Char) : Agree (.ok a) rest (.ok (a, rest)) :=
  .inl ⟨a, rfl, rfl⟩

theorem agree_error (m : Mismatch) (rest : List Char) (e : Fault) :
    Agree (.error m : Except Mismatch α) rest (.error e) :=
  .inr ⟨m, e, rfl, rfl⟩

/-- A judgement of what was read may stand on either side. -/
theorem agree_check {held : Except Mismatch α} {reader : Reader Fault α}
    (make : α → Except Mismatch β) :
    Agree held rest (reader.run s) →
      Agree (match held with | .error m => .error m | .ok a => make a) rest
        ((reader.check fun a => inText (make a)).run s) := by
  rintro (⟨a, hheld, htaken⟩ | ⟨m, e, hheld, htaken⟩)
  · simp only [Reader.check, hheld, htaken]
    cases make a with
    | error m => exact agree_error m rest _
    | ok b => exact agree_ok b rest
  · simp only [Reader.check, hheld, htaken]
    exact agree_error m rest e

/-! ## Scalars -/

/-- What begins with another character than a scalar does is refused. -/
theorem agree_leaf_refused {expected : String} {starts : Char → Bool} {body : Reader Fault α}
    {c : Char} {t : List Char} (m : Mismatch) (hs : Json.skipBlanks s = c :: t)
    (hc : starts c = false) : Agree (.error m) rest ((leaf expected starts body).run s) := by
  have hrun : (leaf expected starts body).run s = .error (unexpected expected (c :: t)) := by
    simp only [leaf, hs, hc, Bool.false_eq_true, if_false]
  rw [hrun]
  exact agree_error m rest _

theorem faithful_string : Shape.string.Faithful := by
  intro levels s rest v h
  have hform := treeRead_of_tree h
  generalize hs : Json.skipBlanks s = u at hform
  -- all forms but one begin with another character than a quote
  cases hform with
  | @string _ t _ text taken =>
    have hrun : (Shape.string.read levels).run s = .ok (text, rest) := by
      simp only [Shape.string, leaf, hs, beq_self_eq_true, if_true, quotedText, taken]
    rw [hrun]
    exact agree_ok text rest
  | number starts taken =>
    exact agree_leaf_refused _ hs (beq_eq_false_iff_ne.mpr (Json.ne_of_startsNumber starts rfl))
  | null letters => exact agree_leaf_refused _ hs rfl
  | yes letters => exact agree_leaf_refused _ hs rfl
  | no letters => exact agree_leaf_refused _ hs rfl
  | array inside => exact agree_leaf_refused _ hs rfl
  | object inside => exact agree_leaf_refused _ hs rfl

theorem faithful_integer (name : String) (low high : Int) :
    (integer name low high).Faithful := by
  intro levels s rest v h
  have hform := treeRead_of_tree h
  generalize hs : Json.skipBlanks s = u at hform
  cases hform with
  | @number _ c t _ n starts taken =>
    let reader : Reader Fault Number := ⟨Json.number, Json.number_lt⟩
    have hrun : ((integer name low high).read levels).run s =
        (reader.check fun n => inText (integerOf name low high n)).run (c :: t) := by
      simp only [integer, leaf, hs, starts, if_true, reader]
    have hread : Agree (.ok n) rest (reader.run (c :: t)) := .inl ⟨n, rfl, taken⟩
    rw [hrun]
    exact agree_check (integerOf name low high) hread
  | string taken => exact agree_leaf_refused _ hs rfl
  | null letters => exact agree_leaf_refused _ hs rfl
  | yes letters => exact agree_leaf_refused _ hs rfl
  | no letters => exact agree_leaf_refused _ hs rfl
  | array inside => exact agree_leaf_refused _ hs rfl
  | object inside => exact agree_leaf_refused _ hs rfl

/-! ## Derived shapes -/

theorem Faithful.refine {shape : Shape α} (h : shape.Faithful) (make : α → Except Mismatch β)
    (back : β → α) : (shape.refine make back).Faithful := by
  intro levels s rest v htree
  exact agree_check make (h htree)

/-- What is read as data first agrees with the data by itself. -/
theorem faithful_judged (encode : α → Value) (decode : Value → Except Mismatch α) :
    (judged encode decode).Faithful := by
  intro levels s rest v htree
  have hread : Agree (.ok v) rest ((Json.tree levels).run s) := .inl ⟨v, rfl, htree⟩
  exact agree_check decode hread

/-- Data is nothing exactly when its text begins like the word for it. -/
theorem null_cases {levels : Nat} {u : List Char} (h : TreeRead levels u v rest) :
    (v = .null ∧ ∃ t, u = 'n' :: t ∧ Json.word ['u', 'l', 'l'] t = .ok rest) ∨
      (v ≠ .null ∧ ∀ t, u ≠ 'n' :: t) := by
  cases h with
  | null letters => exact .inl ⟨rfl, _, rfl, letters⟩
  | number starts taken =>
    refine .inr ⟨by simp, fun t heq => ?_⟩
    exact Json.ne_of_startsNumber starts rfl (List.head_eq_of_cons_eq heq)
  | yes letters => exact .inr ⟨by simp, by simp⟩
  | no letters => exact .inr ⟨by simp, by simp⟩
  | string taken => exact .inr ⟨by simp, by simp⟩
  | array inside => exact .inr ⟨by simp, by simp⟩
  | object inside => exact .inr ⟨by simp, by simp⟩

theorem Faithful.optional {shape : Shape α} (h : shape.Faithful) : shape.optional.Faithful := by
  intro levels s rest v htree
  rcases null_cases (treeRead_of_tree htree) with ⟨rfl, t, hs, hword⟩ | ⟨hnull, hs⟩
  · have hrun : (shape.optional.read levels).run s = .ok (none, rest) := by
      simp only [Shape.optional, optionalReader, hs, hword]
    rw [hrun]
    exact agree_ok none rest
  · have hrun : (shape.optional.read levels).run s = ((shape.read levels).map some).run s := by
      -- `hs` rules out the first case of the reader
      simp only [Shape.optional, optionalReader]
    have hdecode : shape.optional.decode v =
        match shape.decode v with
        | .error m => .error m
        | .ok a => .ok (some a) := by
      cases v with
      | null => exact absurd rfl hnull
      | bool value => rfl
      | number n => rfl
      | string text => rfl
      | array items => rfl
      | object fields => rfl
    rw [hrun, hdecode]
    exact agree_check (fun a => .ok (some a)) (h htree)

/-! ## Lists and maps -/

theorem agree_list_refused {shape : Shape α} {levels : Nat} {c : Char} {t : List Char}
    (m : Mismatch) (hs : Json.skipBlanks s = c :: t) (hc : c ≠ '[') :
    Agree (.error m) rest ((shape.list.read levels).run s) := by
  have hrun : (shape.list.read levels).run s = .error (unexpected "a sequence" (c :: t)) := by
    simp only [Shape.list, bracketed, hs, if_neg hc]
  rw [hrun]
  exact agree_error m rest _

theorem agree_dict_refused {shape : Shape α} {levels : Nat} {c : Char} {t : List Char}
    (m : Mismatch) (hs : Json.skipBlanks s = c :: t) (hc : c ≠ '\x7b') :
    Agree (.error m) rest ((shape.dict.read levels).run s) := by
  have hrun : (shape.dict.read levels).run s = .error (unexpected "a map" (c :: t)) := by
    simp only [Shape.dict, Reader.map, Reader.check, bracketed, hs, if_neg hc]
  rw [hrun]
  exact agree_error m rest _

/-- The items of a list one by one, after those that were taken already. -/
theorem itemsFrom_agree {shape : Shape α} (h : shape.Faithful) {levels : Nat} {first : Bool}
    {items : List Value} (done : List α) (hread : ItemsRead (Json.tree levels) first s items rest) :
    Agree (decodeItems shape.decode done items) rest
      (Json.itemsFrom (shape.read levels) first done s) := by
  induction hread generalizing done with
  | closed turn =>
    rw [Json.itemsFrom_eq, turn]
    exact agree_ok done.reverse _
  | entry turn taken more ih =>
    rw [Json.itemsFrom_eq, decodeItems]
    simp only [turn]
    rcases h taken with ⟨a, hdecode, hrun⟩ | ⟨m, e, hdecode, hrun⟩
    · rw [hdecode, hrun]
      exact ih (a :: done)
    · rw [hdecode, hrun]
      exact agree_error m _ e

/-- The fields of a map one by one, after those that were taken already. -/
theorem fieldsFrom_agree {shape : Shape α} (h : shape.Faithful) {levels : Nat} {first : Bool}
    {fields : List (String × Value)} (done : List (String × α))
    (hread : FieldsRead (Json.tree levels) first s fields rest) :
    Agree (decodeFields shape.decode done fields) rest
      (Json.fieldsFrom (shape.read levels) first done s) := by
  induction hread generalizing done with
  | closed turn =>
    rw [Json.fieldsFrom_eq, turn]
    exact agree_ok done.reverse _
  | @entry _ _ _ _ _ _ _ key _ _ turn name mark taken more ih =>
    rw [Json.fieldsFrom_eq, decodeFields]
    simp only [turn, Json.keyColon, name, mark]
    rcases h taken with ⟨a, hdecode, hrun⟩ | ⟨m, e, hdecode, hrun⟩
    · rw [hdecode, hrun]
      exact ih ((key, a) :: done)
    · rw [hdecode, hrun]
      exact agree_error m _ e

theorem Faithful.list {shape : Shape α} (h : shape.Faithful) : shape.list.Faithful := by
  intro levels s rest v htree
  have hform := treeRead_of_tree htree
  generalize hs : Json.skipBlanks s = u at hform
  cases hform with
  | @array levels t _ items inside =>
    have hrun : (shape.list.read (levels + 1)).run s =
        Json.itemsFrom (shape.read levels) true [] t := by
      simp only [Shape.list, bracketed, hs, if_true]
    rw [hrun]
    exact itemsFrom_agree h [] inside
  | null letters => exact agree_list_refused _ hs (by decide)
  | yes letters => exact agree_list_refused _ hs (by decide)
  | no letters => exact agree_list_refused _ hs (by decide)
  | string taken => exact agree_list_refused _ hs (by decide)
  | number starts taken => exact agree_list_refused _ hs (Json.ne_of_startsNumber starts rfl)
  | object inside => exact agree_list_refused _ hs (by decide)

theorem Faithful.dict {shape : Shape α} (h : shape.Faithful) : shape.dict.Faithful := by
  intro levels s rest v htree
  have hform := treeRead_of_tree htree
  generalize hs : Json.skipBlanks s = u at hform
  cases hform with
  | @object levels t _ fields inside =>
    -- the entries are put in order after they are read, which refuses nothing
    simp only [Shape.dict, Reader.map, Reader.check, bracketed, hs, if_true]
    rcases fieldsFrom_agree h [] inside with ⟨entries, hdecode, hrun⟩ | ⟨m, e, hdecode, hrun⟩
    · rw [hdecode, hrun]
      exact agree_ok (Dict.ofList entries) rest
    · rw [hdecode, hrun]
      exact agree_error m rest e
  | null letters => exact agree_dict_refused _ hs (by decide)
  | yes letters => exact agree_dict_refused _ hs (by decide)
  | no letters => exact agree_dict_refused _ hs (by decide)
  | string taken => exact agree_dict_refused _ hs (by decide)
  | number starts taken => exact agree_dict_refused _ hs (Json.ne_of_startsNumber starts rfl)
  | array inside => exact agree_dict_refused _ hs (by decide)

/-! ## The items of a list as the fields of a record -/

variable {ts : List Type}

/-- Every field has a faithful shape. -/
def Fields.Faithful : {ts : List Type} → Fields ts → Prop
  | _, .nil => True
  | _, .cons field rest => field.shape.Faithful ∧ rest.Faithful

/-- One more value in front of a row. -/
theorem agree_exactRow_cons {surplus : Mismatch} {held : Except Mismatch (Row ts × List Value)}
    {taken : Taken (Row ts)} (a : α) :
    Agree (exactRow surplus held) rest taken →
      Agree
        (@exactRow (α :: ts) surplus
          (match held with | .error m => .error m | .ok (row, left) => .ok ((a, row), left)))
        rest
        (match taken with | .error e => .error e | .ok (row, left) => .ok ((a, row), left)) := by
  rintro (⟨row, hheld, rfl⟩ | ⟨m, e, hheld, rfl⟩)
  · obtain rfl : held = .ok (row, []) := exactRow_eq_ok_iff.mp hheld
    exact agree_ok (a, row) rest
  · rcases held with m' | ⟨row, left⟩
    · exact agree_error m' rest e
    · cases left with
      | nil => cases hheld
      | cons item items => exact agree_error surplus rest e

theorem listEnd_of_itemTurn_closed {first : Bool} (h : Json.itemTurn first s = .ok (.closed rest)) :
    Json.listEnd s = .ok rest := by
  rw [Json.listEnd, Json.skipBlanks_of_itemTurn_closed h]
  exact if_pos rfl

theorem listEnd_of_itemTurn_entry {first : Bool} {t : List Char}
    (h : Json.itemTurn first s = .ok (.entry t)) : ∃ e, Json.listEnd s = .error e := by
  have hchar : ∃ c u, Json.skipBlanks s = c :: u ∧ c ≠ ']' := by
    rcases Json.itemTurn_entry_cases h with ⟨-, hs, c, u, rfl, hc⟩ | ⟨-, u, hs, -⟩
    · exact ⟨c, u, hs, hc⟩
    · exact ⟨',', u, hs, by decide⟩
  obtain ⟨c, u, hs, hc⟩ := hchar
  rw [Json.listEnd, hs]
  simp only [if_neg hc]
  split
  · split
    · exact ⟨_, rfl⟩
    · exact ⟨_, rfl⟩
  · exact ⟨_, rfl⟩

theorem itemTurn_closed_later {first : Bool} (h : Json.itemTurn first s = .ok (.closed rest)) :
    Json.itemTurn false s = .ok (.closed rest) := by
  rw [Json.itemTurn, Json.skipBlanks_of_itemTurn_closed h]
  exact if_pos rfl

/-- The first field after a list's end is the last that is looked at in the text. -/
theorem readRow_agree {fields : Fields ts} (hfields : fields.Faithful) {levels index : Nat}
    {expected : String} {items : List Value} (surplus : Mismatch)
    (h : ItemsRead (Json.tree levels) (index == 0) s items rest) :
    Agree (exactRow surplus (fields.decodeRow expected index items)) rest
      (fields.readRow levels expected index s) := by
  induction fields generalizing index s items with
  | nil =>
    rw [Fields.readRow]
    cases h with
    | closed turn =>
      rw [listEnd_of_itemTurn_closed turn]
      exact agree_ok () rest
    | entry turn taken more =>
      obtain ⟨e, he⟩ := listEnd_of_itemTurn_entry turn
      rw [he]
      exact agree_error surplus rest e
  | cons field fields ih =>
    obtain ⟨hfield, hmore⟩ := hfields
    rw [Fields.readRow]
    cases h with
    | closed turn =>
      simp only [turn, Fields.decodeRow]
      cases field.vacant with
      | none => exact agree_error _ rest _
      | some a =>
        -- the closing bracket is not taken yet, so the next field meets it again
        have hnext : ItemsRead (Json.tree levels) (index + 1 == 0) s [] rest :=
          .closed (itemTurn_closed_later turn)
        exact agree_exactRow_cons a (ih hmore hnext)
    | @entry _ _ t u _ v items turn taken more =>
      have hnext : ItemsRead (Json.tree levels) (index + 1 == 0) u items rest := more
      simp only [turn, Fields.decodeRow]
      rcases hfield taken with ⟨a, hdecode, hrun⟩ | ⟨m, e, hdecode, hrun⟩
      · rw [hdecode, hrun]
        exact agree_exactRow_cons a (ih hmore hnext)
      · rw [hdecode, hrun]
        exact agree_error m rest e

/-! ## The fields of an object -/

/-- One key and its value.  A key that names no field is passed over in the text, and its data is
not looked at. -/
theorem readSlot_agree {fields : Fields ts} (hfields : fields.Faithful) {levels : Nat}
    {key : String} {t : List Char} (slots : Slots ts) (hmark : Json.colon s = .ok t)
    (htree : (Json.tree levels).run t = .ok (v, rest)) :
    Agree (fields.fill key v slots) rest (fields.readSlot levels key slots s) := by
  induction fields with
  | nil =>
    simp only [Fields.readSlot, hmark, Json.passed_run htree]
    exact agree_ok () rest
  | cons field fields ih =>
    obtain ⟨hfield, hmore⟩ := hfields
    obtain ⟨slot, more⟩ := slots
    simp only [Fields.fill, Fields.readSlot]
    split
    · cases slot with
      | some a => exact agree_error _ rest _
      | none =>
        simp only [hmark]
        rcases hfield htree with ⟨a, hdecode, hrun⟩ | ⟨m, e, hdecode, hrun⟩
        · rw [hdecode, hrun]
          exact agree_ok (some a, more) rest
        · rw [hdecode, hrun]
          exact agree_error m rest e
    · rcases ih hmore more with ⟨more', hfill, hrun⟩ | ⟨m, e, hfill, hrun⟩
      · rw [hfill, hrun]
        exact agree_ok (slot, more') rest
      · rw [hfill, hrun]
        exact agree_error m rest e

/-- What the fields of an object do at a turn. -/
theorem readSlots_eq (levels : Nat) (fields : Fields ts) (first : Bool) (slots : Slots ts)
    (s : List Char) :
    fields.readSlots levels first slots s =
      match Json.keyTurn first s with
      | .error e => .error e
      | .ok (.closed rest) => .ok (slots, rest)
      | .ok (.entry t) =>
        match Json.stringFrom [] t with
        | .error e => .error e
        | .ok (key, u) =>
          match fields.readSlot levels key slots u with
          | .error e => .error e
          | .ok (slots, rest) => fields.readSlots levels false slots rest := by
  rw [Fields.readSlots]
  split
  · rename_i h; rw [h]
  · rename_i h; rw [h]
  · rename_i h
    split
    · rename_i hk; simp only [h, hk]
    · rename_i hk
      split
      · rename_i hr; simp only [h, hk, hr]
      · rename_i hr; simp only [h, hk, hr]

theorem readSlots_agree {fields : Fields ts} (hfields : fields.Faithful) {levels : Nat}
    {first : Bool} {entries : List (String × Value)} (slots : Slots ts)
    (h : FieldsRead (Json.tree levels) first s entries rest) :
    Agree (fields.fillAll slots entries) rest (fields.readSlots levels first slots s) := by
  -- both sides take the entries in the order of the text, so they are refused at the same one
  induction h generalizing slots with
  | closed turn =>
    rw [readSlots_eq, turn]
    exact agree_ok slots _
  | entry turn name mark taken more ih =>
    rw [readSlots_eq, Fields.fillAll]
    simp only [turn, name]
    rcases readSlot_agree hfields slots mark taken with ⟨slots', hfill, hrun⟩ | ⟨m, e, hfill, hrun⟩
    · rw [hfill, hrun]
      exact ih slots'
    · rw [hfill, hrun]
      exact agree_error m _ e

/-! ## Records -/

theorem readObject_agree {fields : Fields ts} (hfields : fields.Faithful) {levels : Nat}
    {entries : List (String × Value)} (name : String)
    (h : FieldsRead (Json.tree levels) true s entries rest) :
    Agree (decodeFieldsOf name fields (.object entries)) rest (readObject fields levels s) := by
  rw [decodeFieldsOf, readObject]
  rcases readSlots_agree hfields (Slots.empty ts) h with
    ⟨slots, hfill, hrun⟩ | ⟨m, e, hfill, hrun⟩
  · rw [hfill, hrun]
    simp only
    cases fields.close slots with
    | error m => exact agree_error m rest _
    | ok row => exact agree_ok row rest
  · rw [hfill, hrun]
    exact agree_error m rest e

/-- What begins with no bracket is refused. -/
theorem agree_row_refused {name : String} {fields : Fields ts} {levels : Nat} {c : Char}
    {t : List Char} (m : Mismatch) (hs : Json.skipBlanks s = c :: t) (hlist : c ≠ '[')
    (hobject : c ≠ '\x7b') :
    Agree (.error m) rest ((rowReader name fields levels).run s) := by
  have hrun : (rowReader name fields levels).run s =
      .error (unexpected ("struct " ++ name) (c :: t)) := by
    simp only [rowReader, bracketed, hs, if_neg hobject]
    split
    · rename_i heq
      exact absurd (List.head_eq_of_cons_eq heq) hlist
    · rfl
  rw [hrun]
  exact agree_error m rest _

theorem faithful_row {fields : Fields ts} (hfields : fields.Faithful) (name : String) :
    (row name fields).Faithful := by
  intro levels s rest v h
  have hform := treeRead_of_tree h
  generalize hs : Json.skipBlanks s = u at hform
  cases hform with
  | null letters => exact agree_row_refused _ hs (by decide) (by decide)
  | yes letters => exact agree_row_refused _ hs (by decide) (by decide)
  | no letters => exact agree_row_refused _ hs (by decide) (by decide)
  | string taken => exact agree_row_refused _ hs (by decide) (by decide)
  | number starts taken =>
    exact agree_row_refused _ hs (Json.ne_of_startsNumber starts rfl)
      (Json.ne_of_startsNumber starts rfl)
  | @array levels t _ items inside =>
    have hrun : ((row name fields).read (levels + 1)).run s =
        fields.readRow levels (rowExpected name fields.size) 0 t := by
      simp only [row, rowReader, bracketed, hs]
      rfl
    rw [hrun]
    exact readRow_agree hfields (.length items.length "fewer elements in array") inside
  | @object levels t _ entries inside =>
    have hrun : ((row name fields).read (levels + 1)).run s = readObject fields levels t := by
      simp only [row, rowReader, bracketed, hs]
      rfl
    rw [hrun]
    exact readObject_agree hfields name inside

theorem faithful_record {fields : Fields ts} (hfields : fields.Faithful) (name : String)
    (toRow : σ → Row ts) (ofRow : Row ts → σ) : (record name fields toRow ofRow).Faithful :=
  (faithful_row hfields name).refine _ toRow

/-! ## Whole texts -/

/-- A text that holds data is read exactly as its data is decoded. -/
theorem parse_eq_ok_iff {shape : Shape α} (h : shape.Faithful) {text : String}
    (hwhole : Json.whole (Json.tree Json.maxNesting) text = .ok v) (a : α) :
    shape.parse text = .ok a ↔ shape.decode v = .ok a := by
  unfold Json.whole at hwhole
  split at hwhole
  · cases hwhole
  · rename_i w rest htree
    split at hwhole
    · rename_i hblank
      cases hwhole
      rw [parse, Json.whole]
      rcases h htree with ⟨b, hdecode, hrun⟩ | ⟨m, e, hdecode, hrun⟩
      · simp only [hrun, hdecode, if_pos hblank]
        exact Iff.of_eq (by simp only [Except.ok.injEq])
      · simp only [hrun, hdecode, reduceCtorEq]
    · cases hwhole

end TermLint.Shape

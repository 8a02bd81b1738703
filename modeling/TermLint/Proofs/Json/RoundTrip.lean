/-
  TermLint.Proofs.Json.RoundTrip

  Reading what was written.  The compact text of an integral value is read back as
  that value, its fields in the order in which they were written, and the text after
  it is left, as long as no more lists and objects stand inside one another than are
  allowed; otherwise it is refused for its depth, and for nothing else.
-/

import TermLint.Json.Tree
import TermLint.Proofs.Json.Plain
import TermLint.Proofs.Json.Turn

namespace TermLint.Json

open Value (IsPlain IsIntegral itemsNesting fieldsNesting itemsNesting_cons_le
  fieldsNesting_cons_le)

/-! ## One value -/

theorem tree_zero_list {s t : List Char} (h : skipBlanks s = '[' :: t) :
    (tree 0).run s = .error (.malformed .tooDeep) := by
  show treeFrom none s = _
  rw [treeFrom, h]
  rfl

theorem tree_succ_list {s t : List Char} {inner : Nat} (h : skipBlanks s = '[' :: t) :
    (tree (inner + 1)).run s =
      match itemsFrom (tree inner) true [] t with
      | .error e => .error e
      | .ok (items, rest) => .ok (.array items, rest) := by
  show treeFrom (some (tree inner)) s = _
  rw [treeFrom, h]
  rfl

theorem tree_zero_object {s t : List Char} (h : skipBlanks s = '\x7b' :: t) :
    (tree 0).run s = .error (.malformed .tooDeep) := by
  show treeFrom none s = _
  rw [treeFrom, h]
  rfl

theorem tree_succ_object {s t : List Char} {inner : Nat} (h : skipBlanks s = '\x7b' :: t) :
    (tree (inner + 1)).run s =
      match fieldsFrom (tree inner) true [] t with
      | .error e => .error e
      | .ok (fields, rest) => .ok (.object fields, rest) := by
  show treeFrom (some (tree inner)) s = _
  rw [treeFrom, h]
  rfl

theorem treeFrom_string {inner : Option (Text.Reader Fault Value)} {s t rest : List Char}
    {text : String} (h : skipBlanks s = '"' :: t) (hstring : stringFrom [] t = .ok (text, rest)) :
    treeFrom inner s = .ok (.string text, rest) := by
  rw [treeFrom, h]
  simp only [hstring]
  rfl

theorem treeFrom_number {inner : Option (Text.Reader Fault Value)} {s t rest : List Char}
    {c : Char} {n : Number} (h : skipBlanks s = c :: t) (hstart : startsNumber c = true)
    (hnumber : number (c :: t) = .ok (n, rest)) :
    treeFrom inner s = .ok (.number n, rest) := by
  have hn : c ≠ 'n' := ne_of_startsNumber hstart rfl
  have ht : c ≠ 't' := ne_of_startsNumber hstart rfl
  have hf : c ≠ 'f' := ne_of_startsNumber hstart rfl
  have hq : c ≠ '"' := ne_of_startsNumber hstart rfl
  rw [treeFrom, h]
  simp only [if_neg hn, if_neg ht, if_neg hf, if_neg hq, if_pos hstart, hnumber]

/-! ## The written form -/

/-- The items of a list after its first one. -/
def moreItems (items : List Value) : List Char :=
  items.flatMap fun item => ',' :: print item

/-- A written field. -/
def fieldText (field : String × Value) : List Char :=
  printString field.1 ++ ':' :: print field.2

/-- The fields of an object after its first one. -/
def moreFields (fields : List (String × Value)) : List Char :=
  fields.flatMap fun field => ',' :: fieldText field

theorem printItems_false (written : List Char) (items : List Value) :
    printItems false written items = written.reverse ++ moreItems items := by
  induction items generalizing written with
  | nil => rw [printItems, moreItems, List.flatMap_nil, List.append_nil]
  | cons item items ih =>
    simp only [printItems, Bool.false_eq_true, if_false, ih, moreItems, List.flatMap_cons,
      List.reverse_append, List.reverse_reverse, List.reverse_cons, List.append_assoc,
      List.cons_append, List.nil_append]

theorem printFields_false (written : List Char) (fields : List (String × Value)) :
    printFields false written fields = written.reverse ++ moreFields fields := by
  induction fields generalizing written with
  | nil => rw [printFields, moreFields, List.flatMap_nil, List.append_nil]
  | cons field fields ih =>
    obtain ⟨key, value⟩ := field
    simp only [printFields, Bool.false_eq_true, if_false, ih, moreFields, fieldText,
      List.flatMap_cons, List.reverse_append, List.reverse_reverse, List.reverse_cons,
      List.append_assoc, List.cons_append, List.nil_append]

theorem print_array_cons (item : Value) (items : List Value) :
    print (.array (item :: items)) = '[' :: print item ++ moreItems items ++ [']'] := by
  rw [print, printItems, if_pos rfl, List.append_nil, printItems_false, List.reverse_reverse]
  rfl

theorem print_object_cons (field : String × Value) (fields : List (String × Value)) :
    print (.object (field :: fields)) =
      '\x7b' :: fieldText field ++ moreFields fields ++ ['\x7d'] := by
  obtain ⟨key, value⟩ := field
  simp only [print, printFields, if_true, printFields_false, fieldText, List.append_nil,
    List.reverse_append, List.reverse_reverse, List.reverse_cons, List.append_assoc,
    List.cons_append, List.nil_append]

/-- A written value begins with a character that is neither blank nor a closing bracket. -/
theorem print_cons {v : Value} (h : v.IsIntegral) :
    ∃ c t, print v = c :: t ∧ isBlank c = false ∧ c ≠ ']' := by
  cases h with
  | null => exact ⟨_, _, rfl, by decide, by decide⟩
  | bool value =>
    cases value with
    | true => exact ⟨_, _, rfl, by decide, by decide⟩
    | false => exact ⟨_, _, rfl, by decide, by decide⟩
  | int value low high =>
    obtain ⟨c, t, htext, hstart⟩ := printNumber_int_cons value
    refine ⟨c, t, htext, ?_, ?_⟩
    · exact isBlank_of_startsNumber hstart
    · rintro rfl
      cases hstart
  | string value => exact ⟨_, _, rfl, by decide, by decide⟩
  | array items _ =>
    refine ⟨_, _, by rw [print, List.cons_append], by decide, by decide⟩
  | object fields _ =>
    refine ⟨_, _, by rw [print, List.cons_append], by decide, by decide⟩

/-! ## Reading it back -/

/-- The text of a value is read back, and what follows it is left, unless it nests too deep. -/
def ReadsBack (v : Value) : Prop :=
  ∀ (levels : Nat) (rest : List Char), EndsNumber rest →
    (tree levels).run (print v ++ rest) =
      if v.nesting ≤ levels then .ok (v, rest) else .error (.malformed .tooDeep)

theorem endsNumber_cons {c : Char} {t : List Char} (hdigit : c.isDigit = false) (hpoint : c ≠ '.')
    (hmark : isPowerMark c = false) : EndsNumber (c :: t) := by
  intro d hd
  cases hd
  exact ⟨hdigit, hpoint, hmark⟩

/-! ### Lists -/

theorem endsNumber_moreItems (items : List Value) (rest : List Char) :
    EndsNumber (moreItems items ++ ']' :: rest) := by
  cases items with
  | nil => exact endsNumber_cons (by decide) (by decide) (by decide)
  | cons item items => exact endsNumber_cons (by decide) (by decide) (by decide)

/-- An item that reads back, before items that do. -/
theorem itemsFrom_entry {levels : Nat} {first : Bool} {done : List Value} {s : List Char}
    {item : Value} {items : List Value} {rest : List Char}
    (hturn : itemTurn first s = .ok (.entry (print item ++ (moreItems items ++ ']' :: rest))))
    (hitem : ReadsBack item)
    (hmore : ∀ done, itemsFrom (tree levels) false done (moreItems items ++ ']' :: rest) =
      if itemsNesting items ≤ levels then .ok (done.reverse ++ items, rest)
      else .error (.malformed .tooDeep)) :
    itemsFrom (tree levels) first done s =
      if itemsNesting (item :: items) ≤ levels then .ok (done.reverse ++ item :: items, rest)
      else .error (.malformed .tooDeep) := by
  rw [itemsFrom_eq, hturn]
  simp only [hitem levels _ (endsNumber_moreItems items rest), itemsNesting_cons_le]
  by_cases hn : item.nesting ≤ levels
  · simp only [hn, if_true, true_and, hmore, List.reverse_cons, List.append_assoc,
      List.singleton_append]
  · simp only [hn, false_and, if_false]

theorem itemsFrom_moreItems {levels : Nat} {items : List Value} (done : List Value)
    (rest : List Char) (hitems : ∀ item ∈ items, item.IsIntegral)
    (h : ∀ item ∈ items, ReadsBack item) :
    itemsFrom (tree levels) false done (moreItems items ++ ']' :: rest) =
      if itemsNesting items ≤ levels then .ok (done.reverse ++ items, rest)
      else .error (.malformed .tooDeep) := by
  induction items generalizing done with
  | nil =>
    rw [itemsFrom_eq, moreItems, List.flatMap_nil, List.nil_append, itemTurn_closing,
      List.append_nil]
    exact (if_pos (Nat.zero_le levels)).symm
  | cons item items ih =>
    obtain ⟨c, t, htext, hblank, hc⟩ := print_cons (hitems item List.mem_cons_self)
    -- the turn has to see that an item begins after the comma, and not a closing bracket
    refine itemsFrom_entry ?_ (h item List.mem_cons_self) fun done => ih done ?_ ?_
    · have hsplit : moreItems (item :: items) ++ ']' :: rest =
          ',' :: (print item ++ (moreItems items ++ ']' :: rest)) := by
        rw [moreItems, List.flatMap_cons, List.append_assoc, List.cons_append]
        rfl
      rw [hsplit, htext, List.cons_append]
      exact itemTurn_comma hblank hc
    · exact fun v hv => hitems v (List.mem_cons_of_mem _ hv)
    · exact fun v hv => h v (List.mem_cons_of_mem _ hv)

theorem itemsFrom_print (levels : Nat) {items : List Value} (rest : List Char)
    (hitems : ∀ item ∈ items, item.IsIntegral) (h : ∀ item ∈ items, ReadsBack item) :
    ∃ body, print (.array items) ++ rest = '[' :: body ∧
      itemsFrom (tree levels) true [] body =
        if itemsNesting items ≤ levels then .ok (items, rest)
        else .error (.malformed .tooDeep) := by
  cases items with
  | nil =>
    refine ⟨']' :: rest, rfl, ?_⟩
    rw [itemsFrom_eq, itemTurn_closing]
    exact (if_pos (Nat.zero_le levels)).symm
  | cons item items =>
    obtain ⟨c, t, htext, hblank, hc⟩ := print_cons (hitems item List.mem_cons_self)
    refine ⟨print item ++ (moreItems items ++ ']' :: rest), ?_, ?_⟩
    · rw [print_array_cons]
      simp only [List.append_assoc, List.cons_append, List.nil_append]
    · refine itemsFrom_entry ?_ (h item List.mem_cons_self) fun done => ?_
      · rw [htext, List.cons_append]
        exact itemTurn_first hblank hc
      · exact itemsFrom_moreItems done rest (fun v hv => hitems v (List.mem_cons_of_mem _ hv))
          fun v hv => h v (List.mem_cons_of_mem _ hv)

theorem readsBack_array {items : List Value} (hitems : ∀ item ∈ items, item.IsIntegral)
    (h : ∀ item ∈ items, ReadsBack item) : ReadsBack (.array items) := by
  intro levels rest _
  -- without levels the list is refused at its bracket, however little it holds
  cases levels with
  | zero =>
    obtain ⟨body, hprint, -⟩ := itemsFrom_print 0 rest hitems h
    rw [hprint, tree_zero_list (skipBlanks_cons (by decide)), Value.nesting,
      if_neg (Nat.not_succ_le_zero _)]
  | succ inner =>
    obtain ⟨body, hprint, hitems⟩ := itemsFrom_print inner rest hitems h
    rw [hprint, tree_succ_list (skipBlanks_cons (by decide)), hitems]
    simp only [Value.nesting, Nat.add_le_add_iff_right]
    by_cases hn : itemsNesting items ≤ inner
    · simp only [hn, if_true]
    · simp only [hn, if_false]

/-! ### Objects -/

theorem endsNumber_moreFields (fields : List (String × Value)) (rest : List Char) :
    EndsNumber (moreFields fields ++ '\x7d' :: rest) := by
  cases fields with
  | nil => exact endsNumber_cons (by decide) (by decide) (by decide)
  | cons field fields => exact endsNumber_cons (by decide) (by decide) (by decide)

/-- What stands after the opening quote of the key of a field. -/
def afterQuote (field : String × Value) : List Char :=
  field.1.toList.flatMap escaped ++ '"' :: ':' :: print field.2

theorem fieldText_eq (field : String × Value) : fieldText field = '"' :: afterQuote field := by
  simp only [fieldText, printString, afterQuote, List.cons_append, List.append_assoc,
    List.nil_append]

/-- A field whose value reads back, before fields that do. -/
theorem fieldsFrom_entry {levels : Nat} {first : Bool} {done : List (String × Value)}
    {s : List Char} {field : String × Value} {fields : List (String × Value)} {rest : List Char}
    (hturn : keyTurn first s =
      .ok (.entry (afterQuote field ++ (moreFields fields ++ '\x7d' :: rest))))
    (hvalue : ReadsBack field.2)
    (hmore : ∀ done, fieldsFrom (tree levels) false done (moreFields fields ++ '\x7d' :: rest) =
      if fieldsNesting fields ≤ levels then .ok (done.reverse ++ fields, rest)
      else .error (.malformed .tooDeep)) :
    fieldsFrom (tree levels) first done s =
      if fieldsNesting (field :: fields) ≤ levels then .ok (done.reverse ++ field :: fields, rest)
      else .error (.malformed .tooDeep) := by
  have hkey : keyColon (afterQuote field ++ (moreFields fields ++ '\x7d' :: rest)) =
      .ok (field.1, print field.2 ++ (moreFields fields ++ '\x7d' :: rest)) := by
    rw [afterQuote, List.append_assoc, List.cons_append, List.cons_append, keyColon_print]
  obtain ⟨key, value⟩ := field
  rw [fieldsFrom_eq, hturn]
  simp only [hkey, hvalue levels _ (endsNumber_moreFields fields rest), fieldsNesting_cons_le]
  by_cases hn : value.nesting ≤ levels
  · simp only [hn, if_true, true_and, hmore, List.reverse_cons, List.append_assoc,
      List.singleton_append]
  · simp only [hn, false_and, if_false]

theorem fieldsFrom_moreFields {levels : Nat} {fields : List (String × Value)}
    (done : List (String × Value)) (rest : List Char) (h : ∀ field ∈ fields, ReadsBack field.2) :
    fieldsFrom (tree levels) false done (moreFields fields ++ '\x7d' :: rest) =
      if fieldsNesting fields ≤ levels then .ok (done.reverse ++ fields, rest)
      else .error (.malformed .tooDeep) := by
  induction fields generalizing done with
  | nil =>
    rw [fieldsFrom_eq, moreFields, List.flatMap_nil, List.nil_append, keyTurn_closing,
      List.append_nil]
    exact (if_pos (Nat.zero_le levels)).symm
  | cons field fields ih =>
    refine fieldsFrom_entry ?_ (h field List.mem_cons_self) fun done => ih done ?_
    · have hsplit : moreFields (field :: fields) ++ '\x7d' :: rest =
          ',' :: '"' :: (afterQuote field ++ (moreFields fields ++ '\x7d' :: rest)) := by
        rw [moreFields, List.flatMap_cons, fieldText_eq, List.append_assoc, List.cons_append,
          List.cons_append]
        rfl
      rw [hsplit]
      exact keyTurn_comma _
    · exact fun f hf => h f (List.mem_cons_of_mem _ hf)

theorem fieldsFrom_print (levels : Nat) {fields : List (String × Value)} (rest : List Char)
    (h : ∀ field ∈ fields, ReadsBack field.2) :
    ∃ body, print (.object fields) ++ rest = '\x7b' :: body ∧
      fieldsFrom (tree levels) true [] body =
        if fieldsNesting fields ≤ levels then .ok (fields, rest)
        else .error (.malformed .tooDeep) := by
  cases fields with
  | nil =>
    refine ⟨'\x7d' :: rest, rfl, ?_⟩
    rw [fieldsFrom_eq, keyTurn_closing]
    exact (if_pos (Nat.zero_le levels)).symm
  | cons field fields =>
    refine ⟨'"' :: (afterQuote field ++ (moreFields fields ++ '\x7d' :: rest)), ?_, ?_⟩
    · rw [print_object_cons, fieldText_eq]
      simp only [List.append_assoc, List.cons_append, List.nil_append]
    · refine fieldsFrom_entry (keyTurn_first _) (h field List.mem_cons_self) fun done => ?_
      exact fieldsFrom_moreFields done rest fun f hf => h f (List.mem_cons_of_mem _ hf)

theorem readsBack_object {fields : List (String × Value)}
    (h : ∀ field ∈ fields, ReadsBack field.2) : ReadsBack (.object fields) := by
  intro levels rest _
  cases levels with
  | zero =>
    obtain ⟨body, hprint, -⟩ := fieldsFrom_print 0 rest h
    rw [hprint, tree_zero_object (skipBlanks_cons (by decide)), Value.nesting,
      if_neg (Nat.not_succ_le_zero _)]
  | succ inner =>
    obtain ⟨body, hprint, hfields⟩ := fieldsFrom_print inner rest h
    rw [hprint, tree_succ_object (skipBlanks_cons (by decide)), hfields]
    simp only [Value.nesting, Nat.add_le_add_iff_right]
    by_cases hn : fieldsNesting fields ≤ inner
    · simp only [hn, if_true]
    · simp only [hn, if_false]

/-! ### All values -/

theorem tree_scalar {v : Value} {s rest : List Char} (hnesting : v.nesting = 0)
    (h : ∀ inner, treeFrom inner s = .ok (v, rest)) (levels : Nat) :
    (tree levels).run s =
      if v.nesting ≤ levels then .ok (v, rest) else .error (.malformed .tooDeep) := by
  rw [if_pos (hnesting ▸ Nat.zero_le levels)]
  cases levels with
  | zero => exact h none
  | succ inner => exact h (some (tree inner))

/-- Every integral value is read back from its text. -/
theorem readsBack_of_isIntegral {v : Value} (h : v.IsIntegral) : ReadsBack v := by
  induction h with
  | null =>
    intro levels rest _
    refine tree_scalar rfl (fun inner => ?_) levels
    rfl
  | bool value =>
    intro levels rest _
    refine tree_scalar rfl (fun inner => ?_) levels
    cases value <;> rfl
  | int value low high =>
    intro levels rest hrest
    refine tree_scalar rfl (fun inner => ?_) levels
    obtain ⟨c, t, htext, hstart⟩ := printNumber_int_cons value
    have hnumber := number_print low high hrest
    rw [htext, List.cons_append] at hnumber
    rw [print, htext, List.cons_append]
    exact treeFrom_number (skipBlanks_cons (isBlank_of_startsNumber hstart)) hstart hnumber
  | string value =>
    intro levels rest _
    refine tree_scalar rfl (fun inner => ?_) levels
    have hstring := stringFrom_print [] value.toList rest
    rw [List.reverse_nil, List.nil_append, String.ofList_toList] at hstring
    rw [print, printString, List.cons_append, List.cons_append, List.append_assoc,
      List.singleton_append]
    exact treeFrom_string (skipBlanks_cons (by decide)) hstring
  | array items items_integral ih => exact readsBack_array items_integral ih
  | object fields values_integral ih => exact readsBack_object ih

/-- The compact text of an integral value that does not nest too deep holds that value, its fields
in the order in which they stand. -/
theorem whole_render {v : Value} (h : v.IsIntegral) (hnesting : v.nesting ≤ maxNesting) :
    whole (tree maxNesting) (render v) = .ok v := by
  have hread := readsBack_of_isIntegral h maxNesting [] (fun c hc => by cases hc)
  rw [List.append_nil, if_pos hnesting] at hread
  simp only [whole, render, String.toList_ofList, hread, skipBlanks, List.dropWhile_nil, if_true]

/-- The compact text of a plain value holds that value, unless it nests too deep. -/
theorem parse_render {v : Value} (h : v.IsPlain) :
    parse (render v) =
      if v.nesting ≤ maxNesting then .ok v else .error (.malformed .tooDeep) := by
  have hread := readsBack_of_isIntegral h.isIntegral maxNesting [] (fun c hc => by cases hc)
  rw [List.append_nil] at hread
  rw [parse, whole, render, String.toList_ofList, hread]
  by_cases hn : v.nesting ≤ maxNesting
  · simp only [hn, if_true, skipBlanks, List.dropWhile_nil, h.canonical_eq]
  · simp only [hn, if_false]

/-- A written value is never empty. -/
theorem print_ne_nil {v : Value} (h : v.IsIntegral) : print v ≠ [] := by
  obtain ⟨c, t, htext, -, -⟩ := print_cons h
  rw [htext]
  exact List.cons_ne_nil c t

end TermLint.Json

/-
  TermLint.Proofs.Json.Reading

  What was in a text that could be read.  `TreeRead`, `ItemsRead` and `FieldsRead`
  have one case for each form of a value, a list and an object; whatever the
  readers accept has one of these forms.  Later proofs go by induction on them and
  do not open the readers again.
-/

import TermLint.Json.Tree
import TermLint.Proofs.Json.Turn

namespace TermLint.Json

open Text (Reader)

variable {α : Type} {first : Bool} {s rest : List Char}

/-! ## Lists -/

/-- A list goes on at `s` with these items and ends before `rest`. -/
inductive ItemsRead (item : Reader Fault α) : Bool → List Char → List α → List Char → Prop where
  | closed {first : Bool} {s rest : List Char} (turn : itemTurn first s = .ok (.closed rest)) :
      ItemsRead item first s [] rest
  | entry {first : Bool} {s t u rest : List Char} {a : α} {items : List α}
      (turn : itemTurn first s = .ok (.entry t)) (taken : item.run t = .ok (a, u))
      (more : ItemsRead item false u items rest) : ItemsRead item first s (a :: items) rest

theorem itemsRead_of_itemsFrom {item : Reader Fault α} {done all : List α}
    (h : itemsFrom item first done s = .ok (all, rest)) :
    ∃ items, all = done.reverse ++ items ∧ ItemsRead item first s items rest := by
  fun_induction itemsFrom item first done s with
  | case1 => cases h
  | case2 first done s rest' ht =>
    cases h
    exact ⟨[], (List.append_nil _).symm, .closed ht⟩
  | case3 => cases h
  | case4 first done s t ht a u hr hlt ih =>
    obtain ⟨items, hall, hread⟩ := ih h
    refine ⟨a :: items, ?_, .entry ht hr hread⟩
    rw [hall, List.reverse_cons, List.append_assoc, List.singleton_append]

/-! ## Objects -/

/-- An object goes on at `s` with these fields and ends before `rest`. -/
inductive FieldsRead (value : Reader Fault α) :
    Bool → List Char → List (String × α) → List Char → Prop where
  | closed {first : Bool} {s rest : List Char} (turn : keyTurn first s = .ok (.closed rest)) :
      FieldsRead value first s [] rest
  | entry {first : Bool} {s t u v w rest : List Char} {key : String} {a : α}
      {fields : List (String × α)} (turn : keyTurn first s = .ok (.entry t))
      (name : stringFrom [] t = .ok (key, u)) (mark : colon u = .ok v)
      (taken : value.run v = .ok (a, w)) (more : FieldsRead value false w fields rest) :
      FieldsRead value first s ((key, a) :: fields) rest

theorem keyColon_eq_ok {key : String} (h : keyColon s = .ok (key, rest)) :
    ∃ t, stringFrom [] s = .ok (key, t) ∧ colon t = .ok rest := by
  unfold keyColon at h
  split at h
  · cases h
  · rename_i t hname
    split at h
    · cases h
    · rename_i hmark
      cases h
      exact ⟨t, hname, hmark⟩

theorem fieldsRead_of_fieldsFrom {value : Reader Fault α} {done all : List (String × α)}
    (h : fieldsFrom value first done s = .ok (all, rest)) :
    ∃ fields, all = done.reverse ++ fields ∧ FieldsRead value first s fields rest := by
  fun_induction fieldsFrom value first done s with
  | case1 => cases h
  | case2 first done s rest' ht =>
    cases h
    exact ⟨[], (List.append_nil _).symm, .closed ht⟩
  | case3 => cases h
  | case4 => cases h
  | case5 first done s t ht key v hk a w hr hlt ih =>
    obtain ⟨fields, hall, hread⟩ := ih h
    obtain ⟨u, hname, hmark⟩ := keyColon_eq_ok hk
    refine ⟨(key, a) :: fields, ?_, .entry ht hname hmark hr hread⟩
    rw [hall, List.reverse_cons, List.append_assoc, List.singleton_append]

/-! ## Values -/

/-- The forms of a value, from its first character on, with the levels that it may nest. -/
inductive TreeRead : Nat → List Char → Value → List Char → Prop where
  | null {levels : Nat} {t rest : List Char} (letters : word ['u', 'l', 'l'] t = .ok rest) :
      TreeRead levels ('n' :: t) .null rest
  | yes {levels : Nat} {t rest : List Char} (letters : word ['r', 'u', 'e'] t = .ok rest) :
      TreeRead levels ('t' :: t) (.bool true) rest
  | no {levels : Nat} {t rest : List Char} (letters : word ['a', 'l', 's', 'e'] t = .ok rest) :
      TreeRead levels ('f' :: t) (.bool false) rest
  | string {levels : Nat} {t rest : List Char} {text : String}
      (taken : stringFrom [] t = .ok (text, rest)) :
      TreeRead levels ('"' :: t) (.string text) rest
  | number {levels : Nat} {c : Char} {t rest : List Char} {n : Number}
      (starts : startsNumber c = true) (taken : number (c :: t) = .ok (n, rest)) :
      TreeRead levels (c :: t) (.number n) rest
  | array {levels : Nat} {t rest : List Char} {items : List Value}
      (inside : ItemsRead (tree levels) true t items rest) :
      TreeRead (levels + 1) ('[' :: t) (.array items) rest
  | object {levels : Nat} {t rest : List Char} {fields : List (String × Value)}
      (inside : FieldsRead (tree levels) true t fields rest) :
      TreeRead (levels + 1) ('\x7b' :: t) (.object fields) rest

theorem word_of_wordValue {letters : List Char} {value v : Value}
    (h : wordValue letters value s = .ok (v, rest)) : word letters s = .ok rest ∧ value = v := by
  unfold wordValue at h
  split at h
  · cases h
  · rename_i hw
    cases h
    exact ⟨hw, rfl⟩

/-- The reader for what stands inside a list or object. -/
def within : Nat → Option (Reader Fault Value)
  | 0 => none
  | levels + 1 => some (tree levels)

theorem tree_run (levels : Nat) (s : List Char) :
    (tree levels).run s = treeFrom (within levels) s := by
  cases levels with
  | zero => rfl
  | succ levels => rfl

/-- Whatever is read as a value has one of the forms. -/
theorem treeRead_of_tree {levels : Nat} {v : Value} (h : (tree levels).run s = .ok (v, rest)) :
    TreeRead levels (skipBlanks s) v rest := by
  rw [tree_run] at h
  unfold treeFrom at h
  split at h
  · cases h
  · rename_i c t hs
    rw [hs]
    -- one case for each first character, in the order in which the reader tries them
    split at h
    · rename_i hc
      obtain ⟨hw, rfl⟩ := word_of_wordValue h
      exact hc ▸ .null hw
    split at h
    · rename_i hc
      obtain ⟨hw, rfl⟩ := word_of_wordValue h
      exact hc ▸ .yes hw
    split at h
    · rename_i hc
      obtain ⟨hw, rfl⟩ := word_of_wordValue h
      exact hc ▸ .no hw
    split at h
    · rename_i hc
      split at h
      · cases h
      · rename_i hq
        cases h
        exact hc ▸ .string hq
    split at h
    · rename_i hc
      split at h
      · cases h
      · rename_i hn
        cases h
        exact .number hc hn
    split at h
    · rename_i hc
      subst hc
      cases levels with
      | zero => cases h
      | succ levels =>
        simp only [within] at h
        split at h
        · cases h
        · rename_i hi
          cases h
          obtain ⟨items, rfl, hread⟩ := itemsRead_of_itemsFrom hi
          exact .array hread
    split at h
    · rename_i hc
      subst hc
      cases levels with
      | zero => cases h
      | succ levels =>
        simp only [within] at h
        split at h
        · cases h
        · rename_i hf
          cases h
          obtain ⟨fields, rfl, hread⟩ := fieldsRead_of_fieldsFrom hf
          exact .object hread
    · cases h

end TermLint.Json

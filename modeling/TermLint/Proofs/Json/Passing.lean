/-
  TermLint.Proofs.Json.Passing

  Whatever can be read as a value can be passed over, and the same text is left.
  Passing checks less, so the converse fails.  The bracket stack of `pass` is the
  invariant: a value inside `around` is passed over to a turn of `around`.
-/

import Mathlib.Data.List.DropRight
import TermLint.Json.Pass
import TermLint.Proofs.Json.Reading

namespace TermLint.Json

open Text (Reader)

variable {s t rest : List Char}

/-! ## Strings -/

theorem passString_backslash (h : passEscape s = .ok rest) :
    passString ('\\' :: s) = passString rest := by
  rw [passString, if_neg (by decide), if_pos rfl]
  split
  · rename_i he
    rw [h] at he
    cases he
  · rename_i he
    rw [h] at he
    cases he
    rfl

theorem passEscape_unicode {n : Nat} (h : hexQuad s = .ok (n, rest)) :
    passEscape ('u' :: s) = .ok rest := by
  rw [passEscape, if_pos rfl, h]

/-- The second escape of a pair of surrogates is passed over by itself. -/
theorem passString_of_trailingSurrogate {high : Nat} {c : Char}
    (h : trailingSurrogate high s = .ok (c, rest)) : passString s = passString rest := by
  unfold trailingSurrogate at h
  split at h
  · cases h
  · cases h
  · rename_i t
    split at h
    · cases h
    · rename_i low left hquad
      split at h
      · simp only [Except.ok.injEq, Prod.mk.injEq] at h
        rw [← h.2]
        exact passString_backslash (passEscape_unicode hquad)
      · cases h
  · cases h

theorem passString_of_unicodeEscape {c : Char} (h : unicodeEscape s = .ok (c, rest)) :
    passString ('\\' :: 'u' :: s) = passString rest := by
  unfold unicodeEscape at h
  split at h
  · cases h
  · rename_i unit left hquad
    rw [passString_backslash (passEscape_unicode hquad)]
    split at h
    · cases h
    · split at h
      · exact passString_of_trailingSurrogate h
      · simp only [Except.ok.injEq, Prod.mk.injEq] at h
        rw [h.2]

/-- An escape that stands for a character is passed over. -/
theorem passString_of_escape {c : Char} (h : escape s = .ok (c, rest)) :
    passString ('\\' :: s) = passString rest := by
  cases s with
  | nil => cases h
  | cons d s =>
    rw [escape] at h
    split at h
    · rename_i hd
      subst hd
      exact passString_of_unicodeEscape h
    · rename_i hd
      split at h
      · rename_i hletter
        cases h
        apply passString_backslash
        rw [passEscape, if_neg hd, hletter]
        rfl
      · cases h

theorem passString_of_stringFrom {read : List Char} {text : String}
    (h : stringFrom read s = .ok (text, rest)) : passString s = .ok rest := by
  fun_induction stringFrom read s with
  | case1 => cases h
  | case2 read s =>
    cases h
    rw [passString, if_pos rfl]
  | case3 => cases h
  | case4 read s c left he hlt _ ih => rw [passString_of_escape he, ih h]
  | case5 => cases h
  | case6 read c s hquote hslash hcontrol ih =>
    rw [passString, if_neg hquote, if_neg hslash, if_neg hcontrol, ih h]

/-! ## Numbers -/

theorem passPower_of_powerDigits {negative : Bool} {p : Int}
    (h : powerDigits negative s = .ok (p, rest)) : passPower s = .ok rest := by
  cases s with
  | nil => cases h
  | cons c t =>
    rw [powerDigits] at h
    split at h
    · rename_i hc
      cases h
      rw [passPower, if_pos hc]
    · cases h

theorem passScale_of_scaledNumber {negative : Bool} {whole fraction : List Char} {n : Number}
    (h : scaledNumber negative whole fraction s = .ok (n, rest)) : passScale s = .ok rest := by
  cases s with
  | nil =>
    rw [pointNumber_rest h]
    rfl
  | cons c t =>
    rw [scaledNumber] at h
    rw [passScale]
    split at h
    · rename_i hc
      split at h
      · cases h
      · rename_i p left hp
        rw [if_pos hc, pointNumber_rest h]
        exact passPower_of_powerDigits hp
    · rename_i hc
      rw [if_neg hc, pointNumber_rest h]

theorem passFraction_of_fraction {negative : Bool} {whole : List Char} {n : Number}
    (h : fraction negative whole s = .ok (n, rest)) : passFraction ('.' :: s) = .ok rest := by
  cases s with
  | nil => cases h
  | cons d t =>
    rw [fraction] at h
    split at h
    · rename_i hd
      have hdrop : (d :: t).dropWhile Char.isDigit = t.dropWhile Char.isDigit := by
        rw [List.dropWhile_cons, if_pos hd]
      have hstart : startsDigit (d :: t) = true := hd
      rw [passFraction, if_pos rfl, if_pos hstart, hdrop]
      exact passScale_of_scaledNumber h
    · cases h

theorem passFraction_of_fractionNumber {negative : Bool} {whole : List Char} {n : Number}
    (h : fractionNumber negative whole s = .ok (n, rest)) : passFraction s = .ok rest := by
  cases s with
  | nil =>
    rw [plainNumber_rest h]
    rfl
  | cons c t =>
    rw [fractionNumber] at h
    split at h
    · rename_i hc
      subst hc
      exact passFraction_of_fraction h
    · rename_i hpoint
      rw [passFraction, if_neg hpoint]
      split at h
      · exact passScale_of_scaledNumber h
      · rename_i hmark
        rw [passScale, if_neg hmark, plainNumber_rest h]

theorem passUnsigned_of_unsignedNumber {negative : Bool} {n : Number}
    (h : unsignedNumber negative s = .ok (n, rest)) : passUnsigned s = .ok rest := by
  cases s with
  | nil => cases h
  | cons c t =>
    rw [unsignedNumber] at h
    rw [passUnsigned]
    split at h
    · rename_i hzero
      rw [if_pos hzero]
      split at h
      · cases h
      · rename_i hdigit
        rw [if_neg hdigit]
        exact passFraction_of_fractionNumber h
    · rename_i hzero
      rw [if_neg hzero]
      split at h
      · rename_i hdigit
        rw [if_pos hdigit]
        exact passFraction_of_fractionNumber h
      · cases h

theorem passNumber_of_number {n : Number} (h : number s = .ok (n, rest)) :
    passNumber s = .ok rest := by
  unfold number at h
  split at h
  · exact passUnsigned_of_unsignedNumber h
  · rename_i hminus
    rw [passNumber]
    · exact passUnsigned_of_unsignedNumber h
    · exact hminus

/-! ## One stage of passing

Each stage as an equation without the facts that `pass` carries about lengths. -/

variable {around outer : List Bracket}

theorem pass_value_eq (around : List Bracket) (s : List Char) :
    pass .value around s =
      match skipBlanks s with
      | [] => .error (.unfinished .value)
      | c :: t =>
        if c = '[' then pass (.turn false) (.list :: around) t
        else if c = '\x7b' then pass (.turn false) (.object :: around) t
        else
          match passScalar (c :: t) with
          | .error e => .error e
          | .ok rest => pass (.turn true) around rest := by
  rw [pass.eq_def]
  simp only
  split
  · rename_i h; rw [h]
  · rename_i c t h
    simp only [h]
    split
    · rfl
    split
    · rfl
    · split
      · rename_i hp; rw [hp]
      · rename_i hp; rw [hp]

theorem pass_entry_list (outer : List Bracket) (s : List Char) :
    pass .entry (.list :: outer) s = pass .value (.list :: outer) s := by
  rw [pass.eq_def]

theorem pass_entry_object (outer : List Bracket) (s : List Char) :
    pass .entry (.object :: outer) s =
      match passKey s with
      | .error e => .error e
      | .ok rest => pass .value (.object :: outer) rest := by
  rw [pass.eq_def]
  simp only
  split
  · rename_i hk; rw [hk]
  · rename_i hk; rw [hk]

theorem pass_turn (comma : Bool) (bracket : Bracket) (outer : List Bracket) (s : List Char) :
    pass (.turn comma) (bracket :: outer) s =
      match skipBlanks s with
      | [] => .error bracket.unfinished
      | c :: t =>
        if comma = true ∧ c = ',' then pass .entry (bracket :: outer) t
        else if c = bracket.closing then pass (.turn true) outer t
        else if comma then .error bracket.expectedEnd
        else pass .entry (bracket :: outer) (c :: t) := by
  rw [pass.eq_def]
  simp only
  split
  · rename_i h; rw [h]
  · rename_i h; rw [h]

/-- Blanks before a value make no difference. -/
theorem pass_value_skipBlanks : pass .value around (skipBlanks s) = pass .value around s := by
  have hidem : skipBlanks (skipBlanks s) = skipBlanks s := List.dropWhile_idempotent isBlank s
  rw [pass_value_eq, hidem, ← pass_value_eq]

/-! ## Turns -/

theorem pass_turn_closing {comma : Bool} (bracket : Bracket)
    (hs : skipBlanks s = bracket.closing :: rest) :
    pass (.turn comma) (bracket :: outer) s = pass (.turn true) outer rest := by
  have hcomma : ¬ (comma = true ∧ bracket.closing = ',') := by
    cases bracket <;> exact fun h => absurd h.2 (by decide)
  rw [pass_turn, hs]
  simp only [if_neg hcomma, if_true]

theorem pass_turn_comma (bracket : Bracket) (outer : List Bracket) (hs : skipBlanks s = ',' :: t) :
    pass (.turn true) (bracket :: outer) s = pass .entry (bracket :: outer) t := by
  rw [pass_turn, hs]
  exact if_pos ⟨rfl, rfl⟩

theorem pass_turn_first (bracket : Bracket) (outer : List Bracket) {c : Char}
    (hs : skipBlanks s = c :: t) (hc : c ≠ bracket.closing) :
    pass (.turn false) (bracket :: outer) s = pass .entry (bracket :: outer) (c :: t) := by
  rw [pass_turn, hs]
  simp only [Bool.false_eq_true, false_and, if_false, if_neg hc]

/-- To an item of a list. -/
theorem pass_of_itemTurn_entry {first : Bool} (h : itemTurn first s = .ok (.entry t)) :
    pass (.turn !first) (.list :: outer) s = pass .value (.list :: outer) t := by
  rcases itemTurn_entry_cases h with ⟨rfl, hs, c, u, rfl, hc⟩ | ⟨rfl, u, hs, hu⟩
  · exact (pass_turn_first .list outer hs hc).trans (pass_entry_list outer _)
  · rw [← hu, pass_value_skipBlanks, ← pass_entry_list]
    exact pass_turn_comma .list outer hs

theorem passKey_of_stringFrom {key : String} {u : List Char} (hs : skipBlanks s = '"' :: t)
    (hname : stringFrom [] t = .ok (key, u)) (hmark : colon u = .ok rest) :
    passKey s = .ok rest := by
  rw [passKey, hs]
  simp only [if_true, passString_of_stringFrom hname, hmark]

/-- To the value of a field of an object. -/
theorem pass_of_keyTurn_entry {first : Bool} {key : String} {u : List Char}
    (h : keyTurn first s = .ok (.entry t)) (hname : stringFrom [] t = .ok (key, u))
    (hmark : colon u = .ok rest) :
    pass (.turn !first) (.object :: outer) s = pass .value (.object :: outer) rest := by
  rcases keyTurn_entry_cases h with ⟨rfl, hs⟩ | ⟨rfl, v, hs, hv⟩
  -- before the first key the quote has been seen, but it is taken again with the key
  · have hquote : skipBlanks ('"' :: t) = '"' :: t := skipBlanks_cons (by decide)
    have hentry := pass_turn_first .object outer hs (by decide)
    rw [pass_entry_object, passKey_of_stringFrom hquote hname hmark] at hentry
    exact hentry
  · have hentry := pass_turn_comma .object outer hs
    rw [pass_entry_object, passKey_of_stringFrom hv hname hmark] at hentry
    exact hentry

/-! ## Values -/

/-- What a reader takes is passed over to the next turn, inside any brackets. -/
def Passable (reader : Reader Fault Value) : Prop :=
  ∀ ⦃s rest : List Char⦄ ⦃v : Value⦄, reader.run s = .ok (v, rest) →
    ∀ around, pass .value around s = pass (.turn true) around rest

theorem pass_of_itemsRead {item : Reader Fault Value} (hitem : Passable item) {first : Bool}
    {items : List Value} (h : ItemsRead item first s items rest) :
    pass (.turn !first) (.list :: outer) s = pass (.turn true) outer rest := by
  induction h with
  | closed turn => exact pass_turn_closing _ (skipBlanks_of_itemTurn_closed turn)
  | entry turn taken more ih =>
    rw [pass_of_itemTurn_entry turn, hitem taken]
    exact ih

theorem pass_of_fieldsRead {value : Reader Fault Value} (hvalue : Passable value) {first : Bool}
    {fields : List (String × Value)} (h : FieldsRead value first s fields rest) :
    pass (.turn !first) (.object :: outer) s = pass (.turn true) outer rest := by
  induction h with
  | closed turn => exact pass_turn_closing _ (skipBlanks_of_keyTurn_closed turn)
  | entry turn name mark taken more ih =>
    rw [pass_of_keyTurn_entry turn name mark, hvalue taken]
    exact ih

theorem passScalar_number {c : Char} {n : Number} (hstart : startsNumber c = true)
    (h : number (c :: t) = .ok (n, rest)) : passScalar (c :: t) = .ok rest := by
  have hn : c ≠ 'n' := ne_of_startsNumber hstart rfl
  have ht : c ≠ 't' := ne_of_startsNumber hstart rfl
  have hf : c ≠ 'f' := ne_of_startsNumber hstart rfl
  have hq : c ≠ '"' := ne_of_startsNumber hstart rfl
  rw [passScalar, if_neg hn, if_neg ht, if_neg hf, if_neg hq, if_pos hstart]
  exact passNumber_of_number h

theorem pass_of_passScalar {c : Char} (hs : skipBlanks s = c :: t) (hlist : c ≠ '[')
    (hobject : c ≠ '\x7b') (hp : passScalar (c :: t) = .ok rest) :
    pass .value around s = pass (.turn true) around rest := by
  rw [pass_value_eq, hs]
  simp only [if_neg hlist, if_neg hobject, hp]

/-- Each form of a value is passed over, when what may stand inside it is. -/
theorem pass_of_treeRead {levels : Nat} (hinner : ∀ inner < levels, Passable (tree inner))
    {v : Value} (h : TreeRead levels (skipBlanks s) v rest) :
    pass .value around s = pass (.turn true) around rest := by
  generalize hs : skipBlanks s = u at h
  -- a scalar leads to the next turn at once, a bracket by way of its own closing turn
  cases h with
  | null letters => exact pass_of_passScalar hs (by decide) (by decide) letters
  | yes letters => exact pass_of_passScalar hs (by decide) (by decide) letters
  | no letters => exact pass_of_passScalar hs (by decide) (by decide) letters
  | string taken =>
    exact pass_of_passScalar hs (by decide) (by decide) (passString_of_stringFrom taken)
  | number starts taken =>
    exact pass_of_passScalar hs (ne_of_startsNumber starts rfl) (ne_of_startsNumber starts rfl)
      (passScalar_number starts taken)
  | array inside =>
    rw [pass_value_eq, hs]
    exact pass_of_itemsRead (hinner _ (Nat.lt_succ_self _)) inside
  | object inside =>
    rw [pass_value_eq, hs]
    exact pass_of_fieldsRead (hinner _ (Nat.lt_succ_self _)) inside

/-- Every value that can be read can be passed over. -/
theorem passable_tree (levels : Nat) : Passable (tree levels) := by
  -- what stands inside a value was read with fewer levels
  induction levels using Nat.strongRecOn with
  | ind levels ih =>
    intro s rest v h around
    exact pass_of_treeRead ih (treeRead_of_tree h)

theorem passed_run {levels : Nat} {v : Value} (h : (tree levels).run s = .ok (v, rest)) :
    passed.run s = .ok ((), rest) := by
  have hturn : pass (.turn true) [] rest = .ok rest := by rw [pass.eq_def]
  simp only [passed, passable_tree levels h, hturn]

end TermLint.Json

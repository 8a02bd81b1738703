/-
  TermLint.Proofs.Json.Suffix

  What is left after something was taken from a text is a suffix of the text.  For
  what is passed over this is shown branch by branch; whatever can be read can be
  passed over and leaves the same, so the readers need no proofs of their own.
-/

import TermLint.Proofs.Json.Passing

namespace TermLint.Json

open Text (Reader)

variable {s t rest : List Char}

/-! ## Blanks, words and strings -/

theorem skipBlanks_suffix (s : List Char) : skipBlanks s <:+ s :=
  List.dropWhile_suffix isBlank

@[grind →] theorem suffix_of_skipBlanks {c : Char} (h : skipBlanks s = c :: t) : t <:+ s := by
  have hsuffix : c :: t <:+ s := h ▸ skipBlanks_suffix s
  exact (List.suffix_cons c t).trans hsuffix

@[grind →] theorem word_suffix {letters : List Char} (h : word letters s = .ok rest) :
    rest <:+ s := by
  fun_induction word letters s with
  | case1 =>
    cases h
    exact List.suffix_rfl
  | case2 => cases h
  | case3 letters c s ih => exact (ih h).trans (List.suffix_cons _ s)
  | case4 => cases h

@[grind →] theorem hexQuad_suffix {n : Nat} (h : hexQuad s = .ok (n, rest)) : rest <:+ s := by
  unfold hexQuad at h
  grind [List.suffix_cons, List.IsSuffix.trans]

@[grind →] theorem passEscape_suffix (h : passEscape s = .ok rest) : rest <:+ s := by
  unfold passEscape at h
  grind [List.suffix_cons, List.IsSuffix.trans]

@[grind →] theorem passString_suffix (h : passString s = .ok rest) : rest <:+ s := by
  fun_induction passString s with
  | case1 => cases h
  | case2 s =>
    cases h
    exact List.suffix_cons _ _
  | case3 => cases h
  | case4 s left hescape hlt _ ih =>
    have hleft : left <:+ s := passEscape_suffix hescape
    exact (ih h).trans (hleft.trans (List.suffix_cons _ s))
  | case5 => cases h
  | case6 c s _ _ _ ih => exact (ih h).trans (List.suffix_cons c s)

/-! ## Numbers -/

theorem splitSign_suffix (s : List Char) : (splitSign s).2 <:+ s := by
  unfold splitSign
  split
  · exact List.suffix_cons _ _
  · exact List.suffix_cons _ _
  · exact List.suffix_rfl

@[grind →] theorem passPower_suffix (h : passPower s = .ok rest) : rest <:+ s := by
  unfold passPower at h
  grind [List.suffix_cons, List.IsSuffix.trans, List.dropWhile_suffix]

@[grind →] theorem passScale_suffix (h : passScale s = .ok rest) : rest <:+ s := by
  unfold passScale at h
  grind [List.suffix_cons, List.IsSuffix.trans, splitSign_suffix]

@[grind →] theorem passFraction_suffix (h : passFraction s = .ok rest) : rest <:+ s := by
  unfold passFraction at h
  grind [List.suffix_cons, List.IsSuffix.trans, List.dropWhile_suffix]

@[grind →] theorem passNumber_suffix (h : passNumber s = .ok rest) : rest <:+ s := by
  unfold passNumber passUnsigned at h
  grind [List.suffix_cons, List.IsSuffix.trans, List.dropWhile_suffix]

/-! ## Values -/

@[grind →] theorem colon_suffix (h : colon s = .ok rest) : rest <:+ s := by
  unfold colon at h
  grind

@[grind →] theorem passScalar_suffix (h : passScalar s = .ok rest) : rest <:+ s := by
  unfold passScalar at h
  grind [List.suffix_cons, List.IsSuffix.trans]

@[grind →] theorem passKey_suffix (h : passKey s = .ok rest) : rest <:+ s := by
  unfold passKey at h
  grind [List.IsSuffix.trans]

theorem pass_suffix {stage : Stage} {around : List Bracket} (h : pass stage around s = .ok rest) :
    rest <:+ s := by
  -- every case that goes on does so with a suffix of what it was given
  fun_induction pass stage around s with
  | case1 => cases h
  | case2 around s t hs hlt ih => exact (ih h).trans (suffix_of_skipBlanks hs)
  | case3 around s t hs hlt _ ih => exact (ih h).trans (suffix_of_skipBlanks hs)
  | case4 => cases h
  | case5 around s c t hs hlt _ _ left hscalar hlt' ih =>
    have hleft : left <:+ c :: t := passScalar_suffix hscalar
    exact (ih h).trans (hleft.trans (hs ▸ skipBlanks_suffix s))
  | case6 => cases h
  | case7 s outer left hkey hlt ih => exact (ih h).trans (passKey_suffix hkey)
  | case8 around s hne ih => exact ih h
  | case9 =>
    cases h
    exact List.suffix_rfl
  | case10 => cases h
  | case11 s comma bracket outer c t hs hlt _ ih => exact (ih h).trans (suffix_of_skipBlanks hs)
  | case12 s comma bracket outer t hs hlt _ ih => exact (ih h).trans (suffix_of_skipBlanks hs)
  | case13 => cases h
  | case14 s comma bracket outer c t hs hlt _ _ _ ih =>
    exact (ih h).trans (hs ▸ skipBlanks_suffix s)

/-! ## Readers -/

theorem passed_suffix (h : passed.run s = .ok ((), rest)) : rest <:+ s := by
  simp only [passed] at h
  split at h
  · cases h
  · rename_i left hpass
    cases h
    exact pass_suffix hpass

theorem stringFrom_suffix {text : String} (h : stringFrom [] s = .ok (text, rest)) : rest <:+ s :=
  passString_suffix (passString_of_stringFrom h)

theorem tree_suffix {levels : Nat} {v : Value} (h : (tree levels).run s = .ok (v, rest)) :
    rest <:+ s :=
  passed_suffix (passed_run h)

/-! ## Turns -/

theorem itemTurn_entry_suffix {first : Bool} (h : itemTurn first s = .ok (.entry t)) : t <:+ s := by
  unfold itemTurn at h
  grind [List.IsSuffix.trans, skipBlanks_suffix]

theorem keyTurn_entry_suffix {first : Bool} (h : keyTurn first s = .ok (.entry t)) : t <:+ s := by
  unfold keyTurn at h
  grind [List.IsSuffix.trans]

end TermLint.Json

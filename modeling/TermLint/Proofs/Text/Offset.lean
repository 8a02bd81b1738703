/-
  TermLint.Proofs.Text.Offset

  Places in a text, by an offset in bytes or in code units, or by a line and a column.
  Every beginning of a text gives a place at which the text can be cut, and the cut
  gives the beginning back.  The bytes of a term occur in the bytes of a text only where
  the term occurs in the text: the first byte of a character is never one of the later
  bytes of another.
-/

import TermLint.Proofs.Text.Occurrence

namespace TermLint.Text

open Json (byteCount)

/-! ## Cutting at an offset -/

/-- A text cut at an offset to which every character adds its size.  There is no cut inside a
character and none beyond the end. -/
def cutAt? (size : Char → Nat) : Nat → List Char → Option (List Char × List Char)
  | 0, text => some ([], text)
  | _ + 1, [] => none
  | n + 1, c :: text =>
    if size c ≤ n + 1 then
      (cutAt? size (n + 1 - size c) text).map fun halves => (c :: halves.1, halves.2)
    else none

section CutAt

-- `measure` adds up the sizes of the characters of a text
variable {size : Char → Nat} {measure : List Char → Nat} (hnil : measure [] = 0)
  (hcons : ∀ c text, measure (c :: text) = size c + measure text)

theorem cutAt?_cons (hpos : ∀ c, 0 < size c) (c : Char) (n : Nat) (text : List Char) :
    cutAt? size (size c + n) (c :: text) =
      (cutAt? size n text).map fun halves => (c :: halves.1, halves.2) := by
  obtain ⟨k, hk⟩ := Nat.exists_eq_add_one_of_ne_zero (Nat.ne_of_gt (hpos c))
  have hsum : size c + n = (k + n) + 1 := by omega
  have hrest : k + n + 1 - size c = n := by omega
  rw [hsum, cutAt?, if_pos (by omega), hrest]

include hcons

/-- There is no cut beyond the end. -/
theorem le_of_cutAt? {n : Nat} {text : List Char} (h : (cutAt? size n text).isSome) :
    n ≤ measure text := by
  induction text generalizing n with
  | nil =>
    cases n with
    | zero => exact Nat.zero_le _
    | succ n => cases h
  | cons c text ih =>
    cases n with
    | zero => exact Nat.zero_le _
    | succ n =>
      rw [cutAt?] at h
      split at h
      · rw [Option.isSome_map] at h
        have hle := ih h
        rw [hcons]
        omega
      · cases h

include hnil

/-- A text is cut where a beginning of it ends. -/
theorem cutAt?_append (hpos : ∀ c, 0 < size c) (a b : List Char) :
    cutAt? size (measure a) (a ++ b) = some (a, b) := by
  induction a with
  | nil => rw [hnil, cutAt?, List.nil_append]
  | cons c a ih =>
    rw [hcons, List.cons_append, cutAt?_cons hpos, ih]
    rfl

end CutAt

/-- The offset of a place, in bytes. -/
theorem cutAt?_byteCount (a b : List Char) :
    cutAt? Char.utf8Size (byteCount a) (a ++ b) = some (a, b) :=
  cutAt?_append byteCount_nil byteCount_cons (fun c => c.utf8Size_pos) a b

/-- The offset of a place, in code units. -/
theorem cutAt?_units (a b : List Char) :
    cutAt? charUnits (units a) (a ++ b) = some (a, b) :=
  cutAt?_append units_nil units_cons charUnits_pos a b

/-! ## Cutting at a line and a column -/

/-- A text cut at a line, counted from zero, and a column of it, counted in code units.  There is no
cut in a line that the text does not have. -/
def cutPlace? (number column : Nat) (text : List Char) : Option (List Char × List Char) :=
  let lines := text.splitOn '\n'
  match lines[number]? with
  | none => none
  | some line =>
    (cutAt? charUnits column line).map fun halves =>
      (['\n'].intercalate (lines.take number ++ [halves.1]),
        ['\n'].intercalate (halves.2 :: lines.drop (number + 1)))

theorem splitOn_append_cons {line : List Char} (h : '\n' ∉ line) (rest : List Char) :
    (line ++ '\n' :: rest).splitOn '\n' = line :: rest.splitOn '\n' := by
  rw [List.splitOn_append_cons_self, List.splitOn_eq_singleton h, List.singleton_append]

theorem cutPlace?_zero {p : List Char} (h : '\n' ∉ p) (s : List Char) :
    cutPlace? 0 (units p) (p ++ s) = some (p, s) := by
  by_cases hfeed : '\n' ∈ s
  · obtain ⟨line, rest, rfl, hline⟩ := List.eq_append_cons_of_mem hfeed
    have hfirst : '\n' ∉ p ++ line := fun hmem => (List.mem_append.mp hmem).elim h hline
    rw [cutPlace?, ← List.append_assoc, splitOn_append_cons hfirst]
    simp only [List.getElem?_cons_zero, cutAt?_units, Option.map_some, List.take_zero,
      List.nil_append, List.intercalate_singleton, List.drop_succ_cons, List.drop_zero]
    rw [List.intercalate_cons_of_ne_nil (List.splitOn_ne_nil '\n' rest),
      List.intercalate_splitOn, List.append_assoc, List.singleton_append]
  · have hfirst : '\n' ∉ p ++ s := fun hmem => (List.mem_append.mp hmem).elim h hfeed
    rw [cutPlace?, List.splitOn_eq_singleton hfirst]
    simp only [List.getElem?_cons_zero, cutAt?_units, Option.map_some, List.take_zero,
      List.nil_append, List.intercalate_singleton, List.drop_succ_cons, List.drop_nil]

theorem cutPlace?_succ {line : List Char} (h : '\n' ∉ line) (number column : Nat)
    (rest : List Char) :
    cutPlace? (number + 1) column (line ++ '\n' :: rest) =
      (cutPlace? number column rest).map fun halves => (line ++ '\n' :: halves.1, halves.2) := by
  rw [cutPlace?, cutPlace?, splitOn_append_cons h]
  simp only [List.getElem?_cons_succ, List.take_succ_cons, List.drop_succ_cons]
  cases (rest.splitOn '\n')[number]? with
  | none => rfl
  | some piece =>
    simp only [Option.map_map]
    congr 1
    funext halves
    simp only [Function.comp, List.cons_append]
    rw [List.intercalate_cons_of_ne_nil (by simp), List.append_assoc, List.singleton_append]

/-- The line and the column of a place cut the text at that place. -/
theorem cutPlace?_eq (p s : List Char) :
    cutPlace? (p.count '\n') (units (lastLine p)) (p ++ s) = some (p, s) := by
  induction hcount : p.count '\n' generalizing p with
  | zero =>
    have hfeed : '\n' ∉ p := List.count_eq_zero.mp hcount
    rw [lastLine_of_not_mem hfeed, cutPlace?_zero hfeed]
  | succ number ih =>
    -- the first line is passed on both sides
    have hfeed : '\n' ∈ p := List.count_pos_iff.mp (by omega)
    obtain ⟨line, rest, rfl, hline⟩ := List.eq_append_cons_of_mem hfeed
    have hrest : rest.count '\n' = number := by
      rw [List.count_append, List.count_cons_self, List.count_eq_zero.mpr hline] at hcount
      omega
    rw [lastLine_append_cons, List.append_assoc, List.cons_append, cutPlace?_succ hline,
      ih rest hrest]
    rfl

/-! ## The bytes of a text -/

/-- The UTF-8 encoding of a text. -/
def utf8 (text : List Char) : List UInt8 :=
  text.flatMap String.utf8EncodeChar

theorem utf8_cons (c : Char) (text : List Char) :
    utf8 (c :: text) = String.utf8EncodeChar c ++ utf8 text :=
  List.flatMap_cons

@[simp] theorem utf8_append (a b : List Char) : utf8 (a ++ b) = utf8 a ++ utf8 b :=
  List.flatMap_append

@[simp] theorem length_utf8 (text : List Char) : (utf8 text).length = byteCount text := by
  induction text with
  | nil => rfl
  | cons c text ih =>
    rw [utf8_cons, List.length_append, String.length_utf8EncodeChar, ih, byteCount_cons]

/-- No two characters begin the same bytes. -/
theorem eq_of_utf8EncodeChar_append {c d : Char} {u v : List UInt8}
    (h : String.utf8EncodeChar c ++ u = String.utf8EncodeChar d ++ v) : c = d := by
  have hc := @ByteArray.utf8DecodeChar?_utf8EncodeChar_append u.toByteArray c
  have hd := @ByteArray.utf8DecodeChar?_utf8EncodeChar_append v.toByteArray d
  rw [← List.toByteArray_append, h, List.toByteArray_append, hd] at hc
  exact (Option.some.inj hc).symm

/-- Of the bytes of a character only the first one can begin a character. -/
theorem isUTF8FirstByte_iff {c : Char} {u q : List UInt8} {byte : UInt8}
    (h : String.utf8EncodeChar c = u ++ byte :: q) : byte.IsUTF8FirstByte ↔ u = [] := by
  have hlt : u.length < (String.utf8EncodeChar c).length := by
    rw [h, List.length_append, List.length_cons]
    omega
  have hbyte : (String.utf8EncodeChar c)[u.length] = byte := by
    simp only [h, List.getElem_append_right (Nat.le_refl _),
      Nat.sub_self, List.getElem_cons_zero]
  rw [← hbyte, UInt8.isUTF8FirstByte_getElem_utf8EncodeChar, List.length_eq_zero_iff]

/-- Bytes that begin with the bytes of a term are those of a text that begins with the term. -/
theorem exists_of_utf8_eq_append {term text : List Char} {v : List UInt8}
    (h : utf8 text = utf8 term ++ v) : ∃ s, text = term ++ s ∧ v = utf8 s := by
  induction term generalizing text with
  | nil => exact ⟨text, rfl, h.symm⟩
  | cons c term ih =>
    cases text with
    | nil =>
      rw [utf8_cons, List.append_assoc] at h
      exact absurd (List.append_eq_nil_iff.mp h.symm).1 String.utf8EncodeChar_ne_nil
    | cons d text =>
      rw [utf8_cons, utf8_cons, List.append_assoc] at h
      obtain rfl := eq_of_utf8EncodeChar_append h
      obtain ⟨s, rfl, hv⟩ := ih (List.append_cancel_left h)
      exact ⟨s, rfl, hv⟩

/-- The bytes of a term occur only where the term occurs. -/
theorem exists_of_utf8_eq {term text : List Char} {u v : List UInt8} (hne : term ≠ [])
    (h : utf8 text = u ++ utf8 term ++ v) :
    ∃ p s, text = p ++ term ++ s ∧ u = utf8 p ∧ v = utf8 s := by
  rw [List.append_assoc] at h
  induction text generalizing u with
  | nil =>
    have hnil : utf8 [] = utf8 term ++ v := (List.append_eq_nil_iff.mp h.symm).2.symm
    obtain ⟨s, hs, -⟩ := exists_of_utf8_eq_append hnil
    exact absurd (List.append_eq_nil_iff.mp hs.symm).1 hne
  | cons x text ih =>
    by_cases hu : u = []
    · subst hu
      obtain ⟨s, hs, hv⟩ := exists_of_utf8_eq_append h
      exact ⟨[], s, hs, rfl, hv⟩
    · -- the bytes before the occurrence hold all of the first character or a part of it
      have hlater : ∀ q, u = String.utf8EncodeChar x ++ q → utf8 text = q ++ (utf8 term ++ v) →
          ∃ p s, x :: text = p ++ term ++ s ∧ u = utf8 p ∧ v = utf8 s := by
        intro q hq htext
        obtain ⟨p, s, rfl, rfl, hv⟩ := ih htext
        exact ⟨x :: p, s, rfl, hq.trans (utf8_cons x p).symm, hv⟩
      rw [utf8_cons] at h
      rcases List.append_eq_append_iff.mp h with ⟨q, hq, htext⟩ | ⟨q, hx, hrest⟩
      · exact hlater q hq htext
      · cases q with
        | nil =>
          rw [List.append_nil] at hx
          exact hlater [] (by rw [List.append_nil, hx]) hrest.symm
        | cons byte q =>
          -- the first byte of the term would stand inside the first character
          exfalso
          obtain ⟨c, t, rfl⟩ := List.exists_cons_of_ne_nil hne
          obtain ⟨first, more, hfirst⟩ :=
            List.exists_cons_of_ne_nil (String.utf8EncodeChar_ne_nil (c := c))
          rw [utf8_cons, hfirst] at hrest
          obtain ⟨rfl, -⟩ := List.cons.inj hrest
          exact hu ((isUTF8FirstByte_iff hx).mp ((isUTF8FirstByte_iff (u := []) hfirst).mpr rfl))

/-- The first occurrence of the bytes of a term is the first occurrence of the term. -/
theorem firstCut_of_utf8 {term text : List Char} {u v : List UInt8} (hne : term ≠ [])
    (h : FirstCut (utf8 term) (utf8 text) u v) :
    ∃ p s, u = utf8 p ∧ FirstCut term text p s := by
  obtain ⟨p, s, htext, hu, -⟩ := exists_of_utf8_eq hne h.eq
  refine ⟨p, s, hu, htext, fun p' s' htext' => Nat.le_of_not_lt fun hlt => ?_⟩
  -- an earlier occurrence of the term would be an earlier occurrence of its bytes
  have hle := h.first (utf8 p') (utf8 s') (by rw [htext', utf8_append, utf8_append])
  have heq : p ++ (term ++ s) = p' ++ (term ++ s') := by
    rw [← List.append_assoc, ← htext, htext', List.append_assoc]
  obtain ⟨x, q, hp, -⟩ := exists_of_append_eq heq hlt
  have hsize := x.utf8Size_pos
  rw [hu, length_utf8, length_utf8, hp, byteCount_append, byteCount_cons] at hle
  omega

end TermLint.Text

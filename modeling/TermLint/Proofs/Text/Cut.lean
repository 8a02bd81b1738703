/-
  TermLint.Proofs.Text.Cut

  Cutting and trimming, said without the functions that do it.  `cut?` finds the
  first occurrence of a separator, whatever the separator is; `pieces` is the
  library's `splitOn`; and what `strip` leaves of a list stands between two runs of
  elements that are dropped.
-/

import TermLint.Text.Blank
import TermLint.Text.Cut

namespace TermLint.Text

variable {α : Type}

/-! ## Cutting once -/

/-- `before` and `after` stand around the first occurrence of `sep`. -/
structure FirstCut (sep xs before after : List α) : Prop where
  eq : xs = before ++ sep ++ after
  first : ∀ p s, xs = p ++ sep ++ s → before.length ≤ p.length

/-- There is only one first occurrence. -/
theorem FirstCut.unique {sep xs before after before' after' : List α}
    (h : FirstCut sep xs before after) (h' : FirstCut sep xs before' after') :
    before = before' ∧ after = after' := by
  have hlength : before.length = before'.length :=
    Nat.le_antisymm (h.first _ _ h'.eq) (h'.first _ _ h.eq)
  have hxs : before ++ (sep ++ after) = before' ++ (sep ++ after') := by
    rw [← List.append_assoc, ← List.append_assoc, ← h.eq, h'.eq]
  obtain ⟨hbefore, hrest⟩ := List.append_inj hxs hlength
  exact ⟨hbefore, List.append_cancel_left hrest⟩

/-- Of two ways to cut a list in two, the shorter first half is a beginning of the longer one. -/
theorem exists_of_append_eq {a b c d : List α} (h : a ++ b = c ++ d) (hlt : c.length < a.length) :
    ∃ x q, a = c ++ x :: q ∧ d = x :: (q ++ b) := by
  rcases List.append_eq_append_iff.mp h with ⟨q, hc, -⟩ | ⟨q, ha, hd⟩
  · rw [hc, List.length_append] at hlt
    omega
  · cases q with
    | nil =>
      rw [ha, List.append_nil] at hlt
      exact absurd hlt (Nat.lt_irrefl _)
    | cons x q => exact ⟨x, q, ha, hd⟩

section Cutting

variable [BEq α] [LawfulBEq α] {sep passed xs before after p s : List α}

/-- No occurrence is passed over. -/
theorem length_le_of_cutFrom (h : cutFrom sep passed xs = some (before, after))
    (hxs : xs = p ++ sep ++ s) : before.length ≤ passed.length + p.length := by
  induction xs generalizing passed p with
  | nil =>
    rw [cutFrom] at h
    split at h
    · cases h
      simp
    · cases h
  | cons x xs ih =>
    rw [cutFrom] at h
    split at h
    · cases h
      simp
    · rename_i hprefix
      cases p with
      | nil => exact absurd (List.isPrefixOf_iff_prefix.mpr ⟨s, hxs.symm⟩) hprefix
      | cons y p =>
        have hle := ih h (List.cons.inj hxs).2
        simp only [List.length_cons] at hle ⊢
        omega

/-- Where there is an occurrence, one is found. -/
theorem isSome_cutFrom (hxs : xs = p ++ sep ++ s) : (cutFrom sep passed xs).isSome := by
  induction xs generalizing passed p with
  | nil =>
    have hsep : sep = [] := by
      rw [List.append_assoc] at hxs
      exact (List.append_eq_nil_iff.mp (List.append_eq_nil_iff.mp hxs.symm).2).1
    rw [cutFrom, hsep]
    rfl
  | cons x xs ih =>
    rw [cutFrom]
    split
    · rfl
    · rename_i hprefix
      cases p with
      | nil => exact absurd (List.isPrefixOf_iff_prefix.mpr ⟨s, hxs.symm⟩) hprefix
      | cons y p => exact ih (List.cons.inj hxs).2

/-- A list is cut at the first occurrence of the separator. -/
theorem cut?_eq_some_iff : cut? sep xs = some (before, after) ↔ FirstCut sep xs before after := by
  have hsound : ∀ {before after}, cut? sep xs = some (before, after) →
      FirstCut sep xs before after := by
    intro before after h
    refine ⟨cut?_eq h, fun p s hxs => ?_⟩
    have hle := length_le_of_cutFrom h hxs
    rwa [List.length_nil, Nat.zero_add] at hle
  refine ⟨hsound, fun h => ?_⟩
  have hsome : (cut? sep xs).isSome := isSome_cutFrom h.eq
  obtain ⟨⟨found, rest⟩, hfound⟩ := Option.isSome_iff_exists.mp hsome
  obtain ⟨rfl, rfl⟩ := h.unique (hsound hfound)
  exact hfound

/-- A text is cut at a separator that cannot begin earlier. -/
theorem cut?_append (first : α) (sep : List α) {before : List α} (after : List α)
    (h : first ∉ before) :
    cut? (first :: sep) (before ++ (first :: sep) ++ after) = some (before, after) := by
  refine cut?_eq_some_iff.mpr ⟨rfl, fun p s heq => Nat.le_of_not_lt fun hlt => ?_⟩
  rw [List.append_assoc, List.append_assoc] at heq
  -- an occurrence that began earlier would begin inside `before`
  obtain ⟨x, q, hbefore, hrest⟩ := exists_of_append_eq heq hlt
  refine h ?_
  rw [hbefore, List.head_eq_of_cons_eq hrest]
  exact List.mem_append_right _ List.mem_cons_self

theorem cut?_singleton_eq_none_iff {x : α} : cut? [x] xs = none ↔ x ∉ xs := by
  constructor
  · intro hnone hmem
    obtain ⟨p, s, hxs⟩ := List.append_of_mem hmem
    have hsome : (cut? [x] xs).isSome := isSome_cutFrom (hxs.trans (List.append_cons p x s))
    rw [hnone] at hsome
    cases hsome
  · intro hmem
    cases hcut : cut? [x] xs with
    | none => rfl
    | some halves =>
      have hxs := (cut?_eq_some_iff.mp hcut).eq
      exact absurd (by simp [hxs]) hmem

omit [BEq α] [LawfulBEq α] in
theorem FirstCut.not_mem {x : α} (h : FirstCut [x] xs before after) : x ∉ before := by
  intro hmem
  obtain ⟨p, s, rfl⟩ := List.append_of_mem hmem
  have hle := h.first p (s ++ [x] ++ after) (by rw [h.eq]; simp)
  rw [List.length_append, List.length_cons] at hle
  omega

end Cutting

/-! ## Cutting everywhere -/

section Pieces

variable [BEq α] [LawfulBEq α] {sep : α} {xs piece : List α}

omit [BEq α] [LawfulBEq α] in
theorem modifyHead_nil_append (pieces : List (List α)) :
    pieces.modifyHead (([] : List α) ++ ·) = pieces := by
  cases pieces with
  | nil => rfl
  | cons piece more => rfl

omit [LawfulBEq α] in
theorem piecesFrom_eq (sep : α) (piece : List α) (done : List (List α)) (xs : List α) :
    piecesFrom sep piece done xs =
      done.reverse ++ (xs.splitOn sep).modifyHead (piece.reverse ++ ·) := by
  induction xs generalizing piece done with
  | nil => simp [piecesFrom]
  | cons x xs ih =>
    rw [piecesFrom, List.splitOn_cons_eq_if_modifyHead]
    split
    · rw [ih, List.reverse_nil, modifyHead_nil_append]
      simp
    · rw [ih, List.modifyHead_modifyHead]
      congr 2
      funext piece'
      simp

omit [LawfulBEq α] in
theorem pieces_eq_splitOn (sep : α) (xs : List α) : pieces sep xs = xs.splitOn sep := by
  rw [pieces, piecesFrom_eq, List.reverse_nil, List.reverse_nil, modifyHead_nil_append,
    List.nil_append]

omit [LawfulBEq α] in
theorem pieces_ne_nil (sep : α) (xs : List α) : pieces sep xs ≠ [] := by
  rw [pieces_eq_splitOn]
  exact List.splitOn_ne_nil sep xs

theorem pieces_of_not_mem (h : sep ∉ xs) : pieces sep xs = [xs] := by
  rw [pieces_eq_splitOn, List.splitOn_eq_singleton h]

/-- Pieces on the two sides of an occurrence are cut on their own. -/
theorem pieces_append_cons (sep : α) (before after : List α) :
    pieces sep (before ++ sep :: after) = pieces sep before ++ pieces sep after := by
  simp only [pieces_eq_splitOn, List.splitOn_append_cons_self]

/-- Every piece with the separator after it makes the list and one more separator. -/
theorem flatMap_pieces (sep : α) (xs : List α) :
    (pieces sep xs).flatMap (fun piece => piece ++ [sep]) = xs ++ [sep] := by
  rw [pieces_eq_splitOn]
  induction xs with
  | nil => rfl
  | cons x xs ih =>
    rw [List.splitOn_cons_eq_if_modifyHead]
    split
    · rename_i hx
      rw [List.flatMap_cons, ih, eq_of_beq hx]
      rfl
    · cases hsplit : xs.splitOn sep with
      | nil => exact absurd hsplit (List.splitOn_ne_nil sep xs)
      | cons piece more =>
        rw [hsplit] at ih
        rw [List.modifyHead_cons, List.flatMap_cons, List.cons_append, List.cons_append,
          ← List.flatMap_cons (f := fun piece => piece ++ [sep]), ih]
        rfl

/-- No piece holds the separator. -/
theorem not_mem_of_mem_pieces (h : piece ∈ pieces sep xs) : sep ∉ piece := by
  rw [pieces_eq_splitOn] at h
  induction xs generalizing piece with
  | nil =>
    rw [List.splitOn_nil, List.mem_singleton] at h
    simp [h]
  | cons x xs ih =>
    rw [List.splitOn_cons_eq_if_modifyHead] at h
    split at h
    · rcases List.mem_cons.mp h with rfl | h
      · simp
      · exact ih h
    · rename_i hx
      cases hsplit : xs.splitOn sep with
      | nil => exact absurd hsplit (List.splitOn_ne_nil sep xs)
      | cons first more =>
        rw [hsplit] at h ih
        rw [List.modifyHead_cons, List.mem_cons] at h
        -- the first piece has become longer by an element that is no separator
        rcases h with rfl | h
        · have hfirst := ih List.mem_cons_self
          simp only [beq_iff_eq] at hx
          simp [hfirst, Ne.symm hx]
        · exact ih (List.mem_cons_of_mem _ h)

/-- A piece holds nothing that is not in the list. -/
theorem mem_of_mem_pieces {x : α} (h : piece ∈ pieces sep xs) (hx : x ∈ piece) : x ∈ xs := by
  have hne : x ≠ sep := fun heq => not_mem_of_mem_pieces h (heq ▸ hx)
  have hmem : x ∈ (pieces sep xs).flatMap fun piece => piece ++ [sep] :=
    List.mem_flatMap.mpr ⟨piece, h, List.mem_append_left _ hx⟩
  rw [flatMap_pieces, List.mem_append, List.mem_singleton] at hmem
  exact hmem.resolve_right hne

end Pieces

/-- A text without a line feed is one line. -/
theorem lines_of_not_mem {text : List Char} (hne : text ≠ []) (h : '\n' ∉ text) :
    lines text = [text] := by
  cases text with
  | nil => exact absurd rfl hne
  | cons c text =>
    simp only [lines, pieces_of_not_mem h]
    rfl

/-! ## Trimming -/

/-- The longest beginning of a list whose elements all have a property. -/
theorem exists_run (P : α → Prop) (xs : List α) :
    ∃ run rest, xs = run ++ rest ∧ (∀ x ∈ run, P x) ∧ ∀ x ∈ rest.head?, ¬ P x := by
  induction xs with
  | nil => exact ⟨[], [], rfl, by simp, by simp⟩
  | cons x xs ih =>
    by_cases hx : P x
    · obtain ⟨run, rest, rfl, hrun, hrest⟩ := ih
      refine ⟨x :: run, rest, rfl, ?_, hrest⟩
      intro y hy
      rcases List.mem_cons.mp hy with rfl | hy
      · exact hx
      · exact hrun y hy
    · exact ⟨[], x :: xs, rfl, by simp, by simpa using hx⟩

/-- Nothing is dropped from a list that neither begins nor ends with what is dropped. -/
theorem strip_eq_self {p : α → Bool} {xs : List α} (hhead : ∀ x ∈ xs.head?, p x = false)
    (hlast : ∀ x ∈ xs.getLast?, p x = false) : strip p xs = xs := by
  have hfirst : xs.dropWhile p = xs := by
    cases xs with
    | nil => rfl
    | cons x xs => exact List.dropWhile_cons_of_neg (by simp [hhead x rfl])
  have hrest : xs.reverse.dropWhile p = xs.reverse := by
    rw [← List.head?_reverse] at hlast
    cases hr : xs.reverse with
    | nil => rfl
    | cons x rest =>
      rw [hr] at hlast
      exact List.dropWhile_cons_of_neg (by simp [hlast x rfl])
  rw [strip, hfirst, hrest, List.reverse_reverse]

/-- One more element that is dropped makes no difference. -/
theorem strip_concat {p : α → Bool} (xs : List α) {x : α} (h : p x = true) :
    strip p (xs ++ [x]) = strip p xs := by
  rw [strip, strip, List.dropWhile_append]
  split
  · rename_i hempty
    rw [List.isEmpty_iff.mp hempty, List.dropWhile_cons_of_pos h]
    rfl
  · rw [List.reverse_append, List.reverse_singleton, List.singleton_append,
      List.dropWhile_cons_of_pos h]

/-- Elements that are dropped may stand around a list. -/
theorem strip_append_append {p : α → Bool} {a b : List α} (ha : ∀ x ∈ a, p x = true)
    (hb : ∀ x ∈ b, p x = true) (xs : List α) : strip p (a ++ xs ++ b) = strip p xs := by
  have hleft : ∀ ys, strip p (a ++ ys) = strip p ys := fun ys => by
    rw [strip, List.dropWhile_append_of_pos ha, strip]
  have hright : ∀ ys, strip p (ys ++ b) = strip p ys := by
    induction b with
    | nil => simp
    | cons x b ih =>
      intro ys
      rw [List.append_cons, ih (fun y hy => hb y (List.mem_cons_of_mem _ hy)),
        strip_concat _ (hb x List.mem_cons_self)]
  rw [hright, hleft]

/-- What is left of a list stands between two runs of what is dropped, and neither begins nor ends
with it. -/
theorem exists_strip (p : α → Bool) (xs : List α) :
    ∃ a b, xs = a ++ strip p xs ++ b ∧ (∀ x ∈ a, p x = true) ∧ (∀ x ∈ b, p x = true) ∧
      (∀ x ∈ (strip p xs).head?, p x = false) ∧ ∀ x ∈ (strip p xs).getLast?, p x = false := by
  obtain ⟨a, rest, rfl, ha, hrest⟩ := exists_run (fun x => p x = true) xs
  obtain ⟨b, middle, hmiddle, hb, hlast⟩ := exists_run (fun x => p x = true) rest.reverse
  obtain rfl : rest = middle.reverse ++ b.reverse := by
    rw [← List.reverse_append, ← hmiddle, List.reverse_reverse]
  have hhead : ∀ x ∈ middle.reverse.head?, p x = false := by
    intro x hx
    refine Bool.eq_false_iff.mpr (hrest x ?_)
    rw [List.head?_append, Option.mem_def.mp hx]
    rfl
  have hend : ∀ x ∈ middle.reverse.getLast?, p x = false := by
    intro x hx
    rw [List.getLast?_reverse] at hx
    exact Bool.eq_false_iff.mpr (hlast x hx)
  have hdropped : ∀ x ∈ b.reverse, p x = true := fun x hx => hb x (List.mem_reverse.mp hx)
  have hstrip : strip p (a ++ (middle.reverse ++ b.reverse)) = middle.reverse := by
    rw [← List.append_assoc, strip_append_append ha hdropped, strip_eq_self hhead hend]
  rw [hstrip]
  exact ⟨a, b.reverse, (List.append_assoc _ _ _).symm, ha, hdropped, hhead, hend⟩

/-! ## Blanks -/

/-- The visible characters of ASCII are not blank. -/
theorem isBlank_of_visible {c : Char} (hlow : 0x20 < c.toNat) (hhigh : c.toNat < 0x7F) :
    isBlank c = false := by
  rw [isBlank, List.any_eq_false]
  intro range hrange
  simp only [blankRanges, List.mem_cons, List.not_mem_nil, or_false] at hrange
  simp only [Bool.and_eq_true, decide_eq_true_eq, not_and, Nat.not_le]
  intro hle
  -- each range of blanks lies below these characters or above them
  rcases hrange with rfl | rfl | rfl | rfl | rfl | rfl | rfl | rfl | rfl | rfl <;> omega

theorem isBlank_of_isDigit {c : Char} (h : c.isDigit = true) : isBlank c = false := by
  simp only [Char.isDigit, Bool.and_eq_true, decide_eq_true_eq] at h
  obtain ⟨hlow, hhigh⟩ := h
  have hl : 48 ≤ c.toNat := hlow
  have hh : c.toNat ≤ 57 := hhigh
  exact isBlank_of_visible (by omega) (by omega)

theorem trim_space_digits {digits : List Char} (h : ∀ c ∈ digits, c.isDigit = true) :
    trim (' ' :: digits) = digits := by
  have hstrip : strip isBlank digits = digits :=
    strip_eq_self (fun c hc => isBlank_of_isDigit (h c (List.mem_of_mem_head? hc)))
      fun c hc => isBlank_of_isDigit (h c (List.mem_of_mem_getLast? hc))
  rw [trim, strip, List.dropWhile_cons_of_pos (by decide)]
  exact hstrip

end TermLint.Text

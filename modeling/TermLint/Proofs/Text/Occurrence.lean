/-
  TermLint.Proofs.Text.Occurrence

  All occurrences of a term in a text, overlapping ones included.  An occurrence is
  given by what stands before and after it; from what stands before follow its line,
  the number of line feeds there, and its column, the code units after the last of
  them.  A term without a line feed occurs in a text exactly where it occurs in a
  line, so the occurrences can be found line by line.
-/

import Mathlib.Data.List.DropRight
import TermLint.Proofs.Text.Bytes

namespace TermLint.Text

/-! ## Occurrences in a list -/

section Occurrences

variable {α : Type} [BEq α] [LawfulBEq α] {term xs p s : List α}

/-- What stands before and after each occurrence of a term, from left to right. -/
def occurrences (term : List α) : List α → List (List α × List α)
  | [] => if term.isPrefixOf [] then [([], [])] else []
  | x :: xs =>
    let later := (occurrences term xs).map fun site => (x :: site.1, site.2)
    if term.isPrefixOf (x :: xs) then ([], (x :: xs).drop term.length) :: later else later

theorem occurrences_cons_of_pos {x : α} (h : term <+: x :: xs) :
    occurrences term (x :: xs) =
      ([], (x :: xs).drop term.length) ::
        (occurrences term xs).map fun site => (x :: site.1, site.2) := by
  rw [occurrences]
  exact if_pos (List.isPrefixOf_iff_prefix.mpr h)

theorem occurrences_cons_of_neg {x : α} (h : ¬ term <+: x :: xs) :
    occurrences term (x :: xs) =
      (occurrences term xs).map fun site => (x :: site.1, site.2) := by
  rw [occurrences]
  exact if_neg fun hp => h (List.isPrefixOf_iff_prefix.mp hp)

theorem occurrences_nil (h : term ≠ []) : occurrences term [] = [] := by
  rw [occurrences]
  exact if_neg fun hp => h (List.prefix_nil.mp (List.isPrefixOf_iff_prefix.mp hp))

omit [BEq α] [LawfulBEq α] in
theorem mem_map_cons_iff {x : α} {sites : List (List α × List α)} :
    (p, s) ∈ sites.map (fun site => (x :: site.1, site.2)) ↔
      ∃ q, p = x :: q ∧ (q, s) ∈ sites := by
  simp only [List.mem_map, Prod.mk.injEq, Prod.exists]
  constructor
  · rintro ⟨q, s', hmem, rfl, rfl⟩
    exact ⟨q, rfl, hmem⟩
  · rintro ⟨q, rfl, hmem⟩
    exact ⟨q, s, hmem, rfl, rfl⟩

/-- Every way to write a list around the term is found, and nothing else. -/
theorem mem_occurrences_iff : (p, s) ∈ occurrences term xs ↔ xs = p ++ term ++ s := by
  induction xs generalizing p with
  | nil =>
    by_cases hterm : term = []
    · subst hterm
      simp only [occurrences, List.isPrefixOf, if_true, List.mem_singleton, Prod.mk.injEq,
        List.append_nil]
      rw [eq_comm (a := []), List.append_eq_nil_iff]
    · rw [occurrences_nil hterm]
      simp [hterm]
  | cons x xs ih =>
    -- an occurrence begins here, or it is one of those in the rest
    have hlater : (p, s) ∈ (occurrences term xs).map (fun site => (x :: site.1, site.2)) ↔
        p ≠ [] ∧ x :: xs = p ++ term ++ s := by
      rw [mem_map_cons_iff]
      constructor
      · rintro ⟨q, rfl, hmem⟩
        rw [ih.mp hmem]
        exact ⟨List.cons_ne_nil x q, rfl⟩
      · rintro ⟨hne, heq⟩
        cases p with
        | nil => exact absurd rfl hne
        | cons y q =>
          obtain ⟨rfl, hxs⟩ := List.cons.inj heq
          exact ⟨q, rfl, ih.mpr hxs⟩
    by_cases hbegins : term <+: x :: xs
    · obtain ⟨rest, hrest⟩ := hbegins
      rw [occurrences_cons_of_pos ⟨rest, hrest⟩, List.mem_cons, hlater, ← hrest, List.drop_left,
        Prod.mk.injEq]
      constructor
      · rintro (⟨rfl, rfl⟩ | ⟨-, heq⟩)
        · rfl
        · exact heq
      · intro heq
        by_cases hp : p = []
        · subst hp
          exact .inl ⟨rfl, (List.append_cancel_left heq).symm⟩
        · exact .inr ⟨hp, heq⟩
    · rw [occurrences_cons_of_neg hbegins, hlater]
      refine and_iff_right_of_imp fun heq hp => hbegins ⟨s, ?_⟩
      rw [heq, hp, List.nil_append]

/-- What a list does not hold does not stand before an occurrence in it. -/
theorem not_mem_of_mem_occurrences {x : α} {site : List α × List α} (h : x ∉ xs)
    (hsite : site ∈ occurrences term xs) : x ∉ site.1 := by
  intro hmem
  refine h ?_
  rw [mem_occurrences_iff.mp hsite, List.append_assoc]
  exact List.mem_append_left _ hmem

omit [LawfulBEq α] in
/-- The occurrences stand in the order in which they begin. -/
theorem pairwise_occurrences (term xs : List α) :
    (occurrences term xs).Pairwise fun a b => a.1.length < b.1.length := by
  induction xs with
  | nil =>
    rw [occurrences]
    split
    · exact List.pairwise_singleton _ _
    · exact List.Pairwise.nil
  | cons x xs ih =>
    have hlater : ((occurrences term xs).map fun site => (x :: site.1, site.2)).Pairwise
        fun a b => a.1.length < b.1.length :=
      List.pairwise_map.mpr (ih.imp fun hlt => Nat.succ_lt_succ hlt)
    rw [occurrences]
    split
    · refine List.pairwise_cons.mpr ⟨fun site hsite => ?_, hlater⟩
      obtain ⟨q, hq, -⟩ := mem_map_cons_iff.mp hsite
      rw [hq]
      exact Nat.zero_lt_succ _
    · exact hlater

omit [BEq α] [LawfulBEq α] in
/-- A term that does not hold an element begins before it exactly when it ends before it. -/
theorem prefix_append_cons_iff {sep : α} {a rest : List α} (h : sep ∉ term) :
    term <+: a ++ sep :: rest ↔ term <+: a := by
  constructor
  · intro hbegins
    refine List.prefix_of_prefix_length_le hbegins (List.prefix_append a _) ?_
    refine Nat.le_of_not_lt fun hlt => h ?_
    obtain ⟨x, q, hterm, hrest⟩ := exists_of_append_eq hbegins.choose_spec hlt
    rw [hterm, List.head_eq_of_cons_eq hrest]
    exact List.mem_append_right _ List.mem_cons_self
  · exact fun hbegins => hbegins.trans (List.prefix_append a _)

/-- Around an element that the term does not hold, the term occurs on either side only. -/
theorem occurrences_append_cons {sep : α} (hterm : term ≠ []) (h : sep ∉ term) (a rest : List α) :
    occurrences term (a ++ sep :: rest) =
      (occurrences term a).map (fun site => (site.1, site.2 ++ sep :: rest)) ++
        (occurrences term rest).map fun site => (a ++ sep :: site.1, site.2) := by
  induction a with
  | nil =>
    have hnot : ¬ term <+: sep :: rest := fun hbegins =>
      hterm (List.prefix_nil.mp ((prefix_append_cons_iff (a := []) h).mp hbegins))
    rw [List.nil_append, occurrences_cons_of_neg hnot, occurrences_nil hterm]
    rfl
  | cons x a ih =>
    have hlater : ((occurrences term (a ++ sep :: rest)).map fun site => (x :: site.1, site.2)) =
        ((occurrences term a).map fun site => (x :: site.1, site.2)).map
            (fun site => (site.1, site.2 ++ sep :: rest)) ++
          (occurrences term rest).map fun site => (x :: a ++ sep :: site.1, site.2) := by
      simp only [ih, List.map_append, List.map_map]
      rfl
    -- `sep` is in the way of the term, so whether it begins here is decided before `sep`
    by_cases hbegins : term <+: x :: a
    · have hdrop : (x :: (a ++ sep :: rest)).drop term.length =
          (x :: a).drop term.length ++ sep :: rest := by
        rw [← List.cons_append, List.drop_append_of_le_length hbegins.length_le]
      have hwhole : term <+: x :: (a ++ sep :: rest) :=
        (prefix_append_cons_iff (a := x :: a) h).mpr hbegins
      rw [List.cons_append, occurrences_cons_of_pos hwhole, occurrences_cons_of_pos hbegins,
        hlater, hdrop]
      rfl
    · have hnot : ¬ term <+: x :: (a ++ sep :: rest) := fun hp =>
        hbegins ((prefix_append_cons_iff (a := x :: a) h).mp hp)
      rw [List.cons_append, occurrences_cons_of_neg hnot,
        occurrences_cons_of_neg hbegins, hlater]

/-- The first occurrence comes first, and the others are those after its first element. -/
theorem occurrences_of_firstCut {x : α} {rest : List α}
    (h : FirstCut term (p ++ x :: rest) p s) :
    occurrences term (p ++ x :: rest) =
      (p, s) :: (occurrences term rest).map fun site => (p ++ x :: site.1, site.2) := by
  have heq := h.eq
  have hfirst := h.first
  clear h
  induction p with
  | nil =>
    rw [List.nil_append, List.nil_append] at heq
    rw [List.nil_append, occurrences_cons_of_pos ⟨s, heq.symm⟩, heq, List.drop_left]
    rfl
  | cons y p ih =>
    -- the term does not begin at `y`, since its first occurrence is later
    have hnot : ¬ term <+: y :: (p ++ x :: rest) := by
      rintro ⟨after, hafter⟩
      exact absurd (hfirst [] after hafter.symm) (Nat.not_succ_le_zero _)
    have htail := ih (List.cons.inj heq).2 fun q t hq => by
      refine Nat.le_of_succ_le_succ (hfirst (y :: q) t ?_)
      rw [List.cons_append, hq]
      rfl
    rw [List.cons_append, occurrences_cons_of_neg hnot, htail, List.map_cons, List.map_map]
    rfl

end Occurrences

/-! ## Lines and columns -/

/-- What stands after the last line feed. -/
def lastLine (p : List Char) : List Char :=
  p.rtakeWhile (· != '\n')

theorem lastLine_of_not_mem {p : List Char} (h : '\n' ∉ p) : lastLine p = p := by
  refine List.rtakeWhile_eq_self_iff.mpr fun c hc => ?_
  exact bne_iff_ne.mpr fun heq => h (heq ▸ hc)

/-- Only what follows the last line feed is looked at. -/
theorem lastLine_append_cons (a p : List Char) : lastLine (a ++ '\n' :: p) = lastLine p := by
  simp only [lastLine, List.rtakeWhile, List.reverse_append, List.reverse_cons, List.append_assoc,
    List.singleton_append]
  rw [List.takeWhile_append]
  split
  · rename_i hlength
    have hall := (List.takeWhile_prefix (fun c : Char => c != '\n')).eq_of_length hlength
    rw [hall, List.takeWhile_cons_of_neg (by decide), List.append_nil]
  · rfl

theorem lastLine_append {q : List Char} (p : List Char) (h : '\n' ∉ q) :
    lastLine (p ++ q) = lastLine p ++ q := by
  by_cases hp : '\n' ∈ p.reverse
  · -- cut at the last line feed, which is the first one from behind
    obtain ⟨line, front, hreverse, hline⟩ := List.eq_append_cons_of_mem hp
    obtain rfl : p = front.reverse ++ '\n' :: line.reverse := by
      rw [← List.reverse_reverse p, hreverse]
      simp
    have hmem : '\n' ∉ line.reverse ++ q := by
      rw [List.mem_append, List.mem_reverse]
      exact fun hor => hor.elim hline h
    have hline' : '\n' ∉ line.reverse := fun hin => hline (List.mem_reverse.mp hin)
    rw [List.append_assoc, List.cons_append, lastLine_append_cons, lastLine_append_cons,
      lastLine_of_not_mem hmem, lastLine_of_not_mem hline']
  · rw [List.mem_reverse] at hp
    have hmem : '\n' ∉ p ++ q := by
      rw [List.mem_append]
      exact fun hor => hor.elim hp h
    rw [lastLine_of_not_mem hmem, lastLine_of_not_mem hp]

/-- There is one more line than there are line feeds. -/
theorem length_pieces {α : Type} [BEq α] [LawfulBEq α] (sep : α) (xs : List α) :
    (pieces sep xs).length = xs.count sep + 1 := by
  rw [pieces_eq_splitOn]
  induction xs with
  | nil => rfl
  | cons x xs ih =>
    rw [List.splitOn_cons_eq_if_modifyHead, List.count_cons]
    split
    · rw [List.length_cons, ih]
    · rw [List.length_modifyHead, ih, Nat.add_zero]

/-! ## Occurrences by line -/

variable {term text p s : List Char}

/-- An occurrence begins in a line; one of a term with a line feed counts for none. -/
def beginsOn (term : List Char) (number : Nat) (site : List Char × List Char) : Bool :=
  decide ('\n' ∉ term ∧ site.1.count '\n' = number)

/-- The occurrences that begin in a line. -/
def occurrencesOn (term text : List Char) (number : Nat) : List (List Char × List Char) :=
  (occurrences term text).filter (beginsOn term number)

theorem mem_occurrencesOn_iff {number : Nat} :
    (p, s) ∈ occurrencesOn term text number ↔
      text = p ++ term ++ s ∧ '\n' ∉ term ∧ p.count '\n' = number := by
  rw [occurrencesOn, List.mem_filter, mem_occurrences_iff, beginsOn, decide_eq_true_iff]

/-- The line of an occurrence is one of the lines of the text. -/
theorem count_lt_of_mem_occurrences (h : text = p ++ term ++ s) :
    p.count '\n' < (pieces '\n' text).length := by
  rw [length_pieces, h, List.count_append, List.count_append]
  omega

/-- Without a line feed there is only the first line. -/
theorem occurrencesOn_of_not_mem (hterm : '\n' ∉ term) (h : '\n' ∉ text) :
    occurrencesOn term text 0 = occurrences term text := by
  refine List.filter_eq_self.mpr fun site hsite => decide_eq_true ⟨hterm, ?_⟩
  exact List.count_eq_zero.mpr (not_mem_of_mem_occurrences h hsite)

theorem occurrencesOn_append_zero (hne : term ≠ []) (hterm : '\n' ∉ term) {line : List Char}
    (hline : '\n' ∉ line) (rest : List Char) :
    occurrencesOn term (line ++ '\n' :: rest) 0 =
      (occurrences term line).map fun site => (site.1, site.2 ++ '\n' :: rest) := by
  have hlater : (occurrences term rest).filter
      (beginsOn term 0 ∘ fun site => (line ++ '\n' :: site.1, site.2)) = [] :=
    List.filter_eq_nil_iff.mpr fun site _ => by simp [beginsOn]
  rw [occurrencesOn, occurrences_append_cons hne hterm, List.filter_append, List.filter_map,
    List.filter_map, hlater, List.map_nil, List.append_nil]
  exact congrArg _ (occurrencesOn_of_not_mem hterm hline)

theorem occurrencesOn_append_succ (hne : term ≠ []) (hterm : '\n' ∉ term) {line : List Char}
    (hline : '\n' ∉ line) (rest : List Char) (number : Nat) :
    occurrencesOn term (line ++ '\n' :: rest) (number + 1) =
      (occurrencesOn term rest number).map fun site => (line ++ '\n' :: site.1, site.2) := by
  have hfirst : (occurrences term line).filter
      (beginsOn term (number + 1) ∘ fun site => (site.1, site.2 ++ '\n' :: rest)) = [] := by
    refine List.filter_eq_nil_iff.mpr fun site hsite => ?_
    have hzero : site.1.count '\n' = 0 :=
      List.count_eq_zero.mpr (not_mem_of_mem_occurrences hline hsite)
    simp [beginsOn, hzero]
  have hlater : (occurrences term rest).filter
      (beginsOn term (number + 1) ∘ fun site => (line ++ '\n' :: site.1, site.2)) =
        occurrencesOn term rest number := by
    refine List.filter_congr fun site _ => ?_
    have hzero : line.count '\n' = 0 := List.count_eq_zero.mpr hline
    simp [beginsOn, List.count_append, hzero]
  rw [occurrencesOn, occurrences_append_cons hne hterm, List.filter_append, List.filter_map,
    List.filter_map, hfirst, hlater, List.map_nil, List.nil_append]

/-- The occurrences that begin in a line are those in the line itself, with the lines before it. -/
theorem map_lastLine_occurrencesOn (hne : term ≠ []) (hterm : '\n' ∉ term) {number : Nat}
    {line : List Char} (h : (pieces '\n' text)[number]? = some line) :
    (occurrencesOn term text number).map (fun site => lastLine site.1) =
      (occurrences term line).map (·.1) := by
  induction number generalizing text with
  | zero =>
    by_cases hfeed : '\n' ∈ text
    · obtain ⟨first, rest, rfl, hfirst⟩ := List.eq_append_cons_of_mem hfeed
      rw [pieces_append_cons, pieces_of_not_mem hfirst] at h
      cases h
      rw [occurrencesOn_append_zero hne hterm hfirst, List.map_map]
      refine List.map_congr_left fun site hsite => ?_
      have hsite' : '\n' ∉ site.1 := not_mem_of_mem_occurrences hfirst hsite
      exact lastLine_of_not_mem hsite'
    · rw [pieces_of_not_mem hfeed] at h
      cases h
      rw [occurrencesOn_of_not_mem hterm hfeed]
      exact List.map_congr_left fun site hsite =>
        lastLine_of_not_mem (not_mem_of_mem_occurrences hfeed hsite)
  | succ number ih =>
    by_cases hfeed : '\n' ∈ text
    · obtain ⟨first, rest, rfl, hfirst⟩ := List.eq_append_cons_of_mem hfeed
      rw [pieces_append_cons, pieces_of_not_mem hfirst] at h
      rw [occurrencesOn_append_succ hne hterm hfirst, List.map_map, ← ih h]
      exact List.map_congr_left fun site _ => lastLine_append_cons first site.1
    · rw [pieces_of_not_mem hfeed] at h
      cases h

/-- An occurrence lies in its line, after what stands there before it. -/
theorem exists_line_of_eq (hne : term ≠ []) (hterm : '\n' ∉ term) (h : text = p ++ term ++ s) :
    ∃ after, (pieces '\n' text)[p.count '\n']? = some (lastLine p ++ term ++ after) := by
  have hline := List.getElem?_eq_getElem (count_lt_of_mem_occurrences h)
  have hlast : lastLine p ∈ (occurrencesOn term text (p.count '\n')).map fun site =>
      lastLine site.1 :=
    List.mem_map.mpr ⟨(p, s), mem_occurrencesOn_iff.mpr ⟨h, hterm, rfl⟩, rfl⟩
  rw [map_lastLine_occurrencesOn hne hterm hline] at hlast
  obtain ⟨⟨q, after⟩, hsite, hq⟩ := List.mem_map.mp hlast
  refine ⟨after, hline.trans (congrArg some ?_)⟩
  rw [← hq]
  exact mem_occurrences_iff.mp hsite

/-! ## Order -/

/-- The occurrences in a line stand in the order in which they begin. -/
theorem pairwise_occurrencesOn (term text : List Char) (number : Nat) :
    (occurrencesOn term text number).Pairwise fun a b => a.1.length < b.1.length :=
  (pairwise_occurrences term text).filter _

/-- Of two beginnings of a text, the one with fewer line feeds is the shorter one. -/
theorem length_lt_of_count_lt {p' s' : List Char} (h : text = p ++ s) (h' : text = p' ++ s')
    (hlt : p.count '\n' < p'.count '\n') : p.length < p'.length := by
  refine Nat.lt_of_not_le fun hle => ?_
  have hbegins : p' <+: p :=
    List.prefix_of_prefix_length_le ⟨s', h'.symm⟩ ⟨s, h.symm⟩ hle
  exact absurd (hbegins.sublist.count_le '\n') (Nat.not_le.mpr hlt)

/-- Of two beginnings of a text that end in the same line, the shorter one ends in an earlier
column. -/
theorem units_lastLine_lt {p' s' : List Char} (h : text = p ++ s) (h' : text = p' ++ s')
    (hcount : p.count '\n' = p'.count '\n') (hlt : p.length < p'.length) :
    units (lastLine p) < units (lastLine p') := by
  obtain ⟨x, q, rfl, -⟩ := exists_of_append_eq (h'.symm.trans h) hlt
  have hfeed : '\n' ∉ x :: q := by
    rw [List.count_append] at hcount
    exact List.count_eq_zero.mp (by omega)
  have hpos := units_pos (List.cons_ne_nil x q)
  rw [lastLine_append p hfeed, units_append]
  omega

end TermLint.Text

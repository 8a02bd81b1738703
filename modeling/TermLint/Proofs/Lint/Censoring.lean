/-
  TermLint.Proofs.Lint.Censoring

  What censoring does to a term, character by character.  The last word of a term is
  what stands after its last space.  Censoring keeps the number of characters and
  changes only those that are starred: the second character of the last word, or all
  characters of the term when that word has no second one.

  The same comes out when the last space and the second character are found by byte
  offsets and the term is sliced there; no slice cuts a character in two.
-/

import TermLint.Lint.Rule
import TermLint.Proofs.Text.Offset

namespace TermLint.Lint

open Text (utf8 cut? cutAt?)
open Json (byteCount)

/-! ## The last word -/

/-- `word` is what stands after the last space of a term, or the whole term if it has no space, and
`front` is what stands before it. -/
structure LastWord (term front word : List Char) : Prop where
  term_eq : term = front ++ word
  no_space : ' ' ∉ word
  front_ends : front = [] ∨ front.getLast? = some ' '

variable {term front word : List Char}

theorem exists_lastWord (term : List Char) : ∃ front word, LastWord term front word := by
  obtain ⟨run, rest, hterm, hrun, hrest⟩ := Text.exists_run (· ≠ ' ') term.reverse
  refine ⟨rest.reverse, run.reverse, ?_, ?_, ?_⟩
  · rw [← List.reverse_append, ← hterm, List.reverse_reverse]
  · intro hmem
    exact hrun ' ' (List.mem_reverse.mp hmem) rfl
  · cases rest with
    | nil => exact .inl rfl
    | cons c rest =>
      have hspace : c = ' ' := not_not.mp (hrest c rfl)
      rw [hspace, List.reverse_cons, List.getLast?_concat]
      exact .inr rfl

/-- A term is divided before its last word. -/
theorem LastWord.lastWord_eq (h : LastWord term front word) : lastWord term = (front, word) := by
  have hword : ∀ c ∈ word.reverse, (c != ' ') = true := by
    intro c hc
    rw [bne_iff_ne]
    rintro rfl
    exact h.no_space (List.mem_reverse.mp hc)
  have hfront : front.reverse.takeWhile (· != ' ') = [] := by
    rcases h.front_ends with rfl | hspace
    · rfl
    · obtain ⟨init, rfl⟩ := List.getLast?_eq_some_iff.mp hspace
      rw [List.reverse_concat, List.takeWhile_cons_of_neg (by decide)]
  have htake : term.reverse.takeWhile (· != ' ') = word.reverse := by
    rw [h.term_eq, List.reverse_append, List.takeWhile_append_of_pos hword, hfront,
      List.append_nil]
  have hlength : term.length - word.length = front.length := by
    rw [h.term_eq, List.length_append, Nat.add_sub_cancel]
  rw [lastWord, htake, List.reverse_reverse, hlength, h.term_eq, List.take_left]

/-! ## The starred characters -/

/-- The positions at which a term is starred out: that of the second character of its last word, or
all when the last word has no second character. -/
def Starred (front word : List Char) (position : Nat) : Prop :=
  if 2 ≤ word.length then position = front.length + 1
  else position < front.length + word.length

instance (front word : List Char) (position : Nat) : Decidable (Starred front word position) :=
  inferInstanceAs (Decidable (if 2 ≤ word.length then position = front.length + 1
    else position < front.length + word.length))

theorem eq_of_length_lt_two (h : word.length < 2) : word = [] ∨ ∃ c, word = [c] := by
  match word with
  | [] => exact .inl rfl
  | [c] => exact .inr ⟨c, rfl⟩
  | first :: second :: rest =>
    simp only [List.length_cons] at h
    omega

theorem exists_of_two_le_length (h : 2 ≤ word.length) :
    ∃ first second rest, word = first :: second :: rest := by
  match word with
  | [] => simp at h
  | [c] => simp at h
  | first :: second :: rest => exact ⟨first, second, rest, rfl⟩

theorem LastWord.censored_of_second {first second : Char} {rest : List Char}
    (h : LastWord term front (first :: second :: rest)) :
    censored term = front ++ first :: '*' :: rest := by
  rw [censored, h.lastWord_eq]

theorem LastWord.censored_of_short (h : LastWord term front word) (hshort : word.length < 2) :
    censored term = List.replicate term.length '*' := by
  rw [censored, h.lastWord_eq]
  rcases eq_of_length_lt_two hshort with rfl | ⟨c, rfl⟩
  · rfl
  · rfl

theorem length_censored (term : List Char) : (censored term).length = term.length := by
  obtain ⟨front, word, h⟩ := exists_lastWord term
  by_cases htwo : 2 ≤ word.length
  · obtain ⟨first, second, rest, rfl⟩ := exists_of_two_le_length htwo
    rw [h.censored_of_second, h.term_eq]
    simp only [List.length_append, List.length_cons]
  · rw [h.censored_of_short (Nat.lt_of_not_le htwo), List.length_replicate]

/-- A starred position holds a star, and every other one what it held before. -/
theorem LastWord.getElem?_censored (h : LastWord term front word) (i : Nat) :
    (censored term)[i]? = if Starred front word i then some '*' else term[i]? := by
  by_cases htwo : 2 ≤ word.length
  · obtain ⟨first, second, rest, rfl⟩ := exists_of_two_le_length htwo
    have hset : censored term = term.set (front.length + 1) '*' := by
      rw [h.censored_of_second, h.term_eq, List.set_append_right _ _ (Nat.le_succ _)]
      simp
    have hlt : front.length + 1 < term.length := by
      rw [h.term_eq]
      simp only [List.length_append, List.length_cons]
      omega
    rw [hset, List.getElem?_set, if_pos hlt]
    simp only [Starred, htwo, if_true, eq_comm]
  · have hlength : front.length + word.length = term.length := by
      rw [h.term_eq, List.length_append]
    rw [h.censored_of_short (Nat.lt_of_not_le htwo), List.getElem?_replicate]
    simp only [Starred, htwo, if_false, hlength]
    by_cases hi : i < term.length
    · rw [if_pos hi, if_pos hi]
    · rw [if_neg hi, if_neg hi, List.getElem?_eq_none (Nat.le_of_not_lt hi)]

/-- Censoring changes nothing when there is a star already wherever one would be put. -/
theorem LastWord.censored_eq_self_iff (h : LastWord term front word) :
    censored term = term ↔ ∀ i, Starred front word i → term[i]? = some '*' := by
  constructor
  · intro hself i hi
    have hstar := h.getElem?_censored i
    rwa [if_pos hi, hself] at hstar
  · intro hstars
    refine List.ext_getElem? fun i => ?_
    rw [h.getElem?_censored]
    split
    · rename_i hi
      exact (hstars i hi).symm
    · rfl

/-! ## Censoring by byte offsets -/

/-- The byte offset of the last space of a text. -/
def lastSpace? (text : List Char) : Option Nat :=
  (cut? [0x20] (utf8 text).reverse).map fun halves => halves.2.length

/-- The byte offset at which the last word of a term begins. -/
def wordStart (term : List Char) : Nat :=
  (lastSpace? term).elim 0 (· + 1)

/-- A censored term, by the byte offset of the second character of its last word.  There is nothing
to give when the term is cut inside a character. -/
def censoredByOffset (term : List Char) : Option (List Char) :=
  match cutAt? Char.utf8Size (wordStart term) term with
  | none => none
  | some (_, first :: second :: _) =>
    let place := wordStart term + first.utf8Size
    match cutAt? Char.utf8Size place term,
      cutAt? Char.utf8Size (place + second.utf8Size) term with
    | some (before, _), some (_, after) => some (before ++ '*' :: after)
    | _, _ => none
  | some _ => some (List.replicate term.length '*')

/-- The byte of a space is no part of another character. -/
theorem space_mem_of_mem_utf8 {text : List Char} (h : 0x20 ∈ utf8 text) : ' ' ∈ text := by
  obtain ⟨u, v, huv⟩ := List.append_of_mem h
  have hbytes : utf8 text = u ++ utf8 [' '] ++ v := by
    rw [huv, List.append_assoc]
    rfl
  obtain ⟨p, s, htext, -, -⟩ := Text.exists_of_utf8_eq (List.cons_ne_nil ' ' []) hbytes
  rw [htext]
  simp

/-- The last word begins where the bytes before it end. -/
theorem LastWord.wordStart_eq (h : LastWord term front word) :
    wordStart term = byteCount front := by
  have hword : (0x20 : UInt8) ∉ (utf8 word).reverse := by
    intro hmem
    exact h.no_space (space_mem_of_mem_utf8 (List.mem_reverse.mp hmem))
  rcases h.front_ends with rfl | hspace
  · rw [wordStart, lastSpace?, h.term_eq, List.nil_append,
      Text.cut?_singleton_eq_none_iff.mpr hword]
    rfl
  · obtain ⟨init, rfl⟩ := List.getLast?_eq_some_iff.mp hspace
    -- from the end of the term, the last space comes right after the last word
    have hbytes : (utf8 term).reverse = (utf8 word).reverse ++ [0x20] ++ (utf8 init).reverse := by
      rw [h.term_eq, Text.utf8_append, Text.utf8_append]
      simp only [List.reverse_append, List.append_assoc]
      rfl
    have hcut := Text.cut?_append 0x20 [] (utf8 init).reverse hword
    rw [wordStart, lastSpace?, hbytes, hcut]
    show (utf8 init).reverse.length + 1 = byteCount (init ++ [' '])
    rw [List.length_reverse, Text.length_utf8, Text.byteCount_append]
    rfl

/-- Slicing a term by byte offsets never cuts a character in two, and gives the censored term. -/
theorem censoredByOffset_eq (term : List Char) : censoredByOffset term = some (censored term) := by
  obtain ⟨front, word, h⟩ := exists_lastWord term
  have hstart : cutAt? Char.utf8Size (wordStart term) term = some (front, word) := by
    rw [h.wordStart_eq, h.term_eq, Text.cutAt?_byteCount]
  by_cases htwo : 2 ≤ word.length
  · obtain ⟨first, second, rest, rfl⟩ := exists_of_two_le_length htwo
    have hbefore : cutAt? Char.utf8Size (wordStart term + first.utf8Size) term =
        some (front ++ [first], second :: rest) := by
      have hcut := Text.cutAt?_byteCount (front ++ [first]) (second :: rest)
      rw [Text.byteCount_append, Text.byteCount_cons, Text.byteCount_nil] at hcut
      rw [h.wordStart_eq, h.term_eq]
      simpa using hcut
    have hafter : cutAt? Char.utf8Size (wordStart term + first.utf8Size + second.utf8Size) term =
        some (front ++ [first, second], rest) := by
      have hcut := Text.cutAt?_byteCount (front ++ [first, second]) rest
      rw [Text.byteCount_append, Text.byteCount_cons, Text.byteCount_cons,
        Text.byteCount_nil] at hcut
      rw [h.wordStart_eq, h.term_eq]
      simpa [Nat.add_assoc] using hcut
    simp only [censoredByOffset, hstart, hbefore, hafter, h.censored_of_second,
      List.append_assoc, List.singleton_append]
  · have hshort : word.length < 2 := Nat.lt_of_not_le htwo
    rw [censoredByOffset, hstart, h.censored_of_short hshort]
    rcases eq_of_length_lt_two hshort with rfl | ⟨c, rfl⟩
    · rfl
    · rfl

/-! ## Redactions -/

/-- Censoring keeps the length of a term, stars out the positions that are to be starred and leaves
the rest alone, and slicing the term by byte offsets gives the same.  So the redaction of a rule
made for a term is the term itself if and only if the term has its stars already. -/
theorem censored_starred (term : String) :
    censoredByOffset term.toList = some (censored term.toList) ∧
    (∃ front word, LastWord term.toList front word) ∧
    ∀ front word, LastWord term.toList front word →
      (censored term.toList).length = term.toList.length ∧
      (∀ i, (censored term.toList)[i]? =
        if Starred front word i then some '*' else term.toList[i]?) ∧
      ∀ replacement, term ≠ "" → replacement ≠ "" →
        ∃ rule, ActionRule.make term replacement = .ok rule ∧ rule.term = term ∧
          rule.redacted = String.ofList (censored term.toList) ∧
          (rule.redacted = rule.term ↔
            ∀ i, Starred front word i → term.toList[i]? = some '*') := by
  refine ⟨censoredByOffset_eq _, exists_lastWord _, fun front word h => ?_⟩
  refine ⟨length_censored _, h.getElem?_censored, fun replacement hterm hreplacement => ?_⟩
  rw [ActionRule.make, dif_neg hterm, dif_neg hreplacement]
  refine ⟨_, rfl, rfl, rfl, ?_⟩
  rw [← h.censored_eq_self_iff, ← String.toList_inj, String.toList_ofList]

/-- The second character of the last word takes two bytes, and is not yet a star. -/
theorem censored_starred_multibyte :
    LastWord "VS Cöde".toList "VS ".toList "Cöde".toList ∧
    censoredByOffset "VS Cöde".toList = some "VS C*de".toList ∧
    (censored "VS Cöde".toList)[4]? = some '*' ∧
    ∃ rule, ActionRule.make "VS Cöde" "Neovim" = .ok rule ∧ rule.redacted ≠ rule.term := by
  have hword : LastWord "VS Cöde".toList "VS ".toList "Cöde".toList :=
    ⟨by decide, by decide, .inr (by decide)⟩
  obtain ⟨hoffset, -, hstarred⟩ := censored_starred "VS Cöde"
  obtain ⟨-, hposition, hredaction⟩ := hstarred _ _ hword
  obtain ⟨rule, hrule, -, -, hsame⟩ := hredaction "Neovim" (by decide) (by decide)
  refine ⟨hword, hoffset.trans (by decide), (hposition 4).trans (by decide), rule, hrule, ?_⟩
  rw [ne_eq, hsame]
  intro hstars
  exact absurd (hstars 4 (by decide)) (by decide)

end TermLint.Lint

/-
  TermLint.Proofs.Frame.Length

  The length that a header gives, as a function of the values of its length lines.
  Blanks around a line, its key or its value do not matter, nor does it matter which
  line ends are used, so a header and the same header with its lines trimmed and joined
  anew give the same length or the same fault.
-/

import TermLint.Frame.Header
import TermLint.Frame.Source
import TermLint.Proofs.Text.Cut

namespace TermLint.Frame

open Text (pieces lines dropReturn)

/-! ## One line -/

/-- The value of a line, by what stands before and after its first colon. -/
theorem lengthText?_colon {key : List Char} (h : ':' ∉ key) (rest : List Char) :
    lengthText? (key ++ ':' :: rest) =
      if Text.sameLetters (Text.trim key) lengthKey.toList then some (Text.trim rest)
      else none := by
  have hcut : Text.cut? [':'] (key ++ ':' :: rest) = some (key, rest) := by
    have hfirst := Text.cut?_append ':' [] rest h
    rwa [List.append_assoc, List.singleton_append] at hfirst
  rw [lengthText?, hcut]

theorem colon_not_mem_of_blank {blanks : List Char} (h : ∀ c ∈ blanks, Text.isBlank c = true) :
    ':' ∉ blanks := by
  intro hmem
  have hblank := h ':' hmem
  revert hblank
  decide

/-- Blanks around the key and around the value of a line make no difference. -/
theorem lengthText?_pad_colon {a key b c rest d : List Char} (hkey : ':' ∉ key)
    (ha : ∀ x ∈ a, Text.isBlank x = true) (hb : ∀ x ∈ b, Text.isBlank x = true)
    (hc : ∀ x ∈ c, Text.isBlank x = true) (hd : ∀ x ∈ d, Text.isBlank x = true) :
    lengthText? (a ++ key ++ b ++ ':' :: (c ++ rest ++ d)) =
      lengthText? (key ++ ':' :: rest) := by
  -- no blank is a colon, so the first colon stays the first one
  have hcolon : ':' ∉ a ++ key ++ b := by
    simp only [List.mem_append, not_or]
    exact ⟨⟨colon_not_mem_of_blank ha, hkey⟩, colon_not_mem_of_blank hb⟩
  have htrimKey : Text.trim (a ++ key ++ b) = Text.trim key := Text.strip_append_append ha hb key
  have htrimRest : Text.trim (c ++ rest ++ d) = Text.trim rest :=
    Text.strip_append_append hc hd rest
  rw [lengthText?_colon hcolon, lengthText?_colon hkey, htrimKey, htrimRest]

/-- Blanks around a line make no difference to the value that it gives. -/
theorem lengthText?_pad {a b : List Char} (ha : ∀ c ∈ a, Text.isBlank c = true)
    (hb : ∀ c ∈ b, Text.isBlank c = true) (line : List Char) :
    lengthText? (a ++ line ++ b) = lengthText? line := by
  by_cases hline : ':' ∈ line
  · obtain ⟨key, rest, rfl, hkey⟩ := List.eq_append_cons_of_mem hline
    have hpadded : lengthText? (a ++ key ++ [] ++ ':' :: ([] ++ rest ++ b)) =
        lengthText? (key ++ ':' :: rest) :=
      lengthText?_pad_colon hkey ha (by simp) (by simp) hb
    rw [← hpadded]
    simp
  · have hnone : ':' ∉ a ++ line ++ b := by
      simp only [List.mem_append, not_or]
      exact ⟨⟨colon_not_mem_of_blank ha, hline⟩, colon_not_mem_of_blank hb⟩
    rw [lengthText?, lengthText?, Text.cut?_singleton_eq_none_iff.mpr hnone,
      Text.cut?_singleton_eq_none_iff.mpr hline]

theorem lengthText?_concat_return (line : List Char) :
    lengthText? (line ++ ['\r']) = lengthText? line := by
  have hblank : ∀ c ∈ ['\r'], Text.isBlank c = true := by
    intro c hc
    rw [List.mem_singleton.mp hc]
    decide
  have hpad := lengthText?_pad (a := []) (by simp) hblank line
  simpa using hpad

theorem lengthText?_dropReturn (line : List Char) :
    lengthText? (dropReturn line) = lengthText? line := by
  unfold dropReturn
  split
  · rename_i hlast
    obtain ⟨front, rfl⟩ := List.getLast?_eq_some_iff.mp (eq_of_beq hlast)
    rw [List.dropLast_concat, lengthText?_concat_return]
  · rfl

/-- A line of blanks gives no value. -/
theorem lengthText?_of_blank {line : List Char} (h : ∀ c ∈ line, Text.isBlank c = true) :
    lengthText? line = none := by
  have hpad := lengthText?_pad (b := []) h (by simp) []
  rw [List.append_nil, List.append_nil] at hpad
  rw [hpad]
  rfl

/-- A line that gives a value holds a colon. -/
theorem colon_mem_of_lengthText? {line text : List Char} (h : lengthText? line = some text) :
    ':' ∈ line := by
  refine Decidable.byContradiction fun hcolon => ?_
  rw [lengthText?, Text.cut?_singleton_eq_none_iff.mpr hcolon] at h
  cases h

/-! ## All lines -/

/-- The length that the values of length lines give, after the one that was found before them. -/
def lengthOf (found : Option Nat) : List (List Char) → Except FramingFault Nat
  | [] =>
    match found with
    | none => .error .noLength
    | some n => .ok n
  | text :: rest =>
    match lengthValue? text with
    | none => .error (.badLength (String.ofList text))
    | some n => lengthOf (some n) rest

/-- Lines that give no value do not count. -/
theorem lengthFrom_eq (found : Option Nat) (all : List (List Char)) :
    lengthFrom found all = lengthOf found (all.filterMap lengthText?) := by
  induction all generalizing found with
  | nil => rfl
  | cons line all ih =>
    rw [lengthFrom]
    cases htext : lengthText? line with
    | none => rw [List.filterMap_cons_none htext, ← ih]
    | some text =>
      rw [List.filterMap_cons_some htext, lengthOf]
      cases hvalue : lengthValue? text with
      | none => simp only [hvalue]
      | some n => simp only [hvalue, ih]

/-- The values of a text do not depend on the carriage returns at its line ends. -/
theorem filterMap_lines (text : List Char) :
    (lines text).filterMap lengthText? = (pieces '\n' text).filterMap lengthText? := by
  have hdrop : ∀ all : List (List Char),
      (all.map dropReturn).filterMap lengthText? = all.filterMap lengthText? := by
    intro all
    rw [List.filterMap_map]
    exact congrArg (all.filterMap ·) (funext lengthText?_dropReturn)
  obtain ⟨ended, last, hpieces⟩ :=
    (List.eq_nil_or_concat _).resolve_left (Text.pieces_ne_nil '\n' text)
  rw [List.concat_eq_append] at hpieces
  simp only [lines, hpieces, List.dropLast_concat, List.getLast?_concat]
  cases last with
  | nil =>
    -- an empty line after the last line feed is not counted, and gives no value
    have hnil : lengthText? [] = none := rfl
    rw [hdrop, List.filterMap_append, List.filterMap_cons_none hnil, List.filterMap_nil,
      List.append_nil]
  | cons c last => rw [List.filterMap_append, hdrop, List.filterMap_append]

theorem bodyLength_eq (header : List Char) :
    bodyLength header = lengthOf none ((pieces '\n' header).filterMap lengthText?) := by
  rw [bodyLength, lengthFrom_eq, filterMap_lines]

/-- A header that gives a length is not blank. -/
theorem isVoid_of_bodyLength {header : List Char} {n : Nat} (h : bodyLength header = .ok n) :
    Text.isVoid header = false := by
  rw [bodyLength_eq] at h
  cases htexts : (pieces '\n' header).filterMap lengthText? with
  | nil =>
    rw [htexts] at h
    cases h
  | cons text texts =>
    have hmem : text ∈ (pieces '\n' header).filterMap lengthText? := by
      rw [htexts]
      exact List.mem_cons_self
    obtain ⟨line, hline, htext⟩ := List.mem_filterMap.mp hmem
    have hcolon : ':' ∈ header := Text.mem_of_mem_pieces hline (colon_mem_of_lengthText? htext)
    rw [Text.isVoid, List.all_eq_false]
    exact ⟨':', hcolon, by decide⟩

/-- Lines that are joined give the values of the lines. -/
theorem filterMap_joined {texts : List String} (h : ∀ text ∈ texts, '\n' ∉ text.toList) :
    (pieces '\n' (joined texts).toList).filterMap lengthText? =
      (texts.map String.toList).filterMap lengthText? := by
  induction texts with
  | nil => rfl
  | cons text texts ih =>
    have htext : '\n' ∉ text.toList := h text List.mem_cons_self
    cases texts with
    | nil => rw [joined, Text.pieces_of_not_mem htext, List.map_singleton]
    | cons next texts =>
      have hreturn : '\n' ∉ text.toList ++ ['\r'] := by simp [htext]
      have hjoined : (joined (text :: next :: texts)).toList =
          text.toList ++ ['\r'] ++ '\n' :: (joined (next :: texts)).toList := by
        simp [joined]
      rw [hjoined, Text.pieces_append_cons, List.filterMap_append,
        ih fun t ht => h t (List.mem_cons_of_mem _ ht), Text.pieces_of_not_mem hreturn,
        List.map_cons (l := next :: texts)]
      simp only [List.filterMap_cons, lengthText?_concat_return, List.filterMap_nil]
      cases lengthText? text.toList with
      | none => rfl
      | some value => rfl

end TermLint.Frame

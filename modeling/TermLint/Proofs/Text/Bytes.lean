/-
  TermLint.Proofs.Text.Bytes

  The bytes of a text as a sum over its characters.  No text has more UTF-16 code
  units than bytes, and a line with all lines before it fits into its text: this is
  what bounds the positions in a document by its size.
-/

import TermLint.Json.Lexeme
import TermLint.Proofs.Text.Cut
import TermLint.Text.Units

namespace TermLint.Text

open Json (byteCount)

/-! ## Sums -/

theorem foldl_utf8Size (s : List Char) (n : Nat) :
    s.foldl (fun n c => n + c.utf8Size) n = n + byteCount s := by
  induction s generalizing n with
  | nil => rfl
  | cons c s ih =>
    have hc : byteCount (c :: s) = c.utf8Size + byteCount s := by
      rw [byteCount, List.foldl_cons, Nat.zero_add, ih]
    rw [List.foldl_cons, ih, hc, Nat.add_assoc]

@[simp] theorem byteCount_nil : byteCount [] = 0 := rfl

@[simp] theorem byteCount_cons (c : Char) (s : List Char) :
    byteCount (c :: s) = c.utf8Size + byteCount s := by
  rw [byteCount, List.foldl_cons, Nat.zero_add, foldl_utf8Size]

@[simp] theorem byteCount_append (a b : List Char) :
    byteCount (a ++ b) = byteCount a + byteCount b := by
  rw [byteCount, List.foldl_append, foldl_utf8Size, foldl_utf8Size, Nat.zero_add]

@[simp] theorem byteCount_reverse (s : List Char) : byteCount s.reverse = byteCount s := by
  induction s with
  | nil => rfl
  | cons c s ih =>
    rw [List.reverse_cons, byteCount_append, ih, byteCount_cons, byteCount_cons, byteCount_nil]
    omega

theorem byteCount_le_of_suffix {s t : List Char} (h : t <:+ s) : byteCount t ≤ byteCount s := by
  obtain ⟨front, rfl⟩ := h
  rw [byteCount_append]
  omega

theorem utf8ByteSize_eq (text : String) : text.utf8ByteSize = byteCount text.toList := by
  have hlist : ∀ s : List Char, (String.ofList s).utf8ByteSize = byteCount s := by
    intro s
    induction s with
    | nil => rfl
    | cons c s ih =>
      have hcons : String.ofList (c :: s) = String.singleton c ++ String.ofList s := by
        rw [String.singleton_eq_ofList, ← String.ofList_append, List.singleton_append]
      rw [hcons, String.utf8ByteSize_append, String.utf8ByteSize_singleton, ih, byteCount_cons]
  have h := hlist text.toList
  rwa [String.ofList_toList] at h

/-! ## UTF-16 code units -/

theorem charUnits_pos (c : Char) : 0 < charUnits c := by
  unfold charUnits
  split
  · omega
  · omega

theorem charUnits_le_utf8Size (c : Char) : charUnits c ≤ c.utf8Size := by
  unfold charUnits
  split
  · exact c.utf8Size_pos
  · -- a character beyond the basic plane is no ASCII character, so it takes more than one byte
    rename_i hplane
    have hsize : c.utf8Size ≠ 1 := by
      intro hone
      have hval := UInt32.le_iff_toNat_le.mp (Char.utf8Size_eq_one_iff.mp hone)
      have hlt : c.toNat ≤ 127 := hval
      omega
    have hpos := c.utf8Size_pos
    omega

theorem units_le_byteCount (s : List Char) : units s ≤ byteCount s := by
  induction s with
  | nil => exact Nat.le_refl 0
  | cons c s ih =>
    have hc := charUnits_le_utf8Size c
    rw [units_cons, byteCount_cons]
    omega

theorem units_pos {s : List Char} (h : s ≠ []) : 0 < units s := by
  cases s with
  | nil => exact absurd rfl h
  | cons c s =>
    have hc := charUnits_pos c
    rw [units_cons]
    omega

/-! ## Lines -/

/-- Every line takes the byte that ends it. -/
theorem length_le_byteCount_flatMap (lines : List (List Char)) :
    lines.length ≤ byteCount (lines.flatMap fun line => line ++ ['\n']) := by
  induction lines with
  | nil => exact Nat.le_refl 0
  | cons line lines ih =>
    have hfeed : byteCount ['\n'] = 1 := rfl
    rw [List.length_cons, List.flatMap_cons, byteCount_append, byteCount_append, hfeed]
    omega

/-- A line and the line ends before it are a part of the text. -/
theorem number_add_byteCount_le {text line : List Char} {number : Nat}
    (h : (pieces '\n' text)[number]? = some line) : number + byteCount line ≤ byteCount text := by
  obtain ⟨hlt, hline⟩ := List.getElem?_eq_some_iff.mp h
  have hpieces : pieces '\n' text =
      (pieces '\n' text).take number ++ line :: (pieces '\n' text).drop (number + 1) := by
    rw [← hline, ← List.drop_eq_getElem_cons hlt, List.take_append_drop]
  have hbefore := length_le_byteCount_flatMap ((pieces '\n' text).take number)
  rw [List.length_take_of_le (Nat.le_of_lt hlt)] at hbefore
  have htext := congrArg byteCount (flatMap_pieces '\n' text)
  rw [hpieces, List.flatMap_append, List.flatMap_cons] at htext
  simp only [byteCount_append] at htext
  omega

end TermLint.Text

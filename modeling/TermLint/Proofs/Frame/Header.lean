/-
  TermLint.Proofs.Frame.Header

  The header that a frame is written with.  It holds no carriage return, so the
  frame is cut right after it, and the length it gives is read back as long as it
  is a word of 64 bits.
-/

import TermLint.Frame.Basic
import TermLint.Proofs.Frame.Length
import TermLint.Proofs.Text.Cut
import TermLint.Proofs.Text.Digits

namespace TermLint.Frame

/-! ## The written header -/

/-- The header of a frame whose body has the given length. -/
def headerOf (n : Nat) : List Char :=
  lengthKey.toList ++ ':' :: ' ' :: Nat.toDigits 10 n

theorem toList_wrap (body : String) :
    (wrap body).toList = headerOf body.utf8ByteSize ++ separator.toList ++ body.toList := by
  have hcolon : ": ".toList = [':', ' '] := rfl
  have hdigits : (toString body.utf8ByteSize).toList = Nat.toDigits 10 body.utf8ByteSize :=
    Nat.toList_repr
  simp only [wrap, headerOf, String.toList_append, hcolon, hdigits, List.append_assoc,
    List.cons_append, List.nil_append]

/-- A character that is neither a digit nor in the key is not in the header. -/
theorem not_mem_headerOf {c : Char} (hkey : c ∉ lengthKey.toList) (hcolon : c ≠ ':')
    (hspace : c ≠ ' ') (hdigit : c.isDigit = false) (n : Nat) : c ∉ headerOf n := by
  intro hmem
  simp only [headerOf, List.mem_append, List.mem_cons] at hmem
  rcases hmem with hmem | hmem | hmem | hmem
  · exact hkey hmem
  · exact hcolon hmem
  · exact hspace hmem
  · rw [Text.isDigit_of_mem_toDigits hmem] at hdigit
    cases hdigit

theorem lengthText?_headerOf (n : Nat) : lengthText? (headerOf n) = some (Nat.toDigits 10 n) := by
  have hkey : ':' ∉ lengthKey.toList := by decide
  have hsame : Text.sameLetters (Text.trim lengthKey.toList) lengthKey.toList = true := by decide
  rw [headerOf, lengthText?_colon hkey, if_pos hsame,
    Text.trim_space_digits fun c hc => Text.isDigit_of_mem_toDigits hc]

theorem lengthValue?_toDigits (n : Nat) :
    lengthValue? (Nat.toDigits 10 n) = if n < UInt64.size then some n else none := by
  have hall : (Nat.toDigits 10 n).all Char.isDigit = true :=
    List.all_eq_true.mpr fun c hc => Text.isDigit_of_mem_toDigits hc
  have hcond : (Nat.toDigits 10 n ≠ [] ∧ (Nat.toDigits 10 n).all Char.isDigit = true ∧
      n < UInt64.size) ↔ n < UInt64.size :=
    ⟨fun h => h.2.2, fun h => ⟨Nat.toDigits_ne_nil, hall, h⟩⟩
  unfold lengthValue?
  split
  · -- a plus sign is no digit
    rename_i digits hplus
    have hdigit := Text.isDigit_of_mem_toDigits (n := n) (hplus ▸ List.mem_cons_self)
    cases hdigit
  · simp only [Text.naturalOf_toDigits, hcond]

/-- The length that a header gives, as far as it fits 64 bits. -/
theorem bodyLength_headerOf (n : Nat) :
    bodyLength (headerOf n) =
      if n < UInt64.size then .ok n else .error (.badLength (toString n)) := by
  have hfeed : '\n' ∉ headerOf n :=
    not_mem_headerOf (by decide) (by decide) (by decide) (by decide) n
  have hne : headerOf n ≠ [] := by
    rw [headerOf]
    exact List.append_ne_nil_of_right_ne_nil _ (List.cons_ne_nil _ _)
  rw [bodyLength, Text.lines_of_not_mem hne hfeed, lengthFrom]
  simp only [lengthText?_headerOf, lengthValue?_toDigits]
  by_cases hn : n < UInt64.size
  · simp only [hn, if_true, lengthFrom]
  · simp only [hn, if_false]
    rfl

/-! ## Written frames -/

theorem halves?_wrap (body : String) :
    halves? (wrap body) = some (headerOf body.utf8ByteSize, body.toList) := by
  have hreturn : '\r' ∉ headerOf body.utf8ByteSize :=
    not_mem_headerOf (by decide) (by decide) (by decide) (by decide) _
  -- only the body may hold the separator once more, and the first one counts
  rw [halves?, toList_wrap]
  exact Text.cut?_append '\r' ['\n', '\r', '\n'] body.toList hreturn

theorem isVoid_headerOf (n : Nat) : Text.isVoid (headerOf n) = false := by
  rfl

/-- A written frame is taken apart into the length and the text of its body, unless the body is too
large. -/
theorem split_wrap {body : String} (hne : body ≠ "") :
    split (wrap body) =
      if body.utf8ByteSize < UInt64.size then
        if maxLength < body.utf8ByteSize then .error (.tooLarge body.utf8ByteSize)
        else .ok (body.utf8ByteSize, body)
      else .error (.badLength (toString body.utf8ByteSize)) := by
  have hcontent : body.toList ≠ [] := by simpa using hne
  simp only [split, halves?_wrap, isVoid_headerOf, Bool.false_eq_true, hcontent, if_false,
    bodyLength_headerOf, String.ofList_toList]
  by_cases hn : body.utf8ByteSize < UInt64.size
  · simp only [hn, if_true, ne_eq, not_true_eq_false, if_false]
  · simp only [hn, if_false]

end TermLint.Frame

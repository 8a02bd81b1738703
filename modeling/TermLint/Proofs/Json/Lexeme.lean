/-
  TermLint.Proofs.Json.Lexeme

  Written strings and integers read back.  A string is followed by anything; a
  number only by what cannot belong to it, since nothing marks its end.
-/

import TermLint.Json.Lexeme
import TermLint.Json.Printer
import TermLint.Proofs.Text.Digits

namespace TermLint.Json

open Text (hexDigit? naturalOf)

theorem skipBlanks_cons {c : Char} {t : List Char} (h : isBlank c = false) :
    skipBlanks (c :: t) = c :: t :=
  List.dropWhile_cons_of_neg (by simp [h])

/-! ## Strings -/

/-- The hexadecimal digits of a number below 16. -/
theorem hexDigit?_digitChar {n : Nat} (h : n < 16) : hexDigit? (Nat.digitChar n) = some n := by
  have hall : ∀ m < 16, hexDigit? (Nat.digitChar m) = some m := by decide
  exact hall n h

/-- A character below the space that has no letter of its own is written in four digits. -/
theorem escape_hex {c : Char} (h : c.toNat < 0x20) (rest : List Char) :
    escape
        ('u' :: '0' :: '0' :: Nat.digitChar (c.toNat / 16) :: Nat.digitChar (c.toNat % 16) :: rest)
      = .ok (c, rest) := by
  have hhigh := hexDigit?_digitChar (n := c.toNat / 16) (by omega)
  have hlow := hexDigit?_digitChar (n := c.toNat % 16) (by omega)
  have hzero : hexDigit? '0' = some 0 := by decide
  have hvalue : ((0 * 16 + 0) * 16 + c.toNat / 16) * 16 + c.toNat % 16 = c.toNat := by omega
  rw [escape, if_pos rfl, unicodeEscape, hexQuad]
  simp only [hzero, hhigh, hlow, hvalue]
  rw [if_neg (by omega), if_neg (by omega), Char.ofNat_toNat]

/-- A written character reads back, whatever follows it. -/
theorem stringFrom_escaped (read : List Char) (c : Char) (rest : List Char) :
    stringFrom read (escaped c ++ rest) = stringFrom (c :: read) rest := by
  unfold escaped
  split
  -- the seven characters with an escape of one letter
  iterate 7
    · rw [List.cons_append, List.cons_append, List.nil_append, stringFrom]
      rw [if_neg (by decide), if_pos rfl]
      rfl
  · rename_i hquote hslash _ _ _ _ _
    -- below the space a character is written in hexadecimal, else as itself
    split
    · rename_i hlow
      simp only [List.cons_append, List.nil_append]
      rw [stringFrom, if_neg (by decide), if_pos rfl]
      split
      · rename_i herr
        rw [escape_hex hlow] at herr
        cases herr
      · rename_i hok
        rw [escape_hex hlow] at hok
        cases hok
        rfl
    · rename_i hlow
      have hspace : ¬ c < ' ' := by
        intro hlt
        exact hlow hlt
      rw [List.singleton_append, stringFrom, if_neg hquote, if_neg hslash, if_neg hspace]

/-- A written string reads back, whatever follows it. -/
theorem stringFrom_print (read text rest : List Char) :
    stringFrom read (text.flatMap escaped ++ '"' :: rest) =
      .ok (String.ofList (read.reverse ++ text), rest) := by
  induction text generalizing read with
  | nil => rw [List.flatMap_nil, List.nil_append, stringFrom, if_pos rfl, List.append_nil]
  | cons c text ih =>
    rw [List.flatMap_cons, List.append_assoc, stringFrom_escaped, ih, List.reverse_cons,
      List.append_assoc, List.singleton_append]

/-! ## Numbers -/

/-- A text that cannot go on with a number that ends before it. -/
def EndsNumber (rest : List Char) : Prop :=
  ∀ c ∈ rest.head?, c.isDigit = false ∧ c ≠ '.' ∧ isPowerMark c = false

theorem fractionNumber_ends {negative : Bool} {whole rest : List Char} (h : EndsNumber rest) :
    fractionNumber negative whole rest = plainNumber negative whole rest := by
  cases rest with
  | nil => rfl
  | cons c rest =>
    obtain ⟨-, hpoint, hmark⟩ := h c rfl
    rw [fractionNumber, if_neg hpoint, if_neg (by simp [hmark])]

/-- All digits of a written number are taken. -/
theorem unsignedNumber_toDigits (negative : Bool) (n : Nat) {rest : List Char}
    (h : EndsNumber rest) :
    unsignedNumber negative (Nat.toDigits 10 n ++ rest) =
      plainNumber negative (Nat.toDigits 10 n) rest := by
  have hdigits : ∀ c ∈ Nat.toDigits 10 n, c.isDigit = true :=
    fun c hc => Text.isDigit_of_mem_toDigits hc
  have hrest : ∀ c ∈ rest.head?, c.isDigit = false := fun c hc => (h c hc).1
  -- a zero is read by itself, since no digit may follow it; other numbers have no leading zero
  rcases Nat.eq_zero_or_pos n with rfl | hpos
  · have hstart : startsDigit rest = false := by
      cases rest with
      | nil => rfl
      | cons c rest => exact hrest c rfl
    rw [Nat.toDigits_zero, List.singleton_append, unsignedNumber, if_pos rfl,
      if_neg (by simp [hstart]), fractionNumber_ends h]
  · have hhead := Text.head_toDigits_ne_zero hpos
    cases hd : Nat.toDigits 10 n with
    | nil => exact absurd hd Nat.toDigits_ne_nil
    | cons c digits =>
      rw [hd] at hdigits hhead
      have hc : c ≠ '0' := fun heq => hhead (by rw [heq]; rfl)
      have hmore : ∀ d ∈ digits, d.isDigit = true :=
        fun d hd => hdigits d (List.mem_cons_of_mem _ hd)
      rw [List.cons_append, unsignedNumber, if_neg hc, if_pos (hdigits c List.mem_cons_self),
        Text.takeWhile_isDigit_append hmore hrest, Text.dropWhile_isDigit_append hmore hrest,
        fractionNumber_ends h]

/-- The digits of a natural number do not begin with a minus sign. -/
theorem number_toDigits (n : Nat) (rest : List Char) :
    number (Nat.toDigits 10 n ++ rest) = unsignedNumber false (Nat.toDigits 10 n ++ rest) := by
  cases hd : Nat.toDigits 10 n with
  | nil => exact absurd hd Nat.toDigits_ne_nil
  | cons c digits =>
    have hc : c.isDigit = true := Text.isDigit_of_mem_toDigits (hd ▸ List.mem_cons_self)
    unfold number
    split
    · rename_i heq
      rw [(List.cons.inj heq).1] at hc
      cases hc
    · rfl

theorem printNumber_ofNat (m : Nat) : printNumber (.int (Int.ofNat m)) = Nat.toDigits 10 m :=
  Nat.toList_repr

theorem printNumber_negSucc (m : Nat) :
    printNumber (.int (Int.negSucc m)) = '-' :: Nat.toDigits 10 (m + 1) := by
  show ("-" ++ Nat.repr (m + 1)).toList = _
  rw [String.toList_append, Nat.toList_repr]
  rfl

/-- A written integer of 64 bits, signed or unsigned, reads back. -/
theorem number_print {n : Int} {rest : List Char} (hlow : Int64.minValue.toInt ≤ n)
    (hhigh : n < UInt64.size)
    (h : EndsNumber rest) : number (printNumber (.int n) ++ rest) = .ok (.int n, rest) := by
  cases n with
  | ofNat m =>
    have hm : m < UInt64.size := by
      rw [Int.ofNat_eq_natCast] at hhigh
      omega
    rw [printNumber_ofNat, number_toDigits, unsignedNumber_toDigits false m h]
    simp only [plainNumber, integerNumber, Text.naturalOf_toDigits, true_and, if_pos hm]
    rfl
  | negSucc m =>
    have hm : Int64.minValue.toInt ≤ -((m + 1 : Nat) : Int) := hlow
    rw [printNumber_negSucc, List.cons_append, number, unsignedNumber_toDigits true (m + 1) h]
    simp only [plainNumber, integerNumber, Text.naturalOf_toDigits, reduceCtorEq, false_and,
      if_false, Nat.succ_pos m, true_and, if_pos hm]
    rfl

/-- The first character of a number is none that begins something else. -/
theorem ne_of_startsNumber {c d : Char} (h : startsNumber c = true) (hd : startsNumber d = false) :
    c ≠ d := by
  rintro rfl
  rw [h] at hd
  cases hd

/-- No blank begins a number. -/
theorem isBlank_of_startsNumber {c : Char} (h : startsNumber c = true) : isBlank c = false := by
  cases hblank : isBlank c with
  | false => rfl
  | true =>
    simp only [isBlank, Bool.or_eq_true, beq_iff_eq] at hblank
    rcases hblank with ((rfl | rfl) | rfl) | rfl <;> cases h

/-- The first character of a written integer. -/
theorem printNumber_int_cons (n : Int) :
    ∃ c t, printNumber (.int n) = c :: t ∧ startsNumber c = true := by
  cases n with
  | ofNat m =>
    rw [printNumber_ofNat]
    cases hd : Nat.toDigits 10 m with
    | nil => exact absurd hd Nat.toDigits_ne_nil
    | cons c digits =>
      have hc : c.isDigit = true := Text.isDigit_of_mem_toDigits (hd ▸ List.mem_cons_self)
      exact ⟨c, digits, rfl, by simp [startsNumber, hc]⟩
  | negSucc m => exact ⟨'-', _, printNumber_negSucc m, rfl⟩

end TermLint.Json

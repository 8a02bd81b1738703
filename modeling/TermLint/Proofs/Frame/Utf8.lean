/-
  TermLint.Proofs.Frame.Utf8

  Bytes and the texts they encode.  `textOf?` and `bytesOf` are inverse to each
  other, and the ASCII blanks around a line make no difference to whether it is a
  text: an ASCII byte is never a part of the encoding of another character.
-/

import TermLint.Frame.Source

namespace TermLint.Frame

/-! ## Texts and their bytes -/

theorem bytesOf_eq_flatMap (text : String) :
    bytesOf text = text.toList.flatMap String.utf8EncodeChar := by
  rw [bytesOf, String.toUTF8_eq_toByteArray, ← String.utf8Encode_toList, List.utf8Encode,
    List.toList_data_toByteArray]

theorem length_bytesOf (text : String) : (bytesOf text).length = text.utf8ByteSize := by
  simp [bytesOf]

theorem bytesOf_append (a b : String) : bytesOf (a ++ b) = bytesOf a ++ bytesOf b := by
  simp only [bytesOf_eq_flatMap, String.toList_append, List.flatMap_append]

/-- Bytes are a text exactly when they are the bytes of that text. -/
theorem textOf?_eq_some_iff {bytes : List UInt8} {text : String} :
    textOf? bytes = some text ↔ bytes = bytesOf text := by
  unfold textOf? String.fromUTF8?
  constructor
  · intro h
    split at h
    · cases h
      simp [bytesOf, String.fromUTF8]
    · cases h
  · rintro rfl
    have hb : (⟨(bytesOf text).toArray⟩ : ByteArray) = text.toByteArray := by
      simp [bytesOf]
    rw [dif_pos (hb ▸ text.isValidUTF8)]
    simp only [String.fromUTF8, Option.some.injEq]
    rw [← String.toByteArray_inj]
    exact hb

theorem bytesOf_inj {a b : String} (h : bytesOf a = bytesOf b) : a = b := by
  have ha : textOf? (bytesOf a) = some a := textOf?_eq_some_iff.mpr rfl
  have hb : textOf? (bytesOf a) = some b := textOf?_eq_some_iff.mpr h
  exact Option.some.inj (ha.symm.trans hb)

/-- Bytes that are the UTF-8 encoding of a text. -/
def IsText (bytes : List UInt8) : Prop :=
  (textOf? bytes).isSome

instance (bytes : List UInt8) : Decidable (IsText bytes) :=
  inferInstanceAs (Decidable (_ = true))

theorem isText_iff {bytes : List UInt8} :
    IsText bytes ↔ ∃ chars : List Char, bytes = chars.flatMap String.utf8EncodeChar := by
  rw [IsText, Option.isSome_iff_exists]
  constructor
  · rintro ⟨text, h⟩
    exact ⟨text.toList, by rw [textOf?_eq_some_iff.mp h, bytesOf_eq_flatMap]⟩
  · rintro ⟨chars, rfl⟩
    refine ⟨String.ofList chars, textOf?_eq_some_iff.mpr ?_⟩
    rw [bytesOf_eq_flatMap, String.toList_ofList]

/-! ## ASCII bytes -/

/-- The character of an ASCII byte is encoded by that byte. -/
theorem utf8EncodeChar_ofUInt8 {byte : UInt8} (h : byte < 128) :
    String.utf8EncodeChar (Char.ofUInt8 byte) = [byte] := by
  have hval : (Char.ofUInt8 byte).val.toNat = byte.toNat := rfl
  have hle : byte.toNat ≤ 127 := Nat.le_of_lt_succ (UInt8.lt_iff_toNat_lt.mp h)
  simp only [String.utf8EncodeChar, hval, if_pos hle, UInt8.ofNat_toNat]

/-- An ASCII byte is never a part of the encoding of a larger character. -/
theorem utf8EncodeChar_eq_singleton_of_mem {c : Char} {byte : UInt8}
    (hmem : byte ∈ String.utf8EncodeChar c) (h : byte < 128) :
    String.utf8EncodeChar c = [byte] := by
  have hlt : byte.toNat < 128 := UInt8.lt_iff_toNat_lt.mp h
  -- every byte of a longer encoding is at least 128
  have hlarge : ∀ n, 128 ≤ n → n < 256 → byte ≠ UInt8.ofNat n := by
    rintro n hn hn' rfl
    rw [UInt8.toNat_ofNat', Nat.mod_eq_of_lt hn'] at hlt
    omega
  unfold String.utf8EncodeChar at hmem ⊢
  simp only at hmem ⊢
  split at hmem
  · rename_i hle
    rw [if_pos hle, List.mem_singleton.mp hmem]
  · exfalso
    split at hmem
    · simp only [List.mem_cons, List.not_mem_nil, or_false] at hmem
      rcases hmem with hm | hm <;> exact hlarge _ (by omega) (by omega) hm
    · split at hmem
      · simp only [List.mem_cons, List.not_mem_nil, or_false] at hmem
        rcases hmem with hm | hm | hm <;> exact hlarge _ (by omega) (by omega) hm
      · simp only [List.mem_cons, List.not_mem_nil, or_false] at hmem
        rcases hmem with hm | hm | hm | hm <;> exact hlarge _ (by omega) (by omega) hm

/-- An ASCII byte of a text is one of its characters. -/
theorem ofUInt8_mem_of_mem_bytesOf {byte : UInt8} {text : String} (h : byte < 128)
    (hmem : byte ∈ bytesOf text) : Char.ofUInt8 byte ∈ text.toList := by
  rw [bytesOf_eq_flatMap, List.mem_flatMap] at hmem
  obtain ⟨c, hc, hbyte⟩ := hmem
  -- a character is known by its bytes
  have hsame : String.ofList [c] = String.ofList [Char.ofUInt8 byte] := by
    refine bytesOf_inj ?_
    simp only [bytesOf_eq_flatMap, String.toList_ofList, List.flatMap_singleton,
      utf8EncodeChar_eq_singleton_of_mem hbyte h, utf8EncodeChar_ofUInt8 h]
  rw [← List.singleton_inj.mp (String.ofList_injective hsame)]
  exact hc

theorem isText_append {a b : List UInt8} (ha : IsText a) (hb : IsText b) : IsText (a ++ b) := by
  obtain ⟨as, rfl⟩ := isText_iff.mp ha
  obtain ⟨bs, rfl⟩ := isText_iff.mp hb
  exact isText_iff.mpr ⟨as ++ bs, List.flatMap_append.symm⟩

theorem isText_ascii {byte : UInt8} (h : byte < 128) : IsText [byte] :=
  isText_iff.mpr ⟨[Char.ofUInt8 byte], by simp [utf8EncodeChar_ofUInt8 h]⟩

/-- An ASCII byte in front makes no difference. -/
theorem isText_cons {byte : UInt8} {bytes : List UInt8} (h : byte < 128) :
    IsText (byte :: bytes) ↔ IsText bytes := by
  refine ⟨fun ht => ?_, isText_append (isText_ascii h)⟩
  obtain ⟨chars, hchars⟩ := isText_iff.mp ht
  cases chars with
  | nil => cases hchars
  | cons c chars =>
    rw [List.flatMap_cons] at hchars
    -- the byte belongs to the first character, which then is encoded by it alone
    have hmem : byte ∈ String.utf8EncodeChar c := by
      cases henc : String.utf8EncodeChar c with
      | nil => exact absurd henc String.utf8EncodeChar_ne_nil
      | cons first more =>
        rw [henc, List.cons_append] at hchars
        exact (List.cons.inj hchars).1 ▸ List.mem_cons_self
    rw [utf8EncodeChar_eq_singleton_of_mem hmem h, List.singleton_append] at hchars
    exact isText_iff.mpr ⟨chars, (List.cons.inj hchars).2⟩

/-- An ASCII byte at the end makes no difference. -/
theorem isText_concat {byte : UInt8} {bytes : List UInt8} (h : byte < 128) :
    IsText (bytes ++ [byte]) ↔ IsText bytes := by
  refine ⟨fun ht => ?_, fun ht => isText_append ht (isText_ascii h)⟩
  obtain ⟨chars, hchars⟩ := isText_iff.mp ht
  cases List.eq_nil_or_concat chars with
  | inl hnil => simp [hnil] at hchars
  | inr hconcat =>
    obtain ⟨init, c, rfl⟩ := hconcat
    rw [List.concat_eq_append, List.flatMap_append, List.flatMap_singleton] at hchars
    -- the byte belongs to the last character
    have hmem : byte ∈ String.utf8EncodeChar c := by
      have hlast := congrArg List.getLast? hchars
      rw [List.getLast?_concat, List.getLast?_append,
        List.getLast?_eq_some_getLast (String.utf8EncodeChar_ne_nil (c := c)),
        Option.some_or] at hlast
      rw [Option.some.inj hlast]
      exact List.getLast_mem _
    rw [utf8EncodeChar_eq_singleton_of_mem hmem h] at hchars
    exact isText_iff.mpr ⟨init, List.append_cancel_right hchars⟩

/-! ## Trimming -/

/-- A blank byte is an ASCII byte, and its character is blank. -/
theorem blank_of_isBlankByte {byte : UInt8} (h : Text.isBlankByte byte = true) :
    byte < 128 ∧ Text.isBlank (Char.ofUInt8 byte) = true := by
  simp only [Text.isBlankByte, Bool.or_eq_true, beq_iff_eq] at h
  rcases h with (((rfl | rfl) | rfl) | rfl) | rfl <;> decide

/-- A text without blanks has no blank bytes. -/
theorem isBlankByte_of_mem_bytesOf {text : String} (h : ∀ c ∈ text.toList, Text.isBlank c = false)
    {byte : UInt8} (hmem : byte ∈ bytesOf text) : Text.isBlankByte byte = false := by
  cases hblank : Text.isBlankByte byte with
  | false => rfl
  | true =>
    obtain ⟨hascii, hchar⟩ := blank_of_isBlankByte hblank
    rw [h _ (ofUInt8_mem_of_mem_bytesOf hascii hmem)] at hchar
    cases hchar

theorem isText_dropWhile {p : UInt8 → Bool} (hp : ∀ byte, p byte = true → byte < 128)
    (bytes : List UInt8) : IsText (bytes.dropWhile p) ↔ IsText bytes := by
  induction bytes with
  | nil => rfl
  | cons byte bytes ih =>
    rw [List.dropWhile_cons]
    split
    · rename_i hb
      rw [ih, isText_cons (hp byte hb)]
    · rfl

theorem isText_reverse_dropWhile {p : UInt8 → Bool} (hp : ∀ byte, p byte = true → byte < 128)
    (bytes : List UInt8) : IsText (bytes.dropWhile p).reverse ↔ IsText bytes.reverse := by
  induction bytes with
  | nil => rfl
  | cons byte bytes ih =>
    rw [List.dropWhile_cons]
    split
    · rename_i hb
      rw [ih, List.reverse_cons, isText_concat (hp byte hb)]
    · rfl

/-- Blanks around a line make no difference to whether it is text. -/
theorem isText_trimBytes (bytes : List UInt8) : IsText (Text.trimBytes bytes) ↔ IsText bytes := by
  have hp : ∀ byte, Text.isBlankByte byte = true → byte < 128 := fun _ h =>
    (blank_of_isBlankByte h).1
  rw [Text.trimBytes, Text.strip, isText_reverse_dropWhile hp, List.reverse_reverse,
    isText_dropWhile hp]

end TermLint.Frame

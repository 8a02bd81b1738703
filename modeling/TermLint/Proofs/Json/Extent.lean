/-
  TermLint.Proofs.Json.Extent

  Reading never makes a text longer.  Each escape takes at least as many bytes as
  the character that it stands for, so a string has no more bytes than what stands
  between its quotes.  `Within` says this of all strings in data at once, and holds
  of whatever is read from a text and of its canonical form.
-/

import TermLint.Proofs.Json.Plain
import TermLint.Proofs.Json.Suffix
import TermLint.Proofs.Text.Bytes

namespace TermLint

/-! ## Data within a text -/

/-- Every string in the data, with its quotes, has at most `n` bytes. -/
inductive Value.Within (n : Nat) : Value → Prop where
  | null : Within n .null
  | bool (value : Bool) : Within n (.bool value)
  | number (value : Number) : Within n (.number value)
  | string {text : String} (h : text.utf8ByteSize + 2 ≤ n) : Within n (.string text)
  | array {items : List Value} (h : ∀ item ∈ items, Within n item) : Within n (.array items)
  | object {fields : List (String × Value)} (h : ∀ field ∈ fields, Within n field.2) :
      Within n (.object fields)

namespace Value

variable {m n : Nat} {v : Value}

theorem Within.mono (h : v.Within m) (hle : m ≤ n) : v.Within n := by
  induction h with
  | null => exact .null
  | bool value => exact .bool value
  | number value => exact .number value
  | string h => exact .string (Nat.le_trans h hle)
  | array h ih => exact .array ih
  | object h ih => exact .object ih

/-- The canonical form has no other strings. -/
theorem Within.canonical (h : v.Within n) : v.canonical.Within n := by
  induction h with
  | null => exact .null
  | bool value => exact .bool value
  | number value => exact .number value
  | string h => exact .string h
  | array h ih =>
    rw [canonical_array]
    refine .array fun item hmem => ?_
    obtain ⟨original, horiginal, rfl⟩ := List.mem_map.mp hmem
    exact ih original horiginal
  | object h ih =>
    rw [canonical_object]
    refine .object fun field hmem => ?_
    obtain ⟨original, horiginal, rfl⟩ := List.mem_map.mp (mem_of_mem_orderFields hmem)
    exact ih original horiginal

end Value

namespace Json

open Text (Reader byteCount_cons byteCount_nil byteCount_append byteCount_le_of_suffix)

variable {s t rest : List Char} {c : Char}

/-! ## Strings -/

theorem hexQuad_byteCount {n : Nat} (h : hexQuad s = .ok (n, rest)) :
    byteCount rest + 4 ≤ byteCount s := by
  unfold hexQuad at h
  split at h
  · rename_i a b c d left
    split at h
    · cases h
      have ha := a.utf8Size_pos
      have hb := b.utf8Size_pos
      have hc := c.utf8Size_pos
      have hd := d.utf8Size_pos
      simp only [byteCount_cons]
      omega
    · cases h
  · split at h
    · cases h
    · cases h

theorem trailingSurrogate_byteCount {high : Nat} (h : trailingSurrogate high s = .ok (c, rest)) :
    byteCount rest ≤ byteCount s := by
  unfold trailingSurrogate at h
  split at h
  · cases h
  · cases h
  · split at h
    · cases h
    · rename_i low left hquad
      split at h
      · simp only [Except.ok.injEq, Prod.mk.injEq] at h
        have hleft := hexQuad_byteCount hquad
        rw [← h.2]
        simp only [byteCount_cons]
        omega
      · cases h
  · cases h

/-- No character takes more than the four bytes of the digits that write it. -/
theorem unicodeEscape_byteCount (h : unicodeEscape s = .ok (c, rest)) :
    c.utf8Size + byteCount rest ≤ byteCount s := by
  have hsize : c.utf8Size ≤ 4 := c.utf8Size_le_four
  unfold unicodeEscape at h
  split at h
  · cases h
  · rename_i unit left hquad
    have hleft := hexQuad_byteCount hquad
    split at h
    · cases h
    · split at h
      · have hrest := trailingSurrogate_byteCount h
        omega
      · simp only [Except.ok.injEq, Prod.mk.injEq] at h
        rw [← h.2]
        omega

theorem letterEscape?_utf8Size {letter : Char} (h : letterEscape? letter = some c) :
    c.utf8Size = 1 := by
  unfold letterEscape? at h
  split at h <;> cases h <;> rfl

theorem escape_byteCount (h : escape s = .ok (c, rest)) :
    c.utf8Size + byteCount rest ≤ byteCount s := by
  cases s with
  | nil => cases h
  | cons letter s =>
    have hpos := letter.utf8Size_pos
    rw [byteCount_cons]
    rw [escape] at h
    split at h
    · have hescape := unicodeEscape_byteCount h
      omega
    · split at h
      · rename_i hletter
        cases h
        have hone := letterEscape?_utf8Size hletter
        omega
      · cases h

/-- A string and what is left after its closing quote have no more bytes than there were. -/
theorem stringFrom_byteCount {read : List Char} {text : String}
    (h : stringFrom read s = .ok (text, rest)) :
    text.utf8ByteSize + 1 + byteCount rest ≤ byteCount read + byteCount s := by
  fun_induction stringFrom read s with
  | case1 => cases h
  | case2 read s =>
    cases h
    have hquote : '"'.utf8Size = 1 := rfl
    rw [Text.utf8ByteSize_eq, String.toList_ofList, Text.byteCount_reverse, byteCount_cons, hquote]
    omega
  | case3 => cases h
  | case4 read s c left hescape hlt _ ih =>
    have hread := ih h
    have hleft := escape_byteCount hescape
    rw [byteCount_cons] at hread ⊢
    omega
  | case5 => cases h
  | case6 read c s _ _ _ ih =>
    have hread := ih h
    rw [byteCount_cons] at hread ⊢
    omega

/-! ## Values -/

/-- What a reader takes is within the text that it is given, and what it leaves is a suffix. -/
structure Confined (reader : Reader Fault Value) : Prop where
  within : ∀ {s rest : List Char} {v : Value}, reader.run s = .ok (v, rest) →
    v.Within (byteCount s)
  suffix : ∀ {s rest : List Char} {v : Value}, reader.run s = .ok (v, rest) → rest <:+ s

theorem within_of_itemsRead {item : Reader Fault Value} (hitem : Confined item) {first : Bool}
    {items : List Value} (h : ItemsRead item first s items rest) :
    ∀ v ∈ items, v.Within (byteCount s) := by
  induction h with
  | closed turn => exact fun v hmem => (by cases hmem)
  | @entry first s t u rest a items turn taken more ih =>
    have ht : t <:+ s := itemTurn_entry_suffix turn
    have hu : u <:+ s := (hitem.suffix taken).trans ht
    intro v hmem
    rcases List.mem_cons.mp hmem with rfl | hmem
    · exact (hitem.within taken).mono (byteCount_le_of_suffix ht)
    · exact (ih v hmem).mono (byteCount_le_of_suffix hu)

theorem within_of_fieldsRead {value : Reader Fault Value} (hvalue : Confined value) {first : Bool}
    {fields : List (String × Value)} (h : FieldsRead value first s fields rest) :
    ∀ field ∈ fields, field.2.Within (byteCount s) := by
  induction h with
  | closed turn => exact fun field hmem => (by cases hmem)
  | @entry first s t u v w rest key a fields turn name mark taken more ih =>
    have hv : v <:+ s := (colon_suffix mark).trans
      ((stringFrom_suffix name).trans (keyTurn_entry_suffix turn))
    have hw : w <:+ s := (hvalue.suffix taken).trans hv
    intro field hmem
    rcases List.mem_cons.mp hmem with rfl | hmem
    · exact (hvalue.within taken).mono (byteCount_le_of_suffix hv)
    · exact (ih field hmem).mono (byteCount_le_of_suffix hw)

/-- Each form of a value is within its text, when what may stand inside it is. -/
theorem within_of_treeRead {levels : Nat} (hinner : ∀ inner < levels, Confined (tree inner))
    {v : Value} (h : TreeRead levels s v rest) : v.Within (byteCount s) := by
  cases h with
  | null letters => exact .null
  | yes letters => exact .bool true
  | no letters => exact .bool false
  | number starts taken => exact .number _
  | @string _ t _ text taken =>
    have hsize := stringFrom_byteCount taken
    have hquote : '"'.utf8Size = 1 := rfl
    refine .string ?_
    rw [byteCount_nil] at hsize
    rw [byteCount_cons, hquote]
    omega
  | array inside =>
    have hitems := within_of_itemsRead (hinner _ (Nat.lt_succ_self _)) inside
    exact .array fun v hmem =>
      (hitems v hmem).mono (byteCount_le_of_suffix (List.suffix_cons _ _))
  | object inside =>
    have hfields := within_of_fieldsRead (hinner _ (Nat.lt_succ_self _)) inside
    exact .object fun field hmem =>
      (hfields field hmem).mono (byteCount_le_of_suffix (List.suffix_cons _ _))

/-- Whatever is read as data is within its text. -/
theorem confined_tree (levels : Nat) : Confined (tree levels) := by
  -- what stands inside a value was read with fewer levels
  induction levels using Nat.strongRecOn with
  | ind levels ih =>
    refine ⟨fun {s rest v} h => ?_, tree_suffix⟩
    exact (within_of_treeRead ih (treeRead_of_tree h)).mono
      (byteCount_le_of_suffix (skipBlanks_suffix s))

end Json
end TermLint

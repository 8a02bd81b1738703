/-
  TermLint.Proofs.Frame.Declaration

  The length that a header declares, said by its lines.  A length line has the length
  key before its first colon, in letters of any case and with blanks around it or not.
  The first length line whose value is no number below 2 ^ 64 makes the header faulty;
  otherwise the last length line counts.  All other lines are silent: it makes no
  difference where they stand or whether they are there, as it makes none how the key
  of a length line is capitalised and how many blanks it has.

  `Declares` is the rule, `exists_declares` says that it covers every header, and
  `Declares.lengthFrom_eq` that the lines are read by it.
-/

import Mathlib.Data.List.Induction
import Mathlib.Data.Nat.Digits.Defs
import Mathlib.Logic.Relation
import TermLint.Proofs.Frame.Header

namespace TermLint.Text

/-! ## Trimming and letter case -/

/-- `core` is what is left of a text without the blanks at its two ends. -/
structure Trimmed (text core : List Char) : Prop where
  around : ∃ a b, text = a ++ core ++ b ∧ (∀ c ∈ a, isBlank c = true) ∧ ∀ c ∈ b, isBlank c = true
  head : ∀ c ∈ core.head?, isBlank c = false
  last : ∀ c ∈ core.getLast?, isBlank c = false

theorem trimmed_trim (text : List Char) : Trimmed text (trim text) := by
  obtain ⟨a, b, htext, ha, hb, hhead, hlast⟩ := exists_strip isBlank text
  exact ⟨⟨a, b, htext, ha, hb⟩, hhead, hlast⟩

theorem Trimmed.trim_eq {text core : List Char} (h : Trimmed text core) : trim text = core := by
  obtain ⟨a, b, rfl, ha, hb⟩ := h.around
  rw [trim, strip_append_append ha hb, strip_eq_self h.head h.last]

/-- Only a capital letter is changed by lowering it, and then it becomes a small one. -/
theorem toLower_cases (c : Char) :
    c.toLower = c ∨ (65 ≤ c.toNat ∧ c.toNat ≤ 90) ∧ c.toLower.toNat = c.toNat + 32 := by
  unfold Char.toLower
  split
  · rename_i hcapital
    have hlow : 65 ≤ c.toNat := hcapital.1
    have hhigh : c.toNat ≤ 90 := hcapital.2
    have hshift : (c.val + ('a'.val - 'A'.val)).toNat = (c.toNat + 32) % 2 ^ 32 :=
      UInt32.toNat_add c.val 32
    refine .inr ⟨⟨hlow, hhigh⟩, ?_⟩
    show (c.val + ('a'.val - 'A'.val)).toNat = c.toNat + 32
    rw [hshift]
    omega
  · exact .inl rfl

theorem isBlank_toLower (c : Char) : isBlank c.toLower = isBlank c := by
  rcases toLower_cases c with heq | ⟨⟨hlow, hhigh⟩, hlower⟩
  · rw [heq]
  · have hcapital : isBlank c = false := isBlank_of_visible (by omega) (by omega)
    have hsmall : isBlank c.toLower = false := isBlank_of_visible (by omega) (by omega)
    rw [hcapital, hsmall]

theorem trim_map_toLower (text : List Char) :
    trim (text.map Char.toLower) = (trim text).map Char.toLower := by
  have hblank : isBlank ∘ Char.toLower = isBlank := funext isBlank_toLower
  rw [trim, strip, List.dropWhile_map, hblank, ← List.map_reverse, List.dropWhile_map, hblank,
    ← List.map_reverse]
  rfl

/-- Letter case makes no difference to what is trimmed. -/
theorem sameLetters_trim {a b : List Char} (h : sameLetters a b = true) (text : List Char) :
    sameLetters (trim a) text = sameLetters (trim b) text := by
  have hmap : a.map Char.toLower = b.map Char.toLower := eq_of_beq h
  rw [sameLetters, sameLetters, ← trim_map_toLower, ← trim_map_toLower, hmap]

/-- Letter case makes no difference to where a colon stands. -/
theorem colon_not_mem_of_sameLetters {a b : List Char} (h : sameLetters a b = true)
    (ha : ':' ∉ a) : ':' ∉ b := by
  have hmap : a.map Char.toLower = b.map Char.toLower := eq_of_beq h
  intro hb
  have hmem : ':' ∈ a.map Char.toLower := by
    rw [hmap]
    exact List.mem_map.mpr ⟨':', hb, by decide⟩
  obtain ⟨c, hc, hlower⟩ := List.mem_map.mp hmem
  rcases toLower_cases c with heq | ⟨⟨hlow, -⟩, hletter⟩
  · exact ha (by rwa [← hlower, heq])
  · rw [hlower] at hletter
    have hcolon : ':'.toNat = 58 := rfl
    omega

end TermLint.Text

namespace TermLint.Frame

open Text (Trimmed sameLetters isBlank)

/-! ## Length lines -/

/-- A line that gives a value for the length: what stands before its first colon is the length key,
up to the case of letters and the blanks around it, and the value is the rest without the blanks
around it. -/
inductive LengthLine : List Char → List Char → Prop
  | of_key {key name rest value : List Char} (no_colon : ':' ∉ key) (named : Trimmed key name)
      (same : sameLetters name lengthKey.toList = true) (valued : Trimmed rest value) :
      LengthLine (key ++ ':' :: rest) value

/-- A line that gives no value. -/
def Silent (line : List Char) : Prop :=
  ∀ value, ¬ LengthLine line value

variable {line key value : List Char}

theorem lengthText?_eq_some_iff : lengthText? line = some value ↔ LengthLine line value := by
  constructor
  · intro h
    obtain ⟨key, rest, rfl, hkey⟩ := List.eq_append_cons_of_mem (colon_mem_of_lengthText? h)
    rw [lengthText?_colon hkey] at h
    split at h
    · rename_i hsame
      cases h
      exact .of_key hkey (Text.trimmed_trim key) hsame (Text.trimmed_trim rest)
    · cases h
  · rintro ⟨hkey, hnamed, hsame, hvalued⟩
    rw [lengthText?_colon hkey, hnamed.trim_eq, hsame, if_pos rfl, hvalued.trim_eq]

theorem lengthText?_eq_none_iff : lengthText? line = none ↔ Silent line := by
  rw [Option.eq_none_iff_forall_ne_some]
  exact forall_congr' fun value => not_congr lengthText?_eq_some_iff

instance (line : List Char) : Decidable (Silent line) :=
  decidable_of_iff _ lengthText?_eq_none_iff

/-! ## Numbers -/

/-- The number that decimal digits write, the last one being that of the ones. -/
def decimal (digits : List Char) : Nat :=
  Nat.ofDigits 10 (digits.reverse.map fun c => c.toNat - '0'.toNat)

theorem naturalOf_eq_decimal (digits : List Char) : Text.naturalOf digits = decimal digits := by
  induction digits using List.reverseRecOn with
  | nil => rfl
  | append_singleton digits c ih =>
    have hlast : Text.naturalOf (digits ++ [c]) =
        10 * Text.naturalOf digits + (c.toNat - '0'.toNat) := by
      rw [Text.naturalOf, List.foldl_append]
      rfl
    rw [hlast, ih, decimal, decimal, List.reverse_concat, List.map_cons, Nat.ofDigits_cons]
    omega

/-- A text that writes a number below 2 ^ 64: decimal digits, with or without a plus sign. -/
inductive Numeral : List Char → Nat → Prop
  | of_digits {sign digits : List Char} (sign_eq : sign = [] ∨ sign = ['+'])
      (digits_ne : digits ≠ []) (all_digits : ∀ c ∈ digits, c.isDigit = true)
      (lt : decimal digits < 2 ^ 64) : Numeral (sign ++ digits) (decimal digits)

theorem numeral_iff {text : List Char} {n : Nat} :
    Numeral text n ↔
      ∃ sign digits, text = sign ++ digits ∧ (sign = [] ∨ sign = ['+']) ∧
        (if digits ≠ [] ∧ digits.all Char.isDigit ∧ Text.naturalOf digits < UInt64.size then
          some (Text.naturalOf digits)
        else none) = some n := by
  simp only [Option.ite_none_right_eq_some, List.all_eq_true, naturalOf_eq_decimal,
    Option.some.injEq]
  constructor
  · rintro ⟨hsign, hne, hall, hlt⟩
    exact ⟨_, _, rfl, hsign, ⟨hne, hall, hlt⟩, rfl⟩
  · rintro ⟨sign, digits, rfl, hsign, ⟨hne, hall, hlt⟩, rfl⟩
    exact .of_digits hsign hne hall hlt

/-- Without a plus sign, all of a text is taken for digits. -/
theorem lengthValue?_of_head {text : List Char} (h : text.head? ≠ some '+') :
    lengthValue? text =
      if text ≠ [] ∧ text.all Char.isDigit ∧ Text.naturalOf text < UInt64.size then
        some (Text.naturalOf text)
      else none := by
  unfold lengthValue?
  split
  · exact absurd rfl h
  · simp only

theorem lengthValue?_eq_some_iff {text : List Char} {n : Nat} :
    lengthValue? text = some n ↔ Numeral text n := by
  rw [numeral_iff]
  constructor
  · intro h
    by_cases hplus : text.head? = some '+'
    · obtain ⟨digits, rfl⟩ := List.head?_eq_some_iff.mp hplus
      exact ⟨['+'], digits, rfl, .inr rfl, h⟩
    · rw [lengthValue?_of_head hplus] at h
      exact ⟨[], text, rfl, .inl rfl, h⟩
  · rintro ⟨sign, digits, rfl, rfl | rfl, h⟩
    · have hplus : digits.head? ≠ some '+' := by
        -- a plus sign is no digit
        intro hplus
        obtain ⟨more, rfl⟩ := List.head?_eq_some_iff.mp hplus
        cases h
      rw [List.nil_append, lengthValue?_of_head hplus, h]
    · exact h

/-! ## The rule -/

/-- A line whose value, if it gives one, is a number. -/
def Sound (line : List Char) : Prop :=
  ∀ value, LengthLine line value → ∃ n, Numeral value n

/-- What the lines of a header declare. -/
inductive Declares (all : List (List Char)) : Except FramingFault Nat → Prop
  /-- The first value that is no number is a fault. -/
  | bad {before after : List (List Char)} {line value : List Char}
      (all_eq : all = before ++ line :: after) (earlier : ∀ other ∈ before, Sound other)
      (here : LengthLine line value) (no_number : ∀ n, ¬ Numeral value n) :
      Declares all (.error (.badLength (String.ofList value)))
  /-- When all values are numbers, the last one counts. -/
  | last {before after : List (List Char)} {line value : List Char} {n : Nat}
      (all_eq : all = before ++ line :: after) (sound : ∀ other ∈ all, Sound other)
      (here : LengthLine line value) (number : Numeral value n)
      (later : ∀ other ∈ after, Silent other) : Declares all (.ok n)
  /-- When no line gives a value, the length is missing. -/
  | missing (silent : ∀ other ∈ all, Silent other) : Declares all (.error .noLength)

variable {all before : List (List Char)}

/-- The lines of every header declare something. -/
theorem exists_declares (all : List (List Char)) : ∃ result, Declares all result := by
  obtain ⟨before, rest, hall, hsound, hbad⟩ := Text.exists_run Sound all
  cases rest with
  | cons line after =>
    have hline : ¬ Sound line := hbad line rfl
    simp only [Sound, not_forall, not_exists] at hline
    obtain ⟨value, hvalue, hnumber⟩ := hline
    exact ⟨_, .bad hall hsound hvalue hnumber⟩
  | nil =>
    rw [List.append_nil] at hall
    subst hall
    -- all lines are sound, and the last one that is not silent is the first one from the end
    obtain ⟨later, rest, hrest, hsilent, hgives⟩ := Text.exists_run Silent all.reverse
    cases rest with
    | nil =>
      rw [List.append_nil] at hrest
      refine ⟨_, .missing fun other hother => hsilent other ?_⟩
      rw [← hrest]
      exact List.mem_reverse.mpr hother
    | cons line earlier =>
      have hline : ¬ Silent line := hgives line rfl
      simp only [Silent, not_forall, not_not] at hline
      obtain ⟨value, hvalue⟩ := hline
      have hall : all = earlier.reverse ++ line :: later.reverse := by
        rw [← List.reverse_reverse all, hrest]
        simp
      have hmem : line ∈ all := by
        rw [hall]
        exact List.mem_append_right _ List.mem_cons_self
      obtain ⟨n, hnumber⟩ := hsound line hmem value hvalue
      exact ⟨_, .last hall hsound hvalue hnumber fun other hother =>
        hsilent other (List.mem_reverse.mp hother)⟩

/-! ## Reading the lines -/

/-- A line that gives a number replaces what was found before it. -/
theorem lengthFrom_cons_of_number {n : Nat} (hline : LengthLine line value)
    (hnumber : Numeral value n) (found : Option Nat) (rest : List (List Char)) :
    lengthFrom found (line :: rest) = lengthFrom (some n) rest := by
  have htext := lengthText?_eq_some_iff.mpr hline
  have hvalue := lengthValue?_eq_some_iff.mpr hnumber
  simp only [lengthFrom, htext, hvalue]

theorem lengthFrom_cons_of_bad (hline : LengthLine line value) (hbad : ∀ n, ¬ Numeral value n)
    (found : Option Nat) (rest : List (List Char)) :
    lengthFrom found (line :: rest) = .error (.badLength (String.ofList value)) := by
  have htext := lengthText?_eq_some_iff.mpr hline
  have hvalue : lengthValue? value = none :=
    Option.eq_none_iff_forall_ne_some.mpr fun n hn => hbad n (lengthValue?_eq_some_iff.mp hn)
  simp only [lengthFrom, htext, hvalue]

theorem lengthFrom_cons_of_silent (hline : Silent line) (found : Option Nat)
    (rest : List (List Char)) : lengthFrom found (line :: rest) = lengthFrom found rest := by
  have htext := lengthText?_eq_none_iff.mpr hline
  simp only [lengthFrom, htext]

theorem lengthFrom_of_silent (h : ∀ line ∈ all, Silent line) (found : Option Nat) :
    lengthFrom found all = lengthFrom found [] := by
  induction all with
  | nil => rfl
  | cons line all ih =>
    rw [lengthFrom_cons_of_silent (h line List.mem_cons_self),
      ih fun other hother => h other (List.mem_cons_of_mem _ hother)]

/-- Sound lines are passed, whatever follows them. -/
theorem exists_lengthFrom_append (h : ∀ line ∈ before, Sound line) (found : Option Nat) :
    ∃ found', ∀ rest, lengthFrom found (before ++ rest) = lengthFrom found' rest := by
  induction before generalizing found with
  | nil => exact ⟨found, fun rest => rfl⟩
  | cons line before ih =>
    have ih := ih fun other hother => h other (List.mem_cons_of_mem _ hother)
    by_cases hsilent : Silent line
    · obtain ⟨found', hfound'⟩ := ih found
      refine ⟨found', fun rest => ?_⟩
      rw [List.cons_append, lengthFrom_cons_of_silent hsilent, hfound']
    · simp only [Silent, not_forall, not_not] at hsilent
      obtain ⟨value, hvalue⟩ := hsilent
      obtain ⟨n, hnumber⟩ := h line List.mem_cons_self value hvalue
      obtain ⟨found', hfound'⟩ := ih (some n)
      refine ⟨found', fun rest => ?_⟩
      rw [List.cons_append, lengthFrom_cons_of_number hvalue hnumber, hfound']

/-- The lines of a header are read as the rule says. -/
theorem Declares.lengthFrom_eq {result : Except FramingFault Nat} (h : Declares all result) :
    lengthFrom none all = result := by
  cases h with
  | bad all_eq earlier here no_number =>
    obtain ⟨found, hfound⟩ := exists_lengthFrom_append earlier none
    rw [all_eq, hfound, lengthFrom_cons_of_bad here no_number]
  | last all_eq sound here number later =>
    rw [all_eq] at sound ⊢
    obtain ⟨found, hfound⟩ := exists_lengthFrom_append
      (fun line hline => sound line (List.mem_append_left _ hline)) none
    rw [hfound, lengthFrom_cons_of_number here number, lengthFrom_of_silent later]
    rfl
  | missing silent =>
    rw [lengthFrom_of_silent silent]
    rfl

theorem bodyLength_eq_iff {header : List Char} {result : Except FramingFault Nat} :
    bodyLength header = result ↔ Declares (Text.lines header) result := by
  constructor
  · rintro rfl
    obtain ⟨result, hresult⟩ := exists_declares (Text.lines header)
    rwa [bodyLength, hresult.lengthFrom_eq]
  · exact Declares.lengthFrom_eq

/-! ## Edits without effect -/

/-- A change to the lines of a header that leaves what they declare alone. -/
inductive Edit : List (List Char) → List (List Char) → Prop
  /-- A silent line is put in. -/
  | insert (before after : List (List Char)) {line : List Char} (silent : Silent line) :
      Edit (before ++ after) (before ++ line :: after)
  /-- A silent line is moved past other lines. -/
  | move (before between after : List (List Char)) {line : List Char} (silent : Silent line) :
      Edit (before ++ line :: between ++ after) (before ++ between ++ line :: after)
  /-- Letters of a key change their case. -/
  | recase (before after : List (List Char)) (rest : List Char) {key other : List Char}
      (no_colon : ':' ∉ key) (same : sameLetters key other = true) :
      Edit (before ++ (key ++ ':' :: rest) :: after) (before ++ (other ++ ':' :: rest) :: after)
  /-- Blanks are put around a key and around its value. -/
  | pad (before after : List (List Char)) (rest : List Char) {a key b c d : List Char}
      (no_colon : ':' ∉ key)
      (blank_a : ∀ x ∈ a, isBlank x = true) (blank_b : ∀ x ∈ b, isBlank x = true)
      (blank_c : ∀ x ∈ c, isBlank x = true) (blank_d : ∀ x ∈ d, isBlank x = true) :
      Edit (before ++ (key ++ ':' :: rest) :: after)
        (before ++ (a ++ key ++ b ++ ':' :: (c ++ rest ++ d)) :: after)

/-- A key may be written in other letters. -/
theorem lengthText?_recase {other rest : List Char} (hkey : ':' ∉ key)
    (hsame : sameLetters key other = true) :
    lengthText? (other ++ ':' :: rest) = lengthText? (key ++ ':' :: rest) := by
  have hother : ':' ∉ other := Text.colon_not_mem_of_sameLetters hsame hkey
  rw [lengthText?_colon hkey, lengthText?_colon hother, Text.sameLetters_trim hsame]

/-- An edit leaves the values of the lines as they are. -/
theorem Edit.filterMap_eq {all other : List (List Char)} (h : Edit all other) :
    all.filterMap lengthText? = other.filterMap lengthText? := by
  cases h with
  | insert before after silent =>
    have hnone := lengthText?_eq_none_iff.mpr silent
    rw [List.filterMap_append, List.filterMap_append, List.filterMap_cons_none hnone]
  | move before between after silent =>
    have hnone := lengthText?_eq_none_iff.mpr silent
    simp only [List.filterMap_append, List.filterMap_cons_none hnone, List.append_assoc]
  | recase before after rest no_colon same =>
    simp only [List.filterMap_append, List.filterMap_cons, lengthText?_recase no_colon same]
  | pad before after rest no_colon blank_a blank_b blank_c blank_d =>
    simp only [List.filterMap_append, List.filterMap_cons,
      lengthText?_pad_colon no_colon blank_a blank_b blank_c blank_d]

theorem filterMap_eq_of_edits {all other : List (List Char)} (h : Relation.EqvGen Edit all other) :
    all.filterMap lengthText? = other.filterMap lengthText? := by
  induction h with
  | rel all other hedit => exact hedit.filterMap_eq
  | refl all => rfl
  | symm all other _ ih => exact ih.symm
  | trans all middle other _ _ ihleft ihright => exact ihleft.trans ihright

/-- The length of a body is what the length lines of the header declare.  Edits of other lines, of
the case of letters and of blanks have no effect, whether the carriage return before a line feed
counts to the line or to its end.  A written header declares the length of the body, as long as
that is a word of 64 bits. -/
theorem bodyLength_declared :
    (∀ header result, bodyLength header = result ↔ Declares (Text.lines header) result) ∧
    (∀ header other, Relation.EqvGen Edit (Text.lines header) (Text.lines other) →
      bodyLength other = bodyLength header) ∧
    (∀ header other, Relation.EqvGen Edit (header.splitOn '\n') (other.splitOn '\n') →
      bodyLength other = bodyLength header) ∧
    (∀ v, halves? (encode v) =
      some (headerOf (Json.render v).utf8ByteSize, (Json.render v).toList)) ∧
    ∀ n, n < 2 ^ 64 → bodyLength (headerOf n) = .ok n := by
  refine ⟨fun header result => bodyLength_eq_iff, ?_, ?_, fun v => halves?_wrap (Json.render v), ?_⟩
  · intro header other hedits
    rw [bodyLength, bodyLength, lengthFrom_eq, lengthFrom_eq, filterMap_eq_of_edits hedits]
  · intro header other hedits
    rw [← Text.pieces_eq_splitOn, ← Text.pieces_eq_splitOn] at hedits
    rw [bodyLength_eq, bodyLength_eq, filterMap_eq_of_edits hedits]
  · intro n hn
    have hword : n < UInt64.size := hn
    rw [bodyLength_headerOf, if_pos hword]

/-- A silent line is put in, the key is written in other letters, and blanks are put around it and
around its value. -/
theorem bodyLength_declared_respelled :
    Relation.EqvGen Edit (Text.lines "Content-Length:+0042".toList)
      (Text.lines "Content-Type: a:b\r\n cONTENT-length\t: +0042\u00a0\r".toList) ∧
    bodyLength "Content-Type: a:b\r\n cONTENT-length\t: +0042\u00a0\r".toList =
      bodyLength "Content-Length:+0042".toList ∧
    Declares (Text.lines "Content-Length:+0042".toList) (.ok 42) ∧
    bodyLength (headerOf 18446744073709551615) = .ok 18446744073709551615 := by
  obtain ⟨hrule, hlines, -, -, hwritten⟩ := bodyLength_declared
  have hedits : Relation.EqvGen Edit (Text.lines "Content-Length:+0042".toList)
      (Text.lines "Content-Type: a:b\r\n cONTENT-length\t: +0042\u00a0\r".toList) := by
    have hinsert : Edit ["Content-Length:+0042".toList]
        ["Content-Type: a:b".toList, "Content-Length:+0042".toList] :=
      .insert [] ["Content-Length:+0042".toList] (by decide)
    have hrecase : Edit
        ["Content-Type: a:b".toList, "Content-Length".toList ++ ':' :: "+0042".toList]
        ["Content-Type: a:b".toList, "cONTENT-length".toList ++ ':' :: "+0042".toList] :=
      .recase ["Content-Type: a:b".toList] [] "+0042".toList (by decide) (by decide)
    have hpad : Edit
        ["Content-Type: a:b".toList, "cONTENT-length".toList ++ ':' :: "+0042".toList]
        ["Content-Type: a:b".toList,
          " ".toList ++ "cONTENT-length".toList ++ "\t".toList ++
            ':' :: (" ".toList ++ "+0042".toList ++ "\u00a0\r".toList)] :=
      .pad ["Content-Type: a:b".toList] [] "+0042".toList (by decide)
        (List.all_eq_true.mp rfl) (List.all_eq_true.mp rfl) (List.all_eq_true.mp rfl)
        (List.all_eq_true.mp rfl)
    exact .trans _ _ _ (.trans _ _ _ (.rel _ _ hinsert) (.rel _ _ hrecase)) (.rel _ _ hpad)
  exact ⟨hedits, hlines _ _ hedits, (hrule _ _).mp (by decide), hwritten _ (by decide)⟩

end TermLint.Frame

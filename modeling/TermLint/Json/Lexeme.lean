/-
  TermLint.Json.Lexeme

  The leaves of the grammar: blanks, the words `null`, `true` and `false`, strings
  and numbers.  Each function takes one of them from the front of a text and gives
  what it stands for with the text after it; the lemmas say that something is
  always taken.  A number that is no integer of 64 bits is read as a significand of
  64 bits and a power of ten, which may miss the nearest real by a little.
-/

import TermLint.Json.Fault
import TermLint.Text.Digits

namespace TermLint.Json

open Decimal (Binary64)
open Text (hexDigit? naturalOf)

/-- The result of taking an `α` from the front of a text. -/
abbrev Taken (α : Type) := Except Fault (α × List Char)

/-! ## Blanks and words -/

/-- The four blanks that may stand between two lexemes. -/
def isBlank (c : Char) : Bool :=
  c == ' ' || c == '\n' || c == '\t' || c == '\r'

/-- The text from the first character that is not blank. -/
def skipBlanks (s : List Char) : List Char :=
  s.dropWhile isBlank

/-- The text after the letters of a word. -/
def word : List Char → List Char → Except Fault (List Char)
  | [], s => .ok s
  | _ :: _, [] => .error (.unfinished .value)
  | letter :: letters, c :: s =>
    if c = letter then word letters s else .error (.malformed .expectedWord)

/-! ## Strings -/

/-- The number of bytes of a text. -/
def byteCount (s : List Char) : Nat :=
  s.foldl (fun n c => n + c.utf8Size) 0

/-- The number that four hexadecimal digits write.  When fewer than four bytes are left the text
has ended too early, whatever they are. -/
def hexQuad : List Char → Taken Nat
  | a :: b :: c :: d :: rest =>
    match hexDigit? a, hexDigit? b, hexDigit? c, hexDigit? d with
    | some a, some b, some c, some d => .ok (((a * 16 + b) * 16 + c) * 16 + d, rest)
    | _, _, _, _ => .error (.malformed .invalidEscape)
  | s =>
    if byteCount s < 4 then .error (.unfinished .string) else .error (.malformed .invalidEscape)

/-- The character that a leading and a trailing surrogate stand for. -/
def surrogatePair (high low : Nat) : Char :=
  Char.ofNat (0x10000 + (high - 0xD800) * 0x400 + (low - 0xDC00))

/-- The second half of a pair of escapes, after a leading surrogate. -/
def trailingSurrogate (high : Nat) : List Char → Taken Char
  | [] => .error (.unfinished .string)
  | ['\\'] => .error (.unfinished .string)
  | '\\' :: 'u' :: s =>
    match hexQuad s with
    | .error e => .error e
    | .ok (low, rest) =>
      if 0xDC00 ≤ low ∧ low ≤ 0xDFFF then .ok (surrogatePair high low, rest)
      else .error (.malformed .loneSurrogate)
  | _ => .error (.malformed .unpairedSurrogate)

/-- The character of a `u` escape, given what follows the letter. -/
def unicodeEscape (s : List Char) : Taken Char :=
  match hexQuad s with
  | .error e => .error e
  | .ok (unit, rest) =>
    if 0xDC00 ≤ unit ∧ unit ≤ 0xDFFF then .error (.malformed .loneSurrogate)
    else if 0xD800 ≤ unit ∧ unit ≤ 0xDBFF then trailingSurrogate unit rest
    else .ok (Char.ofNat unit, rest)

/-- The character of a one-letter escape. -/
def letterEscape? (c : Char) : Option Char :=
  match c with
  | '"' => some '"'
  | '\\' => some '\\'
  | '/' => some '/'
  | 'b' => some '\x08'
  | 'f' => some '\x0c'
  | 'n' => some '\n'
  | 'r' => some '\r'
  | 't' => some '\t'
  | _ => none

/-- The character of an escape, given what follows the backslash. -/
def escape : List Char → Taken Char
  | [] => .error (.unfinished .string)
  | c :: s =>
    if c = 'u' then unicodeEscape s
    else
      match letterEscape? c with
      | some c => .ok (c, s)
      | none => .error (.malformed .invalidEscape)

/-- An escape in a string that is not kept: a `u` escape needs its digits and no more. -/
def passEscape : List Char → Except Fault (List Char)
  | [] => .error (.unfinished .string)
  | c :: s =>
    if c = 'u' then
      match hexQuad s with
      | .error e => .error e
      | .ok (_, rest) => .ok rest
    else if (letterEscape? c).isSome then .ok s
    else .error (.malformed .invalidEscape)

theorem hexQuad_lt {s rest : List Char} {n : Nat} (h : hexQuad s = .ok (n, rest)) :
    rest.length < s.length := by
  unfold hexQuad at h
  split at h
  · split at h
    · simp only [Except.ok.injEq, Prod.mk.injEq] at h
      simp only [← h.2, List.length_cons]
      omega
    · cases h
  · split at h <;> cases h

theorem trailingSurrogate_lt {high : Nat} {s rest : List Char} {c : Char}
    (h : trailingSurrogate high s = .ok (c, rest)) : rest.length < s.length := by
  unfold trailingSurrogate at h
  split at h
  · cases h
  · cases h
  · split at h
    · cases h
    · rename_i hq
      have hlt := hexQuad_lt hq
      split at h
      · simp only [Except.ok.injEq, Prod.mk.injEq] at h
        simp only [← h.2, List.length_cons]
        omega
      · cases h
  · cases h

theorem unicodeEscape_lt {s rest : List Char} {c : Char} (h : unicodeEscape s = .ok (c, rest)) :
    rest.length < s.length := by
  unfold unicodeEscape at h
  split at h
  · cases h
  · rename_i hq
    have hlt := hexQuad_lt hq
    split at h
    · cases h
    · split at h
      · exact Nat.lt_trans (trailingSurrogate_lt h) hlt
      · simp only [Except.ok.injEq, Prod.mk.injEq] at h
        exact h.2 ▸ hlt

theorem escape_lt {s rest : List Char} {c : Char} (h : escape s = .ok (c, rest)) :
    rest.length < s.length := by
  cases s with
  | nil => cases h
  | cons d s =>
    rw [escape] at h
    split at h
    · exact Nat.lt_succ_of_lt (unicodeEscape_lt h)
    · split at h
      · simp only [Except.ok.injEq, Prod.mk.injEq] at h
        simp [← h.2]
      · cases h

theorem passEscape_lt {s rest : List Char} (h : passEscape s = .ok rest) :
    rest.length < s.length := by
  cases s with
  | nil => cases h
  | cons d s =>
    rw [passEscape] at h
    split at h
    · split at h
      · cases h
      · rename_i hq
        simp only [Except.ok.injEq] at h
        exact h ▸ Nat.lt_succ_of_lt (hexQuad_lt hq)
    · split at h
      · simp only [Except.ok.injEq] at h
        simp [← h]
      · cases h

/-- The rest of a string after its opening quote, given the characters already read in reverse. -/
def stringFrom (read : List Char) (s : List Char) : Taken String :=
  match s with
  | [] => .error (.unfinished .string)
  | c :: s =>
    if c = '"' then .ok (String.ofList read.reverse, s)
    else if c = '\\' then
      match h : escape s with
      | .error e => .error e
      | .ok (c, rest) =>
        have := escape_lt h
        stringFrom (c :: read) rest
    else if c < ' ' then .error (.malformed .controlCharacter)
    else stringFrom (c :: read) s
termination_by s.length
decreasing_by all_goals simp_wf <;> omega

/-- The text after a string that is not kept, given what follows its opening quote. -/
def passString (s : List Char) : Except Fault (List Char) :=
  match s with
  | [] => .error (.unfinished .string)
  | c :: s =>
    if c = '"' then .ok s
    else if c = '\\' then
      match h : passEscape s with
      | .error e => .error e
      | .ok rest =>
        have := passEscape_lt h
        passString rest
    else if c < ' ' then .error (.malformed .controlCharacter)
    else passString s
termination_by s.length
decreasing_by all_goals simp_wf <;> omega

theorem stringFrom_lt {read s rest : List Char} {text : String}
    (h : stringFrom read s = .ok (text, rest)) : rest.length < s.length := by
  fun_induction stringFrom read s with
  | case1 => cases h
  | case2 read s => simp only [Except.ok.injEq, Prod.mk.injEq] at h; simp [← h.2]
  | case3 => cases h
  | case4 read s _ c' rest' he hlt ih =>
    have := ih h
    simp only [List.length_cons]
    omega
  | case5 => cases h
  | case6 read c s _ _ _ ih =>
    have := ih h
    simp only [List.length_cons]
    omega

theorem passString_lt {s rest : List Char} (h : passString s = .ok rest) :
    rest.length < s.length := by
  fun_induction passString s with
  | case1 => cases h
  | case2 s => simp only [Except.ok.injEq] at h; simp [← h]
  | case3 => cases h
  | case4 s _ rest' he hlt ih =>
    have := ih h
    simp only [List.length_cons]
    omega
  | case5 => cases h
  | case6 c s _ _ _ ih =>
    have := ih h
    simp only [List.length_cons]
    omega

/-! ## Numbers -/

/-- The significand after the digits that it has room for, and the digits from the first one on for
which 64 bits do not suffice. -/
def absorb (significand : Nat) : List Char → Nat × List Char
  | [] => (significand, [])
  | c :: digits =>
    let next := 10 * significand + (c.toNat - 48)
    if next < UInt64.size then absorb next digits else (significand, c :: digits)

/-- The real that stands for the digits before and after a point and a power of ten; it must be
finite.  A digit without room counts as a place before the point and not at all after it. -/
def realNumber (negative : Bool) (whole fraction : List Char) (power : Int) :
    Except Fault Number :=
  let (leading, dropped) := absorb 0 whole
  let (significand, ignored) := absorb leading fraction
  let places : Int := fraction.length - ignored.length
  match Binary64.ofParts negative significand (power + dropped.length - places) with
  | .infinite _ => .error (.malformed .numberOutOfRange)
  | x => .ok (.real x)

/-- An integer that fits 64 bits, signed or unsigned, stays one; any other, and a negative zero,
becomes a real. -/
def integerNumber (negative : Bool) (digits : List Char) : Except Fault Number :=
  let magnitude := naturalOf digits
  if negative = false ∧ magnitude < UInt64.size then .ok (.int magnitude)
  else if negative = true ∧ 0 < magnitude ∧ Int64.minValue.toInt ≤ -magnitude then
    .ok (.int (-magnitude))
  else realNumber negative digits [] 0

/-- A sign that may stand before the digits of a power of ten, and whether it is a minus. -/
def splitSign : List Char → Bool × List Char
  | '-' :: s => (true, s)
  | '+' :: s => (false, s)
  | s => (false, s)

/-- The digits of a power of ten. -/
def powerDigits (negative : Bool) (s : List Char) : Taken Int :=
  match s with
  | [] => .error (.unfinished .value)
  | c :: t =>
    if c.isDigit then
      let magnitude : Int := naturalOf (c :: t.takeWhile Char.isDigit)
      .ok (if negative then -magnitude else magnitude, t.dropWhile Char.isDigit)
    else .error (.malformed .invalidNumber)

/-- The sign and digits of a power of ten, given what follows its mark. -/
def power (s : List Char) : Taken Int :=
  powerDigits (splitSign s).1 (splitSign s).2

/-- A mark of a power of ten. -/
def isPowerMark (c : Char) : Bool := c == 'e' || c == 'E'

/-- A number without point or power of ten, before `rest`. -/
def plainNumber (negative : Bool) (whole rest : List Char) : Taken Number :=
  match integerNumber negative whole with
  | .error e => .error e
  | .ok n => .ok (n, rest)

/-- A number with a point or a power of ten, before `rest`. -/
def pointNumber (negative : Bool) (whole fraction : List Char) (power : Int) (rest : List Char) :
    Taken Number :=
  match realNumber negative whole fraction power with
  | .error e => .error e
  | .ok n => .ok (n, rest)

/-- The rest of a number after its last digit before the power of ten: `whole` and `fraction` are
the digits before and after the point. -/
def scaledNumber (negative : Bool) (whole fraction : List Char) : List Char → Taken Number
  | [] => pointNumber negative whole fraction 0 []
  | c :: t =>
    if isPowerMark c then
      match power t with
      | .error e => .error e
      | .ok (p, rest) => pointNumber negative whole fraction p rest
    else pointNumber negative whole fraction 0 (c :: t)

/-- The digits after a point and what follows them. -/
def fraction (negative : Bool) (whole : List Char) : List Char → Taken Number
  | [] => .error (.unfinished .value)
  | d :: t =>
    if d.isDigit then
      scaledNumber negative whole (d :: t.takeWhile Char.isDigit) (t.dropWhile Char.isDigit)
    else .error (.malformed .invalidNumber)

/-- The rest of a number after the digits before its point. -/
def fractionNumber (negative : Bool) (whole : List Char) : List Char → Taken Number
  | [] => plainNumber negative whole []
  | c :: t =>
    if c = '.' then fraction negative whole t
    else if isPowerMark c then scaledNumber negative whole [] (c :: t)
    else plainNumber negative whole (c :: t)

/-- Whether a text starts with a decimal digit. -/
def startsDigit : List Char → Bool
  | [] => false
  | c :: _ => c.isDigit

/-- A number after its sign. -/
def unsignedNumber (negative : Bool) : List Char → Taken Number
  | [] => .error (.unfinished .value)
  | c :: t =>
    if c = '0' then
      if startsDigit t then .error (.malformed .invalidNumber)
      else fractionNumber negative [c] t
    else if c.isDigit then
      fractionNumber negative (c :: t.takeWhile Char.isDigit) (t.dropWhile Char.isDigit)
    else .error (.malformed .invalidNumber)

/-- Whether a number starts with this character. -/
def startsNumber (c : Char) : Bool := c == '-' || c.isDigit

/-- A number, given the text from its first character. -/
def number : List Char → Taken Number
  | '-' :: s => unsignedNumber true s
  | s => unsignedNumber false s

/-! ### Something is always taken -/

theorem length_skipBlanks_le (s : List Char) : (skipBlanks s).length ≤ s.length :=
  (List.dropWhile_sublist _).length_le

theorem word_le {letters s rest : List Char} (h : word letters s = .ok rest) :
    rest.length ≤ s.length := by
  induction letters generalizing s with
  | nil => simp only [word, Except.ok.injEq] at h; exact h ▸ Nat.le_refl _
  | cons letter letters ih =>
    cases s with
    | nil => cases h
    | cons c s =>
      rw [word] at h
      split at h
      · exact Nat.le_succ_of_le (ih h)
      · cases h

theorem splitSign_le (s : List Char) : (splitSign s).2.length ≤ s.length := by
  unfold splitSign
  split <;> simp

theorem powerDigits_lt {negative : Bool} {s rest : List Char} {p : Int}
    (h : powerDigits negative s = .ok (p, rest)) : rest.length < s.length := by
  cases s with
  | nil => cases h
  | cons c t =>
    rw [powerDigits] at h
    split at h
    · simp only [Except.ok.injEq, Prod.mk.injEq] at h
      exact h.2 ▸ Nat.lt_succ_of_le (List.dropWhile_sublist _).length_le
    · cases h

theorem power_lt {s rest : List Char} {p : Int} (h : power s = .ok (p, rest)) :
    rest.length < s.length :=
  Nat.lt_of_lt_of_le (powerDigits_lt h) (splitSign_le s)

theorem plainNumber_rest {negative : Bool} {whole s rest : List Char} {n : Number}
    (h : plainNumber negative whole s = .ok (n, rest)) : rest = s := by
  unfold plainNumber at h
  split at h
  · cases h
  · simp only [Except.ok.injEq, Prod.mk.injEq] at h
    exact h.2.symm

theorem pointNumber_rest {negative : Bool} {whole fraction s rest : List Char} {p : Int}
    {n : Number} (h : pointNumber negative whole fraction p s = .ok (n, rest)) : rest = s := by
  unfold pointNumber at h
  split at h
  · cases h
  · simp only [Except.ok.injEq, Prod.mk.injEq] at h
    exact h.2.symm

theorem scaledNumber_le {negative : Bool} {whole fraction s rest : List Char} {n : Number}
    (h : scaledNumber negative whole fraction s = .ok (n, rest)) : rest.length ≤ s.length := by
  cases s with
  | nil => exact pointNumber_rest h ▸ Nat.le_refl _
  | cons c t =>
    rw [scaledNumber] at h
    split at h
    · split at h
      · cases h
      · rename_i hp
        rw [pointNumber_rest h]
        exact Nat.le_succ_of_le (Nat.le_of_lt (power_lt hp))
    · exact pointNumber_rest h ▸ Nat.le_refl _

theorem fraction_lt {negative : Bool} {whole s rest : List Char} {n : Number}
    (h : fraction negative whole s = .ok (n, rest)) : rest.length < s.length := by
  cases s with
  | nil => cases h
  | cons d t =>
    rw [fraction] at h
    split at h
    · exact Nat.lt_succ_of_le
        (Nat.le_trans (scaledNumber_le h) (List.dropWhile_sublist _).length_le)
    · cases h

theorem fractionNumber_le {negative : Bool} {whole s rest : List Char} {n : Number}
    (h : fractionNumber negative whole s = .ok (n, rest)) : rest.length ≤ s.length := by
  cases s with
  | nil => exact plainNumber_rest h ▸ Nat.le_refl _
  | cons c t =>
    rw [fractionNumber] at h
    split at h
    · exact Nat.le_succ_of_le (Nat.le_of_lt (fraction_lt h))
    · split at h
      · exact scaledNumber_le h
      · exact plainNumber_rest h ▸ Nat.le_refl _

theorem unsignedNumber_lt {negative : Bool} {s rest : List Char} {n : Number}
    (h : unsignedNumber negative s = .ok (n, rest)) : rest.length < s.length := by
  cases s with
  | nil => cases h
  | cons c t =>
    rw [unsignedNumber] at h
    split at h
    · split at h
      · cases h
      · exact Nat.lt_succ_of_le (fractionNumber_le h)
    · split at h
      · exact Nat.lt_succ_of_le
          (Nat.le_trans (fractionNumber_le h) (List.dropWhile_sublist _).length_le)
      · cases h

theorem number_lt {s rest : List Char} {n : Number} (h : number s = .ok (n, rest)) :
    rest.length < s.length := by
  unfold number at h
  split at h
  · exact Nat.lt_succ_of_lt (unsignedNumber_lt h)
  · exact unsignedNumber_lt h

/-! ### Numbers that are not kept -/

/-- The text after a power of ten, given what follows its sign. -/
def passPower : List Char → Except Fault (List Char)
  | [] => .error (.malformed .invalidNumber)
  | c :: t =>
    if c.isDigit then .ok (t.dropWhile Char.isDigit) else .error (.malformed .invalidNumber)

/-- The text after a power of ten that may follow. -/
def passScale : List Char → Except Fault (List Char)
  | [] => .ok []
  | c :: t => if isPowerMark c then passPower (splitSign t).2 else .ok (c :: t)

/-- The text after a fraction and a power of ten that may follow. -/
def passFraction : List Char → Except Fault (List Char)
  | [] => .ok []
  | c :: t =>
    if c = '.' then
      if startsDigit t then passScale (t.dropWhile Char.isDigit)
      else .error (.malformed .invalidNumber)
    else passScale (c :: t)

/-- The text after a number that is not kept, given what follows its sign.  Its size does not
matter, and a text that ends inside it is an invalid number. -/
def passUnsigned : List Char → Except Fault (List Char)
  | [] => .error (.malformed .invalidNumber)
  | c :: t =>
    if c = '0' then
      if startsDigit t then .error (.malformed .invalidNumber) else passFraction t
    else if c.isDigit then passFraction (t.dropWhile Char.isDigit)
    else .error (.malformed .invalidNumber)

/-- The text after a number that is not kept. -/
def passNumber : List Char → Except Fault (List Char)
  | '-' :: s => passUnsigned s
  | s => passUnsigned s

theorem passPower_le {s rest : List Char} (h : passPower s = .ok rest) :
    rest.length ≤ s.length := by
  cases s with
  | nil => cases h
  | cons c t =>
    rw [passPower] at h
    split at h
    · simp only [Except.ok.injEq] at h
      exact h ▸ Nat.le_succ_of_le (List.dropWhile_sublist _).length_le
    · cases h

theorem passScale_le {s rest : List Char} (h : passScale s = .ok rest) :
    rest.length ≤ s.length := by
  cases s with
  | nil => simp only [passScale, Except.ok.injEq] at h; simp [← h]
  | cons c t =>
    rw [passScale] at h
    split at h
    · exact Nat.le_succ_of_le (Nat.le_trans (passPower_le h) (splitSign_le t))
    · simp only [Except.ok.injEq] at h
      exact h ▸ Nat.le_refl _

theorem passFraction_le {s rest : List Char} (h : passFraction s = .ok rest) :
    rest.length ≤ s.length := by
  cases s with
  | nil => simp only [passFraction, Except.ok.injEq] at h; simp [← h]
  | cons c t =>
    rw [passFraction] at h
    split at h
    · split at h
      · exact Nat.le_succ_of_le
          (Nat.le_trans (passScale_le h) (List.dropWhile_sublist _).length_le)
      · cases h
    · exact passScale_le h

theorem passUnsigned_lt {s rest : List Char} (h : passUnsigned s = .ok rest) :
    rest.length < s.length := by
  cases s with
  | nil => cases h
  | cons c t =>
    rw [passUnsigned] at h
    split at h
    · split at h
      · cases h
      · exact Nat.lt_succ_of_le (passFraction_le h)
    · split at h
      · exact Nat.lt_succ_of_le
          (Nat.le_trans (passFraction_le h) (List.dropWhile_sublist _).length_le)
      · cases h

theorem passNumber_lt {s rest : List Char} (h : passNumber s = .ok rest) :
    rest.length < s.length := by
  unfold passNumber at h
  split at h
  · exact Nat.lt_succ_of_lt (passUnsigned_lt h)
  · exact passUnsigned_lt h

end TermLint.Json

/-
  TermLint.Shape.Basic

  Shapes: how the values of a type are laid out as data.  A shape writes a value as
  data, takes data back, and reads a text directly.  Reading a text reports the
  first problem in the order of the text; taking data reports the first in the
  order in which the data holds its fields.
-/

import TermLint.Json.Tree
import TermLint.Json.Pass
import TermLint.Json.Printer

namespace TermLint

open Text (Reader)
open Json (Fault Taken)
open Shape (Mismatch Found)

/-- How values of `α` are laid out as data. -/
structure Shape (α : Type) where
  /-- The data of a value, its fields in the order in which they are declared. -/
  encode : α → Value
  /-- The value that data holds. -/
  decode : Value → Except Mismatch α
  /-- Reads a value from a text in which at most the given number of lists and objects are
  nested. -/
  read : Nat → Reader Fault α

namespace Shape

variable {α β : Type}

/-! ## Wrong kinds -/

/-- The mismatch of a value of the wrong kind. -/
def wrongKind (expected : String) (v : Value) : Mismatch :=
  .kind (Found.of v) expected

/-- The fault of a word where something else was expected. -/
def unexpectedWord (expected : String) (found : Found) (letters s : List Char) : Fault :=
  match Json.word letters s with
  | .error e => e
  | .ok _ => .mismatch (.kind found expected)

/-- The fault of a text that goes on with something else than was expected.  A scalar is read to
its end first; a list or an object is judged by its opening bracket. -/
def unexpected (expected : String) : List Char → Fault
  | [] => .unfinished .value
  | c :: t =>
    if c = 'n' then unexpectedWord expected .null ['u', 'l', 'l'] t
    else if c = 't' then unexpectedWord expected (.bool true) ['r', 'u', 'e'] t
    else if c = 'f' then unexpectedWord expected (.bool false) ['a', 'l', 's', 'e'] t
    else if c = '"' then
      match Json.stringFrom [] t with
      | .error e => e
      | .ok (text, _) => .mismatch (.kind (.string text) expected)
    else if Json.startsNumber c then
      match Json.number (c :: t) with
      | .error e => e
      | .ok (n, _) => .mismatch (.kind (.number n) expected)
    else if c = '[' then .mismatch (.kind .sequence expected)
    else if c = '\x7b' then .mismatch (.kind .map expected)
    else .malformed .expectedValue

/-! ## Scalars -/

/-- Reads what begins with a character that `starts` accepts, from that character on. -/
def leaf (expected : String) (starts : Char → Bool) (body : Reader Fault α) :
    Reader Fault α where
  run s :=
    match Json.skipBlanks s with
    | [] => .error (.unfinished .value)
    | c :: t => if starts c then body.run (c :: t) else .error (unexpected expected (c :: t))
  shrinks {s a rest} h := by
    split at h
    · cases h
    · rename_i hs
      split at h
      · have hle := Json.length_skipBlanks_le s
        rw [hs] at hle
        exact Nat.lt_of_lt_of_le (body.shrinks h) hle
      · cases h

/-- Reads a string from its opening quote on. -/
def quotedText : Reader Fault String where
  run s :=
    match s with
    | [] => .error (.unfinished .value)
    | _ :: t => Json.stringFrom [] t
  shrinks {s a rest} h := by
    cases s with
    | nil => cases h
    | cons c t => exact Nat.lt_succ_of_lt (Json.stringFrom_lt h)

/-- Texts. -/
def string : Shape String where
  encode text := .string text
  decode v :=
    match v with
    | .string text => .ok text
    | v => .error (wrongKind "a string" v)
  read _ := leaf "a string" (· == '"') quotedText

/-- A number as an integer from `low` to `high`. -/
def integerOf (name : String) (low high : Int) (n : Number) : Except Mismatch Int :=
  match n with
  | .int value =>
    if low ≤ value ∧ value ≤ high then .ok value else .error (.range value name)
  | .real value => .error (.kind (.number (.real value)) name)

/-- A mismatch as a fault of a text. -/
def inText (result : Except Mismatch α) : Except Fault α :=
  match result with
  | .ok a => .ok a
  | .error m => .error (.mismatch m)

/-- Integers from `low` to `high`. -/
def integer (name : String) (low high : Int) : Shape Int where
  encode value := .int value
  decode v :=
    match v with
    | .number n => integerOf name low high n
    | v => .error (wrongKind name v)
  read _ :=
    leaf name Json.startsNumber
      ((⟨Json.number, Json.number_lt⟩ : Reader Fault Number).check fun n =>
        inText (integerOf name low high n))

/-! ## Derived shapes -/

/-- Values of `β` laid out as values of `α`, some of which may be refused. -/
def refine (shape : Shape α) (make : α → Except Mismatch β) (back : β → α) : Shape β where
  encode b := shape.encode (back b)
  decode v :=
    match shape.decode v with
    | .error m => .error m
    | .ok a => make a
  read levels := (shape.read levels).check fun a => inText (make a)

/-- Values of `β` laid out as values of `α`. -/
def iso (shape : Shape α) (make : α → β) (back : β → α) : Shape β :=
  shape.refine (fun a => .ok (make a)) back

/-- Unsigned integers of 32 bits. -/
def uint32 : Shape UInt32 :=
  (integer "u32" 0 4294967295).iso (fun i => UInt32.ofNat i.toNat) fun n => (n.toNat : Int)

/-- Signed integers of 32 bits. -/
def int32 : Shape Int32 :=
  (integer "i32" (-2147483648) 2147483647).iso Int32.ofInt Int32.toInt

/-- Signed integers of 64 bits. -/
def int64 : Shape Int64 :=
  (integer "i64" (-9223372036854775808) 9223372036854775807).iso Int64.ofInt Int64.toInt

/-- What is judged as a whole value, whatever its kind: a text is first read as a value. -/
def judged (encode : α → Value) (decode : Value → Except Mismatch α) : Shape α where
  encode := encode
  decode v := decode v
  read levels := (Json.tree levels).check fun v => inText (decode v)

/-- Any data, in canonical order. -/
def any : Shape Value :=
  judged id fun v => .ok v.canonical

/-! ## Optional values -/

/-- Reads `null` as nothing. -/
def optionalReader (inner : Reader Fault α) : Reader Fault (Option α) where
  run s :=
    match Json.skipBlanks s with
    | 'n' :: t =>
      match Json.word ['u', 'l', 'l'] t with
      | .error e => .error e
      | .ok rest => .ok (none, rest)
    | _ => (inner.map some).run s
  shrinks {s a rest} h := by
    split at h
    · rename_i hs
      have hlt := Json.length_cons_le_of_skipBlanks hs
      split at h
      · cases h
      · rename_i hw
        cases h
        have := Json.word_le hw
        omega
    · exact (inner.map some).shrinks h

/-- A value or `null`. -/
def optional (shape : Shape α) : Shape (Option α) where
  encode a :=
    match a with
    | none => .null
    | some a => shape.encode a
  decode v :=
    match v with
    | .null => .ok none
    | v =>
      match shape.decode v with
      | .error m => .error m
      | .ok a => .ok (some a)
  read levels := optionalReader (shape.read levels)

/-! ## Lists and maps -/

/-- Reads what stands in a bracket: `body` reads from after the bracket, with one level less. -/
def bracketed (expected : String) (bracket : Char) (levels : Nat)
    (body : Nat → List Char → Taken α)
    (body_lt : ∀ {inner s a rest}, body inner s = .ok (a, rest) → rest.length < s.length) :
    Reader Fault α where
  run s :=
    match Json.skipBlanks s with
    | [] => .error (.unfinished .value)
    | c :: t =>
      if c = bracket then
        match levels with
        | 0 => .error (.malformed .tooDeep)
        | inner + 1 => body inner t
      else .error (unexpected expected (c :: t))
  shrinks {s a rest} h := by
    split at h
    · cases h
    · rename_i hs
      have hlt := Json.length_cons_le_of_skipBlanks hs
      split at h
      · split at h
        · cases h
        · have := body_lt h
          omega
      · cases h

/-- The values that all items hold, in order. -/
def decodeItems (decode : Value → Except Mismatch α) :
    List α → List Value → Except Mismatch (List α)
  | done, [] => .ok done.reverse
  | done, v :: rest =>
    match decode v with
    | .error m => .error m
    | .ok a => decodeItems decode (a :: done) rest

/-- The values that all fields hold, in order. -/
def decodeFields (decode : Value → Except Mismatch α) :
    List (String × α) → List (String × Value) → Except Mismatch (List (String × α))
  | done, [] => .ok done.reverse
  | done, (key, v) :: rest =>
    match decode v with
    | .error m => .error m
    | .ok a => decodeFields decode ((key, a) :: done) rest

/-- Sequences of values. -/
def list (shape : Shape α) : Shape (List α) where
  encode items := .array (items.map shape.encode)
  decode v :=
    match v with
    | .array items => decodeItems shape.decode [] items
    | v => .error (wrongKind "a sequence" v)
  read levels :=
    bracketed "a sequence" '[' levels
      (fun inner t => Json.itemsFrom (shape.read inner) true [] t) Json.itemsFrom_lt

/-- Maps from texts; of repeated keys the last one counts. -/
def dict (shape : Shape α) : Shape (Dict α) where
  encode d := .object (d.entries.map fun entry => (entry.1, shape.encode entry.2))
  decode v :=
    match v with
    | .object fields =>
      match decodeFields shape.decode [] fields with
      | .error m => .error m
      | .ok entries => .ok (Dict.ofList entries)
    | v => .error (wrongKind "a map" v)
  read levels :=
    (bracketed "a map" '\x7b' levels
      (fun inner t => Json.fieldsFrom (shape.read inner) true [] t) Json.fieldsFrom_lt).map
      Dict.ofList

/-! ## Whole texts -/

/-- The value that a text holds. -/
def parse (shape : Shape α) (text : String) : Except Fault α :=
  Json.whole (shape.read Json.maxNesting) text

/-- The text of a value. -/
def render (shape : Shape α) (a : α) : String :=
  Json.render (shape.encode a)

/-- The canonical data of a value. -/
def toValue (shape : Shape α) (a : α) : Value :=
  (shape.encode a).canonical

/-- The value that canonical data holds. -/
def ofValue (shape : Shape α) (v : Value) : Except Mismatch α :=
  shape.decode v

end Shape
end TermLint

/-
  TermLint.Shape.Record

  Records: values with named fields, laid out as an object or as a sequence of the
  fields in the order in which they are declared.  A row holds a value for each
  field; while an object is read, each field has a slot that is filled when
  its key comes by, and keys that name no field are passed over.
-/

import TermLint.Shape.Basic

namespace TermLint.Shape

open Text (Reader)
open Json (Fault Taken)

variable {α σ : Type} {ts : List Type}

/-- One field of a record. -/
structure Field (α : Type) where
  /-- Its key in an object. -/
  name : String
  /-- How its values are laid out. -/
  shape : Shape α
  /-- Its value when an object lacks the key; without one the key is required. -/
  absent : Option α
  /-- Its value when a sequence ends before it; without one the item is required. -/
  vacant : Option α
  /-- The values with which the field is left out of an object. -/
  hidden : α → Bool

namespace Field

/-- A field that must be there. -/
def required (name : String) (shape : Shape α) : Field α :=
  ⟨name, shape, none, none, fun _ => false⟩

/-- A field with a default, in an object and in a sequence. -/
def defaulted (name : String) (shape : Shape α) (default : α) : Field α :=
  ⟨name, shape, some default, some default, fun _ => false⟩

/-- A field whose key may be missing, though a sequence must have an item for it. -/
def optional (name : String) (shape : Shape α) : Field (Option α) :=
  ⟨name, shape.optional, some none, none, fun _ => false⟩

/-- The same field, left out of an object when it has no value. -/
def omitted (field : Field (Option α)) : Field (Option α) :=
  { field with hidden := Option.isNone }

end Field

/-- One value of each type of a list. -/
@[reducible] def Row : List Type → Type
  | [] => Unit
  | α :: ts => α × Row ts

/-- A place for a value of each type of a list. -/
@[reducible] def Slots : List Type → Type
  | [] => Unit
  | α :: ts => Option α × Slots ts

/-- No slot has a value yet. -/
def Slots.empty : (ts : List Type) → Slots ts
  | [] => ()
  | _ :: ts => (none, Slots.empty ts)

/-- The fields of a record, whose values have the types `ts`. -/
inductive Fields : List Type → Type 1 where
  | nil : Fields []
  | cons {α : Type} {ts : List Type} (field : Field α) (rest : Fields ts) : Fields (α :: ts)

namespace Fields

/-- The number of fields. -/
def size : {ts : List Type} → Fields ts → Nat
  | _, .nil => 0
  | _, .cons _ rest => rest.size + 1

/-- The data of a row, hidden fields left out. -/
def encode : {ts : List Type} → Fields ts → Row ts → List (String × Value)
  | _, .nil, () => []
  | _, .cons field rest, (a, more) =>
    if field.hidden a then rest.encode more
    else (field.name, field.shape.encode a) :: rest.encode more

/-- The row of filled slots; an empty one takes the value of an absent field. -/
def close : {ts : List Type} → Fields ts → Slots ts → Except Mismatch (Row ts)
  | _, .nil, () => .ok ()
  | _, .cons field rest, (slot, more) =>
    match slot <|> field.absent with
    | none => .error (.missing field.name)
    | some a =>
      match rest.close more with
      | .error m => .error m
      | .ok row => .ok (a, row)

/-! ## Data -/

/-- Fill the slot of a key with the value that data holds. -/
def fill (key : String) (v : Value) :
    {ts : List Type} → Fields ts → Slots ts → Except Mismatch (Slots ts)
  | _, .nil, () => .ok ()
  | _, .cons field rest, (slot, more) =>
    if key = field.name then
      match slot with
      | some _ => .error (.repeated field.name)
      | none =>
        match field.shape.decode v with
        | .error m => .error m
        | .ok a => .ok (some a, more)
    else
      match rest.fill key v more with
      | .error m => .error m
      | .ok more => .ok (slot, more)

/-- Fill the slots of all keys of an object, in order. -/
def fillAll (fields : Fields ts) :
    Slots ts → List (String × Value) → Except Mismatch (Slots ts)
  | slots, [] => .ok slots
  | slots, (key, v) :: rest =>
    match fields.fill key v slots with
    | .error m => .error m
    | .ok slots => fillAll fields slots rest

/-- The row that the items of a sequence hold from field number `index` on, and the items left
over. -/
def decodeRow (expected : String) :
    {ts : List Type} → Fields ts → Nat → List Value → Except Mismatch (Row ts × List Value)
  | _, .nil, _, items => .ok ((), items)
  | _, .cons field rest, index, [] =>
    match field.vacant with
    | none => .error (.length index expected)
    | some a =>
      match decodeRow expected rest (index + 1) [] with
      | .error m => .error m
      | .ok (row, left) => .ok ((a, row), left)
  | _, .cons field rest, index, v :: items =>
    match field.shape.decode v with
    | .error m => .error m
    | .ok a =>
      match decodeRow expected rest (index + 1) items with
      | .error m => .error m
      | .ok (row, left) => .ok ((a, row), left)

/-! ## Texts -/

/-- Fill the slot of a key with the value that follows it in a text.  A repeated key is refused
before its value is looked at. -/
def readSlot (levels : Nat) (key : String) :
    {ts : List Type} → Fields ts → Slots ts → List Char → Taken (Slots ts)
  | _, .nil, (), s =>
    match Json.colon s with
    | .error e => .error e
    | .ok t => Json.passed.run t
  | _, .cons field rest, (slot, more), s =>
    if key = field.name then
      match slot with
      | some _ => .error (.mismatch (.repeated field.name))
      | none =>
        match Json.colon s with
        | .error e => .error e
        | .ok t =>
          match (field.shape.read levels).run t with
          | .error e => .error e
          | .ok (a, left) => .ok ((some a, more), left)
    else
      match rest.readSlot levels key more s with
      | .error e => .error e
      | .ok (more, left) => .ok ((slot, more), left)

theorem readSlot_lt {levels : Nat} {key : String} {fields : Fields ts} {slots slots' : Slots ts}
    {s left : List Char} (h : fields.readSlot levels key slots s = .ok (slots', left)) :
    left.length < s.length := by
  induction fields with
  | nil =>
    simp only [readSlot] at h
    split at h
    · cases h
    · rename_i hc
      exact Nat.lt_trans (Json.passed.shrinks h) (Json.colon_lt hc)
  | cons field rest ih =>
    obtain ⟨slot, more⟩ := slots
    simp only [readSlot] at h
    split at h
    · split at h
      · cases h
      · split at h
        · cases h
        · rename_i hc
          split at h
          · cases h
          · rename_i hr
            cases h
            exact Nat.lt_trans ((field.shape.read levels).shrinks hr) (Json.colon_lt hc)
    · split at h
      · cases h
      · rename_i hr
        cases h
        exact ih hr

/-- Fill slots from the fields of an object in a text, up to its closing bracket. -/
def readSlots (levels : Nat) (fields : Fields ts) (first : Bool) (slots : Slots ts)
    (s : List Char) : Taken (Slots ts) :=
  match ht : Json.keyTurn first s with
  | .error e => .error e
  | .ok (.closed rest) => .ok (slots, rest)
  | .ok (.entry t) =>
    match hk : Json.stringFrom [] t with
    | .error e => .error e
    | .ok (key, u) =>
      match hr : fields.readSlot levels key slots u with
      | .error e => .error e
      | .ok (slots, rest) =>
        have := Nat.lt_trans (readSlot_lt hr)
          (Nat.lt_trans (Json.stringFrom_lt hk) (Json.keyTurn_entry_lt ht))
        readSlots levels fields false slots rest
termination_by s.length

theorem readSlots_lt {levels : Nat} {fields : Fields ts} {first : Bool} {slots slots' : Slots ts}
    {s left : List Char} (h : readSlots levels fields first slots s = .ok (slots', left)) :
    left.length < s.length := by
  fun_induction readSlots levels fields first slots s with
  | case1 => cases h
  | case2 first slots s rest ht => cases h; exact Json.keyTurn_closed_lt ht
  | case3 => cases h
  | case4 => cases h
  | case5 first slots s t ht key u hk slots rest hr hlt ih => exact Nat.lt_trans (ih h) hlt

/-- The row that the items of a list in a text hold from field number `index` on, up to and with
the closing bracket. -/
def readRow (levels : Nat) (expected : String) :
    {ts : List Type} → Fields ts → Nat → List Char → Taken (Row ts)
  | _, .nil, _, s =>
    match Json.listEnd s with
    | .error e => .error e
    | .ok rest => .ok ((), rest)
  | _, .cons field rest, index, s =>
    match Json.itemTurn (index == 0) s with
    | .error e => .error e
    | .ok (.closed _) =>
      match field.vacant with
      | none => .error (.mismatch (.length index expected))
      | some a =>
        match readRow levels expected rest (index + 1) s with
        | .error e => .error e
        | .ok (row, left) => .ok ((a, row), left)
    | .ok (.entry t) =>
      match (field.shape.read levels).run t with
      | .error e => .error e
      | .ok (a, u) =>
        match readRow levels expected rest (index + 1) u with
        | .error e => .error e
        | .ok (row, left) => .ok ((a, row), left)

theorem readRow_lt {levels : Nat} {expected : String} {fields : Fields ts} {index : Nat}
    {row : Row ts} {s left : List Char}
    (h : readRow levels expected fields index s = .ok (row, left)) :
    left.length < s.length := by
  induction fields generalizing index s with
  | nil =>
    rw [readRow] at h
    split at h
    · cases h
    · rename_i he
      cases h
      exact Json.listEnd_lt he
  | cons field rest ih =>
    rw [readRow] at h
    split at h
    · cases h
    · split at h
      · cases h
      · split at h
        · cases h
        · rename_i hr
          cases h
          exact ih hr
    · rename_i ht
      split at h
      · cases h
      · rename_i hf
        split at h
        · cases h
        · rename_i hr
          cases h
          exact Nat.lt_trans (ih hr)
            (Nat.lt_of_lt_of_le ((field.shape.read levels).shrinks hf) (Json.itemTurn_entry_le ht))

end Fields

/-! ## Records -/

/-- What a sequence should have been, in words. -/
def rowExpected (name : String) (size : Nat) : String :=
  "struct " ++ name ++ " with " ++ toString size ++ (if size = 1 then " element" else " elements")

/-- The fields of an object in a text, from after its opening bracket. -/
def readObject (fields : Fields ts) (levels : Nat) (s : List Char) : Taken (Row ts) :=
  match Fields.readSlots levels fields true (Slots.empty ts) s with
  | .error e => .error e
  | .ok (slots, rest) =>
    match fields.close slots with
    | .error m => .error (.mismatch m)
    | .ok row => .ok (row, rest)

theorem readObject_lt {fields : Fields ts} {levels : Nat} {s rest : List Char} {row : Row ts}
    (h : readObject fields levels s = .ok (row, rest)) : rest.length < s.length := by
  unfold readObject at h
  split at h
  · cases h
  · rename_i hs
    split at h
    · cases h
    · cases h
      exact Fields.readSlots_lt hs

/-- Reads a row of fields from an object or a list. -/
def rowReader (name : String) (fields : Fields ts) (levels : Nat) : Reader Fault (Row ts) where
  run s :=
    match Json.skipBlanks s with
    | '[' :: _ =>
      (bracketed ("struct " ++ name) '[' levels
        (fun inner t => fields.readRow inner (rowExpected name fields.size) 0 t)
        Fields.readRow_lt).run s
    | _ =>
      (bracketed ("struct " ++ name) '\x7b' levels
        (fun inner t => readObject fields inner t) readObject_lt).run s
  shrinks {s a rest} h := by
    split at h
    · exact Reader.shrinks _ h
    · exact Reader.shrinks _ h

/-- The row of fields that data holds; a sequence has no more items than there are fields. -/
def decodeFieldsOf (name : String) (fields : Fields ts) (v : Value) : Except Mismatch (Row ts) :=
  match v with
  | .object entries =>
    match fields.fillAll (Slots.empty ts) entries with
    | .error m => .error m
    | .ok slots => fields.close slots
  | .array items =>
    match fields.decodeRow (rowExpected name fields.size) 0 items with
    | .error m => .error m
    | .ok (row, []) => .ok row
    | .ok (_, _ :: _) => .error (.length items.length "fewer elements in array")
  | v => .error (wrongKind ("struct " ++ name) v)

/-- Rows of fields, under the name that messages give to the record. -/
def row (name : String) (fields : Fields ts) : Shape (Row ts) where
  encode values := .object (fields.encode values)
  decode v := decodeFieldsOf name fields v
  read levels := rowReader name fields levels

/-- Records, as rows of their fields. -/
def record (name : String) (fields : Fields ts) (toRow : σ → Row ts) (ofRow : Row ts → σ) :
    Shape σ :=
  (row name fields).iso ofRow toRow

end TermLint.Shape

/-
  TermLint.Proofs.Shape.Origin

  Where the values of a record come from.  Whether a record is read from a text or
  decoded from data, as an object or as a sequence, each of its fields has a value
  that was read from a part of the text or decoded from a part of the data, or else
  a value of its own for want of one.  `Each` says this of a row, `EachSlot` of the
  slots that are filled on the way.
-/

import TermLint.Proofs.Json.Suffix
import TermLint.Proofs.Shape.Record

namespace TermLint

/-- The items of a list, and the values of the fields of an object. -/
def Value.parts : Value → List Value
  | .array items => items
  | .object fields => fields.map (·.2)
  | _ => []

namespace Shape

open Text (Reader)
open Json (Fault)

variable {α β σ : Type} {ts : List Type} {levels : Nat} {s t rest : List Char}

/-! ## Readers -/

/-- What a judged reader takes has been taken by the reader. -/
theorem check_eq_ok {reader : Reader Fault α} {f : α → Except Fault β} {b : β}
    (h : (reader.check f).run s = .ok (b, rest)) :
    ∃ a, reader.run s = .ok (a, rest) ∧ f a = .ok b := by
  simp only [Reader.check] at h
  split at h
  · cases h
  · rename_i a left hrun
    split at h
    · cases h
    · rename_i b' hf
      cases h
      exact ⟨a, hrun, hf⟩

/-- What the readers of a shape leave is a suffix of what they are given. -/
def Trims (shape : Shape α) : Prop :=
  ∀ ⦃levels : Nat⦄ ⦃s rest : List Char⦄ ⦃a : α⦄,
    (shape.read levels).run s = .ok (a, rest) → rest <:+ s

theorem trims_string : Shape.string.Trims := by
  intro levels s rest text h
  simp only [Shape.string, leaf] at h
  split at h
  · cases h
  · rename_i c t hs
    split at h
    · exact (Json.stringFrom_suffix h).trans (Json.suffix_of_skipBlanks hs)
    · cases h

theorem trims_judged (encode : α → Value) (decode : Value → Except Mismatch α) :
    (judged encode decode).Trims := by
  intro levels s rest a h
  obtain ⟨v, htree, -⟩ := check_eq_ok h
  exact Json.tree_suffix htree

theorem Trims.optional {shape : Shape α} (hshape : shape.Trims) : shape.optional.Trims := by
  intro levels s rest a h
  simp only [Shape.optional, optionalReader] at h
  split at h
  · rename_i t hs
    split at h
    · cases h
    · rename_i hword
      cases h
      exact (Json.word_suffix hword).trans (Json.suffix_of_skipBlanks hs)
  · obtain ⟨b, hrun, -⟩ := check_eq_ok h
    exact hshape hrun

/-- Every field has a shape whose readers leave a suffix. -/
def Fields.Trim : {ts : List Type} → Fields ts → Prop
  | _, .nil => True
  | _, .cons field rest => field.shape.Trims ∧ rest.Trim

/-! ## Rows and slots -/

/-- Where the value of a field may come from. -/
@[reducible] def Origin : Type 1 :=
  ∀ ⦃α : Type⦄, Field α → α → Prop

namespace Fields

/-- Each field has a value that comes from `origin`, or a value of its own. -/
def Each (origin : Origin) : {ts : List Type} → Fields ts → Row ts → Prop
  | _, .nil, () => True
  | _, .cons field rest, (a, row) =>
    (field.absent = some a ∨ field.vacant = some a ∨ origin field a) ∧ rest.Each origin row

/-- Each slot that is filled has a value that comes from `origin`. -/
def EachSlot (origin : Origin) : {ts : List Type} → Fields ts → Slots ts → Prop
  | _, .nil, () => True
  | _, .cons field rest, (slot, more) =>
    (∀ a, slot = some a → origin field a) ∧ rest.EachSlot origin more

variable {origin : Origin} {fields : Fields ts}

theorem eachSlot_empty (fields : Fields ts) : fields.EachSlot origin (Slots.empty ts) := by
  induction fields with
  | nil => trivial
  | cons field fields ih => exact ⟨fun a h => (by cases h), ih⟩

/-- At the end of an object an empty slot takes the value of an absent field. -/
theorem each_of_close {slots : Slots ts} {row : Row ts} (hslots : fields.EachSlot origin slots)
    (h : fields.close slots = .ok row) : fields.Each origin row := by
  induction fields with
  | nil => trivial
  | cons field fields ih =>
    obtain ⟨slot, more⟩ := slots
    obtain ⟨hslot, hmore⟩ := hslots
    simp only [close] at h
    split at h
    · cases h
    · rename_i a ha
      split at h
      · cases h
      · rename_i row' hclose
        cases h
        refine ⟨?_, ih hmore hclose⟩
        cases slot with
        | none => exact .inl ha
        | some b => exact .inr (.inr (hslot a ha))

/-! ## Texts -/

/-- The value was read from a suffix of the text. -/
def readFrom (levels : Nat) (s : List Char) : Origin :=
  fun _ field a => ∃ t rest, t <:+ s ∧ (field.shape.read levels).run t = .ok (a, rest)

theorem eachSlot_readSlot (hfields : fields.Trim) {key : String} {slots slots' : Slots ts}
    (hslots : fields.EachSlot (readFrom levels s) slots) (ht : t <:+ s)
    (h : fields.readSlot levels key slots t = .ok (slots', rest)) :
    fields.EachSlot (readFrom levels s) slots' ∧ rest <:+ s := by
  induction fields with
  | nil =>
    simp only [readSlot] at h
    split at h
    · cases h
    · rename_i u hcolon
      exact ⟨trivial, (Json.passed_suffix h).trans ((Json.colon_suffix hcolon).trans ht)⟩
  | cons field fields ih =>
    obtain ⟨hfield, hmore⟩ := hfields
    obtain ⟨slot, more⟩ := slots
    obtain ⟨hslot, hslots⟩ := hslots
    simp only [readSlot] at h
    split at h
    · split at h
      · cases h
      · split at h
        · cases h
        · rename_i u hcolon
          have hu : u <:+ s := (Json.colon_suffix hcolon).trans ht
          split at h
          · cases h
          · rename_i a left hread
            cases h
            refine ⟨⟨?_, hslots⟩, (hfield hread).trans hu⟩
            intro b hb
            cases hb
            exact ⟨u, rest, hu, hread⟩
    · split at h
      · cases h
      · rename_i more' left hread
        cases h
        obtain ⟨hmore', hrest⟩ := ih hmore hslots hread
        exact ⟨⟨hslot, hmore'⟩, hrest⟩

theorem eachSlot_readSlots (hfields : fields.Trim) {first : Bool} {slots slots' : Slots ts}
    (hslots : fields.EachSlot (readFrom levels s) slots) (ht : t <:+ s)
    (h : fields.readSlots levels first slots t = .ok (slots', rest)) :
    fields.EachSlot (readFrom levels s) slots' := by
  fun_induction readSlots levels fields first slots t with
  | case1 => cases h
  | case2 first slots t left hturn =>
    cases h
    exact hslots
  | case3 => cases h
  | case4 => cases h
  | case5 first slots t u hturn key w hkey slots'' left hslot hlt ih =>
    have hw : w <:+ s :=
      (Json.stringFrom_suffix hkey).trans ((Json.keyTurn_entry_suffix hturn).trans ht)
    obtain ⟨hfilled, hleft⟩ := eachSlot_readSlot hfields hslots hw hslot
    exact ih hfilled hleft h

theorem each_readRow (hfields : fields.Trim) {expected : String} {index : Nat} {row : Row ts}
    (ht : t <:+ s) (h : fields.readRow levels expected index t = .ok (row, rest)) :
    fields.Each (readFrom levels s) row := by
  induction fields generalizing index t with
  | nil => trivial
  | cons field fields ih =>
    obtain ⟨hfield, hmore⟩ := hfields
    rw [readRow] at h
    split at h
    · cases h
    · -- the sequence has ended, and the field has the value for that
      split at h
      · cases h
      · rename_i a hvacant
        split at h
        · cases h
        · rename_i row' left hread
          cases h
          exact ⟨.inr (.inl hvacant), ih hmore ht hread⟩
    · rename_i u hturn
      have hu : u <:+ s := (Json.itemTurn_entry_suffix hturn).trans ht
      split at h
      · cases h
      · rename_i a left hread
        split at h
        · cases h
        · rename_i row' left' hrow
          cases h
          exact ⟨.inr (.inr ⟨u, left, hu, hread⟩), ih hmore ((hfield hread).trans hu) hrow⟩

/-! ## Data -/

/-- The value was decoded from one of these data. -/
def decodedFrom (parts : List Value) : Origin :=
  fun _ field a => ∃ v ∈ parts, field.shape.decode v = .ok a

theorem eachSlot_fill {parts : List Value} {key : String} {v : Value} (hv : v ∈ parts)
    {slots slots' : Slots ts} (hslots : fields.EachSlot (decodedFrom parts) slots)
    (h : fields.fill key v slots = .ok slots') : fields.EachSlot (decodedFrom parts) slots' := by
  induction fields with
  | nil => trivial
  | cons field fields ih =>
    obtain ⟨slot, more⟩ := slots
    obtain ⟨hslot, hslots⟩ := hslots
    simp only [fill] at h
    split at h
    · split at h
      · cases h
      · split at h
        · cases h
        · rename_i a hdecode
          cases h
          refine ⟨?_, hslots⟩
          intro b hb
          cases hb
          exact ⟨v, hv, hdecode⟩
    · split at h
      · cases h
      · rename_i more' hfill
        cases h
        exact ⟨hslot, ih hslots hfill⟩

theorem eachSlot_fillAll {parts : List Value} {entries : List (String × Value)}
    (hparts : ∀ entry ∈ entries, entry.2 ∈ parts) {slots slots' : Slots ts}
    (hslots : fields.EachSlot (decodedFrom parts) slots)
    (h : fields.fillAll slots entries = .ok slots') :
    fields.EachSlot (decodedFrom parts) slots' := by
  induction entries generalizing slots with
  | nil =>
    cases h
    exact hslots
  | cons entry entries ih =>
    obtain ⟨key, v⟩ := entry
    simp only [fillAll] at h
    split at h
    · cases h
    · rename_i slots'' hfill
      have hfilled := eachSlot_fill (hparts _ List.mem_cons_self) hslots hfill
      exact ih (fun entry hmem => hparts entry (List.mem_cons_of_mem _ hmem)) hfilled h

theorem each_decodeRow {parts items left : List Value} {expected : String} {index : Nat}
    {row : Row ts} (hparts : ∀ v ∈ items, v ∈ parts)
    (h : fields.decodeRow expected index items = .ok (row, left)) :
    fields.Each (decodedFrom parts) row := by
  induction fields generalizing index items left with
  | nil => trivial
  | cons field fields ih =>
    cases items with
    | nil =>
      simp only [decodeRow] at h
      split at h
      · cases h
      · rename_i a hvacant
        split at h
        · cases h
        · rename_i row' left' hrow
          cases h
          exact ⟨.inr (.inl hvacant), ih hparts hrow⟩
    | cons v items =>
      simp only [decodeRow] at h
      split at h
      · cases h
      · rename_i a hdecode
        split at h
        · cases h
        · rename_i row' left' hrow
          cases h
          refine ⟨.inr (.inr ⟨v, hparts v List.mem_cons_self, hdecode⟩), ?_⟩
          exact ih (fun v hmem => hparts v (List.mem_cons_of_mem _ hmem)) hrow

end Fields

/-! ## Records and lists -/

theorem bracketed_eq_ok {expected : String} {bracket : Char}
    {body : Nat → List Char → Json.Taken α}
    (body_lt : ∀ {inner s a rest}, body inner s = .ok (a, rest) → rest.length < s.length) {a : α}
    (h : (bracketed expected bracket levels body body_lt).run s = .ok (a, rest)) :
    ∃ inner t, t <:+ s ∧ body inner t = .ok (a, rest) := by
  simp only [bracketed] at h
  split at h
  · cases h
  · rename_i c t hs
    split at h
    · split at h
      · cases h
      · rename_i inner
        exact ⟨inner, t, Json.suffix_of_skipBlanks hs, h⟩
    · cases h

theorem each_of_rowReader {name : String} {fields : Fields ts} (hfields : fields.Trim)
    {row : Row ts} (h : (rowReader name fields levels).run s = .ok (row, rest)) :
    ∃ inner, fields.Each (Fields.readFrom inner s) row := by
  simp only [rowReader] at h
  split at h
  · obtain ⟨inner, t, ht, hrow⟩ := bracketed_eq_ok Fields.readRow_lt h
    exact ⟨inner, Fields.each_readRow hfields ht hrow⟩
  · obtain ⟨inner, t, ht, hobject⟩ := bracketed_eq_ok readObject_lt h
    simp only [readObject] at hobject
    split at hobject
    · cases hobject
    · rename_i slots left hslots
      split at hobject
      · cases hobject
      · rename_i row' hclose
        cases hobject
        have hfilled := Fields.eachSlot_readSlots hfields (fields.eachSlot_empty) ht hslots
        exact ⟨inner, Fields.each_of_close hfilled hclose⟩

/-- The fields of a record that is read from a text. -/
theorem each_of_read {name : String} {fields : Fields ts} (hfields : fields.Trim)
    {toRow : σ → Row ts} {ofRow : Row ts → σ} {b : σ}
    (h : ((record name fields toRow ofRow).read levels).run s = .ok (b, rest)) :
    ∃ inner row, fields.Each (Fields.readFrom inner s) row ∧ ofRow row = b := by
  have hcheck : ((rowReader name fields levels).check fun row => inText (.ok (ofRow row))).run s =
      .ok (b, rest) := h
  obtain ⟨row, hrow, hmake⟩ := check_eq_ok hcheck
  obtain ⟨inner, heach⟩ := each_of_rowReader hfields hrow
  exact ⟨inner, row, heach, Except.ok.inj hmake⟩

/-- The fields of a record that is decoded from data. -/
theorem each_of_decode {name : String} {fields : Fields ts} {toRow : σ → Row ts}
    {ofRow : Row ts → σ} {v : Value} {b : σ}
    (h : (record name fields toRow ofRow).decode v = .ok b) :
    ∃ row, fields.Each (Fields.decodedFrom v.parts) row ∧ ofRow row = b := by
  obtain ⟨row, hrow, hb⟩ := (record_decode_eq_ok_iff v b).mp h
  refine ⟨row, ?_, hb⟩
  cases v with
  | object entries =>
    simp only [decodeFieldsOf] at hrow
    split at hrow
    · cases hrow
    · rename_i slots hfill
      have hparts : ∀ entry ∈ entries, entry.2 ∈ (Value.object entries).parts :=
        fun entry hmem => List.mem_map_of_mem hmem
      exact Fields.each_of_close (Fields.eachSlot_fillAll hparts fields.eachSlot_empty hfill) hrow
  | array items =>
    rw [decodeFieldsOf_array, exactRow_eq_ok_iff] at hrow
    exact Fields.each_decodeRow (fun v hmem => hmem) hrow
  | null => cases hrow
  | bool value => cases hrow
  | number n => cases hrow
  | string text => cases hrow

theorem mem_decodeItems {decode : Value → Except Mismatch α} {done all : List α}
    {items : List Value} (h : decodeItems decode done items = .ok all) {a : α} (hmem : a ∈ all) :
    a ∈ done ∨ ∃ v ∈ items, decode v = .ok a := by
  induction items generalizing done with
  | nil =>
    cases h
    exact .inl (List.mem_reverse.mp hmem)
  | cons v items ih =>
    rw [decodeItems] at h
    split at h
    · cases h
    · rename_i b hdecode
      rcases ih h with hdone | ⟨w, hw, hdecoded⟩
      · rcases List.mem_cons.mp hdone with rfl | hdone
        · exact .inr ⟨v, List.mem_cons_self, hdecode⟩
        · exact .inl hdone
      · exact .inr ⟨w, List.mem_cons_of_mem _ hw, hdecoded⟩

/-- The items of a list that is decoded from data. -/
theorem mem_of_list_decode {shape : Shape α} {v : Value} {all : List α}
    (h : shape.list.decode v = .ok all) {a : α} (hmem : a ∈ all) :
    ∃ w ∈ v.parts, shape.decode w = .ok a := by
  simp only [Shape.list] at h
  split at h
  · exact (mem_decodeItems h hmem).resolve_left List.not_mem_nil
  · cases h

end Shape
end TermLint

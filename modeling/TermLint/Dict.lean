/-
  TermLint.Dict

  Finite maps from texts, kept as a list in strictly increasing order of keys, so
  that two maps with the same entries are equal.  `insert` puts a value at a key,
  replacing the one that was there; `get?_insert` says so through the view `get?`,
  which decides when two maps are equal.
-/

namespace TermLint

/-! ## Ordered lists of entries -/

/-- Put a value at a key of an ordered list of entries, replacing the value that was there. -/
def insertEntry {α : Type} (key : String) (value : α) : List (String × α) → List (String × α)
  | [] => [(key, value)]
  | entry :: rest =>
    if key < entry.1 then (key, value) :: entry :: rest
    else if key = entry.1 then (key, value) :: rest
    else entry :: insertEntry key value rest

/-- The first value at a key. -/
def findEntry {α : Type} (key : String) (entries : List (String × α)) : Option α :=
  (entries.find? fun entry => entry.1 == key).map (·.2)

/-- Entries in strictly increasing order of keys. -/
def Ordered {α : Type} (entries : List (String × α)) : Prop :=
  entries.Pairwise fun a b => a.1 < b.1

theorem key_lt_of_not {a b : String} (hlt : ¬ a < b) (hne : a ≠ b) : b < a := by
  rcases Std.lt_trichotomy a b with h | h | h
  · exact absurd h hlt
  · exact absurd h hne
  · exact h

/-- A key below every key and below the new one stays below them all. -/
theorem forall_mem_insertEntry {α : Type} {P : String → Prop} {key : String} {value : α}
    {entries : List (String × α)} (hkey : P key) (h : ∀ e ∈ entries, P e.1) :
    ∀ e ∈ insertEntry key value entries, P e.1 := by
  induction entries with
  | nil => intro e he; simp only [insertEntry, List.mem_singleton] at he; exact he ▸ hkey
  | cons entry rest ih =>
    have hrest : ∀ e ∈ rest, P e.1 := fun e he => h e (List.mem_cons_of_mem _ he)
    intro e he
    rw [insertEntry] at he
    split at he
    · rcases List.mem_cons.mp he with rfl | he
      · exact hkey
      · exact h e he
    · split at he
      · rcases List.mem_cons.mp he with rfl | he
        · exact hkey
        · exact hrest e he
      · rcases List.mem_cons.mp he with rfl | he
        · exact h e List.mem_cons_self
        · exact ih hrest e he

theorem ordered_insertEntry {α : Type} (key : String) (value : α) {entries : List (String × α)}
    (h : Ordered entries) : Ordered (insertEntry key value entries) := by
  induction entries with
  | nil => exact List.pairwise_singleton _ _
  | cons entry rest ih =>
    obtain ⟨hhead, htail⟩ := List.pairwise_cons.mp h
    rw [insertEntry]
    split
    · rename_i hlt
      refine List.pairwise_cons.mpr ⟨fun e he => ?_, h⟩
      rcases List.mem_cons.mp he with rfl | he
      · exact hlt
      · exact String.lt_trans hlt (hhead e he)
    · rename_i hlt
      split
      · rename_i heq
        exact List.pairwise_cons.mpr ⟨fun e he => heq ▸ hhead e he, htail⟩
      · rename_i hne
        refine List.pairwise_cons.mpr ⟨?_, ih htail⟩
        exact forall_mem_insertEntry (key_lt_of_not hlt hne) hhead

/-- Reading after a write: the new value at its key, the old one elsewhere. -/
theorem findEntry_insertEntry {α : Type} (key : String) (value : α) (entries : List (String × α))
    (other : String) (h : Ordered entries) :
    findEntry other (insertEntry key value entries) =
      if key = other then some value else findEntry other entries := by
  induction entries with
  | nil => by_cases hk : key = other <;> simp [insertEntry, findEntry, hk]
  | cons entry rest ih =>
    obtain ⟨hhead, htail⟩ := List.pairwise_cons.mp h
    have ih := ih htail
    rw [insertEntry]
    split
    · rename_i hlt
      by_cases hk : key = other <;> simp [findEntry, hk]
    · rename_i hlt
      split
      · rename_i heq
        by_cases hk : key = other
        · simp [findEntry, hk]
        · have he : entry.1 ≠ other := heq ▸ hk
          simp [findEntry, hk, he]
      · rename_i hne
        by_cases he : entry.1 = other
        · have hk : key ≠ other := he ▸ hne
          simp [findEntry, he, hk]
        · have hb : (entry.1 == other) = false := by simpa using he
          simpa only [findEntry, List.find?_cons, hb] using ih

theorem findEntry_cons_self {α : Type} (key : String) (value : α) (entries : List (String × α)) :
    findEntry key ((key, value) :: entries) = some value := by
  simp [findEntry]

theorem findEntry_cons_of_ne {α : Type} {key other : String} (value : α)
    (entries : List (String × α)) (h : key ≠ other) :
    findEntry other ((key, value) :: entries) = findEntry other entries := by
  simp [findEntry, h]

/-- A key below all keys of a list is not in it. -/
theorem findEntry_eq_none_of_lt {α : Type} {key : String} {entries : List (String × α)}
    (h : ∀ e ∈ entries, key < e.1) : findEntry key entries = none := by
  rw [findEntry, Option.map_eq_none_iff, List.find?_eq_none]
  intro e he hkey
  have hlt := h e he
  rw [beq_iff_eq.mp hkey] at hlt
  exact String.lt_irrefl key hlt

/-- The first key of a list is in no ordered list that begins with a larger key. -/
theorem Ordered.not_lt_of_findEntry_eq {α : Type} {key key' : String} {value value' : α}
    {a b : List (String × α)} (hb : Ordered ((key', value') :: b))
    (h : findEntry key ((key, value) :: a) = findEntry key ((key', value') :: b)) :
    ¬ key < key' := by
  intro hlt
  have hmore : ∀ e ∈ b, key < e.1 := fun e he =>
    String.lt_trans hlt ((List.pairwise_cons.mp hb).1 e he)
  rw [findEntry_cons_self, findEntry_cons_of_ne _ _ (String.ne_of_lt hlt).symm,
    findEntry_eq_none_of_lt hmore] at h
  cases h

/-- Ordered lists with the same value at every key are equal. -/
theorem Ordered.eq_of_findEntry {α : Type} {a b : List (String × α)} (ha : Ordered a)
    (hb : Ordered b) (h : ∀ key, findEntry key a = findEntry key b) : a = b := by
  induction a generalizing b with
  | nil =>
    cases b with
    | nil => rfl
    | cons entry b =>
      have hkey := h entry.1
      rw [findEntry_cons_self] at hkey
      cases hkey
  | cons first a ih =>
    obtain ⟨key, value⟩ := first
    cases b with
    | nil =>
      have hkey := h key
      rw [findEntry_cons_self] at hkey
      cases hkey
    | cons entry b =>
      obtain ⟨key', value'⟩ := entry
      have hsame : key = key' := by
        rcases Std.lt_trichotomy key key' with hlt | heq | hlt
        · exact absurd hlt (hb.not_lt_of_findEntry_eq (h key))
        · exact heq
        · exact absurd hlt (ha.not_lt_of_findEntry_eq (h key').symm)
      subst hsame
      have hvalue : value = value' := by
        have hkey := h key
        rw [findEntry_cons_self, findEntry_cons_self] at hkey
        exact Option.some.inj hkey
      obtain ⟨hfirst, hmore⟩ := List.pairwise_cons.mp ha
      obtain ⟨hfirst', hmore'⟩ := List.pairwise_cons.mp hb
      -- the first key is in neither of the two rests
      have hrest : a = b := by
        refine ih hmore hmore' fun other => ?_
        by_cases hother : key = other
        · subst hother
          rw [findEntry_eq_none_of_lt hfirst, findEntry_eq_none_of_lt hfirst']
        · have hkey := h other
          rwa [findEntry_cons_of_ne _ _ hother, findEntry_cons_of_ne _ _ hother] at hkey
      rw [hvalue, hrest]

/-! ## Maps -/

/-- A map from texts to `α`. -/
structure Dict (α : Type) where
  entries : List (String × α)
  ordered : Ordered entries

namespace Dict

variable {α : Type}

@[ext] theorem ext {a b : Dict α} (h : a.entries = b.entries) : a = b := by
  cases a; cases b; cases h; rfl

/-- The map without entries. -/
def empty : Dict α := ⟨[], List.Pairwise.nil⟩

instance : Inhabited (Dict α) := ⟨empty⟩

instance [DecidableEq α] : DecidableEq (Dict α) := fun a b =>
  if h : a.entries = b.entries then .isTrue (Dict.ext h) else .isFalse fun e => h (e ▸ rfl)

/-- Put a value at a key. -/
def insert (d : Dict α) (key : String) (value : α) : Dict α :=
  ⟨insertEntry key value d.entries, ordered_insertEntry key value d.ordered⟩

/-- The value at a key. -/
def get? (d : Dict α) (key : String) : Option α :=
  findEntry key d.entries

/-- The number of keys. -/
def size (d : Dict α) : Nat := d.entries.length

/-- The map with one entry. -/
def singleton (key : String) (value : α) : Dict α := empty.insert key value

/-- The map that a list of entries describes, a later entry replacing an earlier one. -/
def ofList (entries : List (String × α)) : Dict α :=
  entries.foldl (fun d entry => d.insert entry.1 entry.2) empty

@[simp] theorem get?_empty (key : String) : (empty : Dict α).get? key = none := rfl

theorem get?_insert (d : Dict α) (key : String) (value : α) (other : String) :
    (d.insert key value).get? other = if key = other then some value else d.get? other :=
  findEntry_insertEntry key value d.entries other d.ordered

/-- Two maps with the same value at every key are equal. -/
theorem ext_get? {a b : Dict α} (h : ∀ key, a.get? key = b.get? key) : a = b :=
  Dict.ext (a.ordered.eq_of_findEntry b.ordered h)

/-- Writes to different keys can be made in either order. -/
theorem insert_comm (d : Dict α) {a b : String} (x y : α) (h : a ≠ b) :
    (d.insert a x).insert b y = (d.insert b y).insert a x := by
  refine ext_get? fun key => ?_
  simp only [get?_insert]
  by_cases hb : b = key
  · subst hb
    rw [if_pos rfl, if_neg h, if_pos rfl]
  · rw [if_neg hb, if_neg hb]

end Dict
end TermLint

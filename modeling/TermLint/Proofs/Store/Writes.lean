/-
  TermLint.Proofs.Store.Writes

  A store as what its writes make of it.  There are two ways to write a document:
  it is opened, which replaces what stood at its URI, or it is changed, which alters
  what stood there and opens it first if nothing did.  In every store that writes
  can make the two agree (`apply_eq_put`), so one equation for the store after a
  write (`get?_apply`) says everything: the documents of a store are the last writes
  to their URIs, and a store holds as many of them as URIs have been written to.
-/

import Mathlib.Data.List.Dedup
import TermLint.Proofs.Store

namespace TermLint

open Lint (Linter)
open Lsp (Diagnostic TextDocumentContentChangeEvent)

/-! ## The keys of a map -/

namespace Dict

variable {α : Type} {d : Dict α}

theorem get?_of_mem {entry : String × α} (h : entry ∈ d.entries) :
    d.get? entry.1 = some entry.2 := by
  obtain ⟨entries, hordered⟩ := d
  induction entries with
  | nil => exact absurd h List.not_mem_nil
  | cons first rest ih =>
    obtain ⟨hfirst, hrest⟩ := List.pairwise_cons.mp hordered
    rcases List.mem_cons.mp h with rfl | hmem
    · exact findEntry_cons_self _ _ _
    · -- the key of a later entry is above the first one, so it is not found there
      have hne : first.1 ≠ entry.1 := String.ne_of_lt (hfirst entry hmem)
      have hskip := findEntry_cons_of_ne first.2 rest hne
      exact hskip.trans (ih hrest hmem)

theorem mem_keys_iff {key : String} : key ∈ d.entries.map Prod.fst ↔ (d.get? key).isSome := by
  rw [List.mem_map]
  constructor
  · rintro ⟨entry, hmem, rfl⟩
    rw [get?_of_mem hmem]
    rfl
  · intro h
    rw [get?, findEntry, Option.isSome_map, List.find?_isSome] at h
    obtain ⟨entry, hmem, hkey⟩ := h
    exact ⟨entry, hmem, beq_iff_eq.mp hkey⟩

theorem nodup_keys (d : Dict α) : (d.entries.map Prod.fst).Nodup := by
  rw [List.Nodup, List.pairwise_map]
  apply d.ordered.imp
  intro a b hlt
  exact String.ne_of_lt hlt

/-- A map has as many entries as there are keys with a value, however these are listed. -/
theorem size_eq_length {keys : List String} (hnodup : keys.Nodup)
    (hkeys : ∀ key, key ∈ keys ↔ (d.get? key).isSome) : d.size = keys.length := by
  have hperm : List.Perm (d.entries.map Prod.fst) keys := by
    rw [List.perm_ext_iff_of_nodup d.nodup_keys hnodup]
    intro key
    rw [mem_keys_iff, hkeys]
  rw [← hperm.length_eq, List.length_map, size]

/-- Of two writes to one key the second counts. -/
theorem insert_insert (d : Dict α) (key : String) (x y : α) :
    (d.insert key x).insert key y = d.insert key y := by
  apply ext_get?
  intro other
  rw [get?_insert, get?_insert, get?_insert]
  split
  · rfl
  · rfl

end Dict

/-! ## Writes -/

namespace Store

/-- A write to a store. -/
inductive Write where
  /-- A document is opened. -/
  | put (uri : String) (version : Int32) (text : String)
  /-- A document is changed. -/
  | change (uri : String) (version : Int32) (changes : List TextDocumentContentChangeEvent)

namespace Write

/-- The URI that a write is about. -/
def uri : Write → String
  | .put uri _ _ => uri
  | .change uri _ _ => uri

/-- The document that a write leaves.  Of the changes of a batch only the last one counts, and where
it is to take effect does not. -/
def document : Write → Document
  | .put uri version text => ⟨uri, version, text⟩
  | .change uri version changes => ⟨uri, version, (changes.getLast?.map (·.text)).getD ""⟩

end Write

/-- The store after a write, and what is to be said about the text that it leaves. -/
def apply (store : Store) : Write → Store × List Diagnostic
  | .put uri version text => store.put uri version text
  | .change uri version changes => store.change uri version changes

/-- The store after writes, one after another. -/
def run (store : Store) : List Write → Store
  | [] => store
  | write :: writes => (store.apply write).1.run writes

/-- The store that writes make. -/
def ofWrites (linter : Linter) (writes : List Write) : Store :=
  (Store.empty linter).run writes

variable {store : Store}

/-! ## One write -/

/-- Both kinds of write do the same thing: they put a document at its URI. -/
theorem apply_eq_put (hkeyed : store.Keyed) (write : Write) :
    store.apply write = store.put write.uri write.document.version write.document.text := by
  cases write with
  | put uri version text => rfl
  | change uri version changes =>
    rw [apply, change_eq_put hkeyed, textAfter_eq]
    rfl

theorem uri_document (write : Write) : write.document.uri = write.uri := by
  cases write with
  | put uri version text => rfl
  | change uri version changes => rfl

theorem keyed_apply (hkeyed : store.Keyed) (write : Write) : (store.apply write).1.Keyed := by
  rw [apply_eq_put hkeyed]
  exact keyed_put hkeyed _ _ _

theorem linter_apply (hkeyed : store.Keyed) (write : Write) :
    (store.apply write).1.linter = store.linter := by
  rw [apply_eq_put hkeyed, linter_put]

/-- A write shows at its own URI and nowhere else. -/
theorem get?_apply (hkeyed : store.Keyed) (write : Write) (uri : String) :
    (store.apply write).1.get? uri =
      if write.uri = uri then some write.document else store.get? uri := by
  rw [apply_eq_put hkeyed, get?_put, ← uri_document]

/-- What is said about a write are the findings in the text that it leaves. -/
theorem findings_apply (hkeyed : store.Keyed) (write : Write) :
    (store.apply write).2 = store.linter.scan write.document.text := by
  rw [apply_eq_put hkeyed]
  rfl

theorem put_put (store : Store) (uri : String) (version version' : Int32) (text text' : String) :
    (store.put uri version text).1.put uri version' text' = store.put uri version' text' := by
  simp only [put, Dict.insert_insert]

/-- Writes to different URIs can be made in either order. -/
theorem apply_apply_comm (hkeyed : store.Keyed) {a b : Write} (h : a.uri ≠ b.uri) :
    ((store.apply a).1.apply b).1 = ((store.apply b).1.apply a).1 := by
  rw [apply_eq_put (keyed_apply hkeyed a), apply_eq_put (keyed_apply hkeyed b),
    apply_eq_put hkeyed, apply_eq_put hkeyed]
  simp only [put, Dict.insert_comm _ _ _ h]

/-! ## Many writes -/

theorem keyed_run (hkeyed : store.Keyed) (writes : List Write) : (store.run writes).Keyed := by
  induction writes generalizing store with
  | nil => exact hkeyed
  | cons write writes ih => exact ih (keyed_apply hkeyed write)

theorem linter_run (hkeyed : store.Keyed) (writes : List Write) :
    (store.run writes).linter = store.linter := by
  induction writes generalizing store with
  | nil => rfl
  | cons write writes ih =>
    have hrest := ih (keyed_apply hkeyed write)
    exact hrest.trans (linter_apply hkeyed write)

/-- The last of the writes to a URI. -/
def lastWrite? (writes : List Write) (uri : String) : Option Write :=
  (writes.filter fun write => write.uri = uri).getLast?

theorem isSome_lastWrite? (writes : List Write) (uri : String) :
    (lastWrite? writes uri).isSome ↔ uri ∈ writes.map Write.uri := by
  rw [lastWrite?, List.getLast?_isSome, ne_eq, List.filter_eq_nil_iff, List.mem_map]
  simp only [decide_eq_true_eq, not_forall, not_not, exists_prop]

/-- The first write counts for a URI only if no later one is about it. -/
theorem lastWrite?_cons (write : Write) (writes : List Write) (uri : String) :
    lastWrite? (write :: writes) uri =
      (lastWrite? writes uri).or (if write.uri = uri then some write else none) := by
  unfold lastWrite?
  by_cases huri : write.uri = uri
  · rw [if_pos huri, List.filter_cons_of_pos (by simpa using huri), List.getLast?_cons]
    cases List.getLast? _ with
    | none => rfl
    | some last => rfl
  · rw [if_neg huri, List.filter_cons_of_neg (by simpa using huri), Option.or_none]

/-- After writes the document at a URI is that of the last write to it, or the one that was there
before all of them. -/
theorem get?_run (hkeyed : store.Keyed) (writes : List Write) (uri : String) :
    (store.run writes).get? uri =
      ((lastWrite? writes uri).map Write.document).or (store.get? uri) := by
  induction writes generalizing store with
  | nil => rfl
  | cons write writes ih =>
    rw [run, ih (keyed_apply hkeyed write), get?_apply hkeyed, lastWrite?_cons]
    cases lastWrite? writes uri with
    | some last => rfl
    | none =>
      by_cases huri : write.uri = uri
      · rw [if_pos huri, if_pos huri]
        rfl
      · rw [if_neg huri, if_neg huri]
        rfl

theorem keyed_ofWrites (linter : Linter) (writes : List Write) : (ofWrites linter writes).Keyed :=
  keyed_run (keyed_empty linter) writes

theorem linter_ofWrites (linter : Linter) (writes : List Write) :
    (ofWrites linter writes).linter = linter :=
  linter_run (keyed_empty linter) writes

theorem get?_ofWrites (linter : Linter) (writes : List Write) (uri : String) :
    (ofWrites linter writes).get? uri = (lastWrite? writes uri).map Write.document := by
  rw [ofWrites, get?_run (keyed_empty linter), get?_empty, Option.or_none]

/-- A store has one document for each URI that has been written to. -/
theorem size_ofWrites (linter : Linter) (writes : List Write) :
    (ofWrites linter writes).size = (writes.map Write.uri).dedup.length := by
  apply Dict.size_eq_length (List.nodup_dedup _)
  intro uri
  have hget := get?_ofWrites linter writes uri
  rw [get?] at hget
  rw [hget, Option.isSome_map, isSome_lastWrite?, List.mem_dedup]

theorem isEmpty_ofWrites (linter : Linter) (writes : List Write) :
    (ofWrites linter writes).isEmpty = true ↔ writes = [] := by
  rw [isEmpty, beq_iff_eq, size_ofWrites, List.length_eq_zero_iff, List.dedup_eq_nil,
    List.map_eq_nil_iff]

/-! ## The two kinds of write -/

/-- What writes make of a store.  Whatever has been written before, a change does what opening the
document with the last text of the batch does, and so does opening it without text and changing it
then.  Every document stands at its own URI; there are as many as different URIs, and none only when
nothing has been written; each is that of the last write to its URI.  Writes to different URIs can
be made in either order, with the same findings, and the findings that a write gives are those in
the text that is stored after it. -/
theorem ofWrites_lastWrite (linter : Linter) (writes : List Write) :
    (∀ uri version changes,
      (ofWrites linter writes).change uri version changes =
          (ofWrites linter writes).put uri version ((changes.getLast?.map (·.text)).getD "") ∧
        ∀ opened, ((ofWrites linter writes).put uri opened "").1.change uri version changes =
          (ofWrites linter writes).change uri version changes) ∧
    (∀ entry ∈ (ofWrites linter writes).documents.entries, entry.2.uri = entry.1) ∧
    (ofWrites linter writes).size = (writes.map Write.uri).dedup.length ∧
    ((ofWrites linter writes).isEmpty = true ↔ writes = []) ∧
    (∀ uri, (ofWrites linter writes).get? uri =
      ((writes.filter fun write => write.uri = uri).getLast?).map Write.document) ∧
    (∀ a b : Write, a.uri ≠ b.uri →
      (((ofWrites linter writes).apply a).1.apply b).1 =
          (((ofWrites linter writes).apply b).1.apply a).1 ∧
        (((ofWrites linter writes).apply a).1.apply b).2 = ((ofWrites linter writes).apply b).2 ∧
        (((ofWrites linter writes).apply b).1.apply a).2 = ((ofWrites linter writes).apply a).2) ∧
    ∀ write : Write, ∃ text,
      ((ofWrites linter writes).apply write).1.text? write.uri = some text ∧
        ((ofWrites linter writes).apply write).2 = linter.scan text := by
  have hkeyed := keyed_ofWrites linter writes
  have hlinter := linter_ofWrites linter writes
  refine ⟨?_, ?_, size_ofWrites linter writes, isEmpty_ofWrites linter writes,
    get?_ofWrites linter writes, ?_, ?_⟩
  · intro uri version changes
    have hchange := apply_eq_put hkeyed (.change uri version changes)
    refine ⟨hchange, fun opened => ?_⟩
    have hopened := apply_eq_put (keyed_put hkeyed uri opened "") (.change uri version changes)
    exact (hopened.trans (put_put _ _ _ _ _ _)).trans hchange.symm
  · intro entry hmem
    exact hkeyed entry.1 entry.2 (Dict.get?_of_mem hmem)
  · intro a b hne
    refine ⟨apply_apply_comm hkeyed hne, ?_, ?_⟩
    · rw [findings_apply (keyed_apply hkeyed a), linter_apply hkeyed, findings_apply hkeyed]
    · rw [findings_apply (keyed_apply hkeyed b), linter_apply hkeyed, findings_apply hkeyed]
  · intro write
    refine ⟨write.document.text, ?_, ?_⟩
    · rw [text?, get?_apply hkeyed, if_pos rfl, Option.map_some]
    · rw [findings_apply hkeyed, hlinter]

/-- A document is emptied by a batch without changes, and another one is opened; either can come
first. -/
theorem ofWrites_lastWrite_apart :
    (Write.change "a" 2 []).uri ≠ (Write.put "b" 1 "VS Code").uri ∧
      (((ofWrites Linter.standard [.put "a" 5 "Neovim"]).apply (.change "a" 2 [])).1.apply
          (.put "b" 1 "VS Code")).1 =
        (((ofWrites Linter.standard [.put "a" 5 "Neovim"]).apply (.put "b" 1 "VS Code")).1.apply
          (.change "a" 2 [])).1 := by
  have hne : (Write.change "a" 2 []).uri ≠ (Write.put "b" 1 "VS Code").uri := by decide
  obtain ⟨-, -, -, -, -, hcomm, -⟩ :=
    ofWrites_lastWrite Linter.standard [.put "a" 5 "Neovim"]
  exact ⟨hne, (hcomm _ _ hne).1⟩

end Store
end TermLint

/-
  TermLint.Proofs.Store

  A store as a map from URIs to documents.  Every document of a store that a session
  can reach stands at its own URI; in such a store a change does what opening the
  document with the new text would do.
-/

import TermLint.Store

namespace TermLint.Store

open Lint (Linter)
open Lsp (TextDocumentContentChangeEvent)

/-- Every document stands at its own URI. -/
def Keyed (store : Store) : Prop :=
  ∀ uri document, store.get? uri = some document → document.uri = uri

theorem get?_put (store : Store) (uri : String) (version : Int32) (text other : String) :
    (store.put uri version text).1.get? other =
      if uri = other then some ⟨uri, version, text⟩ else store.get? other :=
  store.documents.get?_insert uri ⟨uri, version, text⟩ other

@[simp] theorem linter_put (store : Store) (uri : String) (version : Int32) (text : String) :
    (store.put uri version text).1.linter = store.linter := rfl

@[simp] theorem get?_empty (linter : Linter) (uri : String) :
    (Store.empty linter).get? uri = none :=
  Dict.get?_empty uri

theorem keyed_empty (linter : Linter) : (Store.empty linter).Keyed := by
  intro uri document h
  rw [get?_empty] at h
  cases h

theorem keyed_put {store : Store} (h : store.Keyed) (uri : String) (version : Int32)
    (text : String) : (store.put uri version text).1.Keyed := by
  intro other document hget
  rw [get?_put] at hget
  split at hget
  · rename_i heq
    cases hget
    exact heq
  · exact h other document hget

theorem textAfter_eq (changes : List TextDocumentContentChangeEvent) :
    textAfter changes = (changes.getLast?.map (·.text)).getD "" := by
  unfold textAfter
  split
  · rename_i h; rw [h]; rfl
  · rename_i h; rw [h]; rfl

/-- A change writes what opening the document with the last text of the batch would write. -/
theorem change_eq_put {store : Store} (h : store.Keyed) (uri : String) (version : Int32)
    (changes : List TextDocumentContentChangeEvent) :
    store.change uri version changes = store.put uri version (textAfter changes) := by
  -- a change keeps the URI of the document that is there, which is the key it stands at
  have huri : ((store.get? uri).getD ⟨uri, version, ""⟩).uri = uri := by
    cases hget : store.get? uri with
    | none => rfl
    | some document => exact h uri document hget
  simp only [change, put, huri]

end TermLint.Store

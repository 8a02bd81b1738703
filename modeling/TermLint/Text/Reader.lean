/-
  TermLint.Text.Reader

  Readers: functions that take something from the front of a text and say what is
  left.  A reader carries the fact that it leaves less than it was given, so a loop
  that reads one thing after another ends by the length of the text.
-/

namespace TermLint.Text

/-- Reads an `α` from the front of a text, or fails with an `ε`. -/
structure Reader (ε α : Type) where
  /-- What was read, and the text after it. -/
  run : List Char → Except ε (α × List Char)
  /-- Something is always taken. -/
  shrinks : ∀ {s : List Char} {a : α} {rest : List Char},
    run s = .ok (a, rest) → rest.length < s.length

namespace Reader

variable {ε α β : Type}

/-- Change what was read, or refuse it. -/
def check (reader : Reader ε α) (f : α → Except ε β) : Reader ε β where
  run s :=
    match reader.run s with
    | .error e => .error e
    | .ok (a, rest) =>
      match f a with
      | .error e => .error e
      | .ok b => .ok (b, rest)
  shrinks {s b rest} h := by
    cases hr : reader.run s with
    | error e => simp [hr] at h
    | ok p =>
      obtain ⟨a, r⟩ := p
      cases hf : f a with
      | error e => simp [hr, hf] at h
      | ok b' =>
        simp only [hr, hf, Except.ok.injEq, Prod.mk.injEq] at h
        exact h.2 ▸ reader.shrinks hr

/-- Change what was read. -/
def map (reader : Reader ε α) (f : α → β) : Reader ε β :=
  reader.check fun a => .ok (f a)

end Reader
end TermLint.Text

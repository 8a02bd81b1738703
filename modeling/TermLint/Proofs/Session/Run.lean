/-
  TermLint.Proofs.Session.Run

  Whole runs of a session: the replies to the frames, one entry for each, and what
  becomes of both when runs are put together.
-/

import TermLint.Proofs.Session.Step

namespace TermLint.Session

open Rpc (Reply)

variable {session : Session}

/-- What a session answers to frames that come one after another, with an entry for each. -/
def replies (session : Session) : List String → List (Option Reply)
  | [] => []
  | frame :: rest => (session.step frame).reply :: (session.step frame).session.replies rest

@[simp] theorem length_replies (frames : List String) :
    (session.replies frames).length = frames.length := by
  induction frames generalizing session with
  | nil => rfl
  | cons frame frames ih => rw [replies, List.length_cons, List.length_cons, ih]

theorem run_append (before after : List String) :
    session.run (before ++ after) = (session.run before).run after := by
  induction before generalizing session with
  | nil => rfl
  | cons frame before ih => exact ih

theorem replies_append (before after : List String) :
    session.replies (before ++ after) =
      session.replies before ++ (session.run before).replies after := by
  induction before generalizing session with
  | nil => rfl
  | cons frame before ih =>
    rw [List.cons_append, replies, ih]
    rfl

/-- After the client has left, no frame is answered. -/
theorem replies_of_exited (h : session.exited = true) (frames : List String) :
    ∀ reply ∈ session.replies frames, reply = none := by
  induction frames with
  | nil => simp [replies]
  | cons frame frames ih =>
    intro reply hmem
    obtain ⟨hsession, hreply⟩ :
        (session.step frame).session = session ∧ (session.step frame).reply = none :=
      step_of_exited h
    rw [replies, hsession, hreply, List.mem_cons] at hmem
    rcases hmem with rfl | hmem
    · rfl
    · exact ih reply hmem

end TermLint.Session

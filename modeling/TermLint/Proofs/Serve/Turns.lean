/-
  TermLint.Proofs.Serve.Turns

  How the service comes to an end.  It goes round in turns, one for each attempt to
  read, and a malformed block sends it straight back to the stream; that this cannot
  go on for ever is due to the stream, from which each turn but the last takes
  something.  `serveWithin` is the service with a limit on its turns and no other
  reason to stop, so the claim that the service ends is that a limit suffices.

  A failure to read ends the service unless the client has left before it comes to
  that.
-/

import TermLint.Proofs.Frame.Progress
import TermLint.Proofs.Serve.Fold

namespace TermLint

open TermLint.Frame (Source Sink Reading Segment CutShort TransportFault bytesOf)
open Lsp (Message)

/-! ## Turns -/

/-- What one turn of the service comes to. -/
inductive Turn where
  /-- The service ends. -/
  | finished (report : Report)
  /-- The service goes on. -/
  | further (log : List Log.Line) (session : Session) (rest : Source) (sink : Sink)

/-- One turn of the service: an attempt to read, and what is done about it. -/
def turn (log : List Log.Line) (session : Session) (source : Source) (sink : Sink) : Turn :=
  match source.next with
  | (.ended, _) => .finished ⟨.inputClosed, session, sink, log ++ [⟨.info, "Client closed input"⟩]⟩
  | (.failed fault, _) => .finished ⟨.readFailed fault, session, sink, log⟩
  | (.malformed fault, rest) =>
    .further (log ++ [⟨.warn, "Skipping malformed frame: " ++ fault.message⟩]) session rest sink
  | (.frame text, rest) =>
    let step := session.step text
    match deliver step.reply sink with
    | (sink, false, lines) =>
      .finished ⟨.writeFailed (.host sink.refusal), step.session, sink, log ++ step.log ++ lines⟩
    | (sink, true, lines) =>
      if step.session.exited then
        .finished ⟨.exited, step.session, sink, log ++ step.log ++ lines⟩
      else .further (log ++ step.log ++ lines) step.session rest sink

/-- The service with at most so many turns; nothing when they do not suffice. -/
def serveWithin : Nat → List Log.Line → Session → Source → Sink → Option Report
  | 0, _, _, _, _ => none
  | turns + 1, log, session, source, sink =>
    match turn log session source sink with
    | .finished report => some report
    | .further log session rest sink => serveWithin turns log session rest sink

variable {log : List Log.Line} {session : Session} {source rest : Source} {sink : Sink}

/-- The service is one turn after another. -/
theorem serveFrom_eq_turn (log : List Log.Line) (session : Session) (source : Source)
    (sink : Sink) :
    serveFrom log session source sink =
      match turn log session source sink with
      | .finished report => report
      | .further log session rest sink => serveFrom log session rest sink := by
  generalize hnext : source.next = next
  obtain ⟨reading, rest⟩ := next
  rw [serveFrom_of_next hnext]
  unfold turn
  simp only [hnext]
  cases reading with
  | ended => rfl
  | failed fault => rfl
  | malformed fault => rfl
  | frame text =>
    dsimp only
    generalize deliver (session.step text).reply sink = delivered
    obtain ⟨sink', fitted, lines⟩ := delivered
    cases fitted with
    | false => rfl
    | true =>
      cases (session.step text).session.exited with
      | true => rfl
      | false => rfl

/-- A turn after which the service goes on has taken something from the stream. -/
theorem length_lt_of_turn {log' : List Log.Line} {session' : Session} {sink' : Sink}
    (h : turn log session source sink = .further log' session' rest sink') :
    rest.bytes.length < source.bytes.length := by
  unfold turn at h
  generalize hnext : source.next = next at h
  obtain ⟨reading, left⟩ := next
  cases reading with
  | ended => cases h
  | failed fault => cases h
  | malformed fault =>
    cases h
    exact Source.next_lt hnext (by simp) (by simp)
  | frame text =>
    have hlt := Source.next_lt hnext (by simp) (by simp)
    simp only at h
    split at h
    · cases h
    · split at h
      · cases h
      · cases h
        exact hlt

/-- One more turn than there are bytes is always enough. -/
theorem serveWithin_eq_some {turns : Nat} (h : source.bytes.length < turns) :
    serveWithin turns log session source sink = some (serveFrom log session source sink) := by
  induction turns generalizing log session source sink with
  | zero => exact absurd h (Nat.not_lt_zero _)
  | succ turns ih =>
    rw [serveWithin, serveFrom_eq_turn]
    cases hturn : turn log session source sink with
    | finished report => rfl
    | further log' session' rest sink' =>
      have hlt := length_lt_of_turn hturn
      exact ih (by omega)

/-! ## Failures to read -/

/-- A session goes on after a frame unless the client had left before or leaves with it. -/
theorem Session.exited_step_eq_false_iff (frame : String) :
    (session.step frame).session.exited = false ↔
      session.exited = false ∧ messageOf? frame ≠ some .exit := by
  constructor
  · intro hstep
    have hactive : session.exited = false := by
      refine Bool.eq_false_iff.mpr fun hgone => ?_
      rw [(step_of_exited hgone).1, hgone] at hstep
      cases hstep
    refine ⟨hactive, fun hexit => ?_⟩
    rw [(step_of_message hactive hexit).1] at hstep
    cases hstep
  · rintro ⟨hactive, hother⟩
    exact exited_step hactive hother

/-- Some attempt on a stream fails, and every frame that was read before it has a property. -/
def Frame.Source.FailsAfter (source : Source) (P : String → Prop) (fault : TransportFault) : Prop :=
  ∃ i, source.attempt i = .failed fault ∧ ∀ j < i, ∀ text, source.attempt j = .frame text → P text

/-- A stream fails with its first reading, or later and then the first reading counts as well. -/
theorem failsAfter_iff_of_next {reading : Reading} {P : String → Prop} {fault : TransportFault}
    (h : source.next = (reading, rest)) :
    source.FailsAfter P fault ↔
      reading = .failed fault ∨
        (∀ text, reading = .frame text → P text) ∧ rest.FailsAfter P fault := by
  have hfirst : source.attempt 0 = reading := by rw [Source.attempt, Source.after, h]
  constructor
  · rintro ⟨i, hfailed, hframes⟩
    cases i with
    | zero => exact .inl (hfirst.symm.trans hfailed)
    | succ i =>
      rw [Source.attempt_succ h] at hfailed
      refine .inr ⟨fun text htext => ?_, i, hfailed, fun j hj text htext => ?_⟩
      · exact hframes 0 (Nat.zero_lt_succ i) text (hfirst.trans htext)
      · apply hframes (j + 1) (Nat.succ_lt_succ hj) text
        rw [Source.attempt_succ h, htext]
  · rintro (hfailed | ⟨hreading, i, hfailed, hframes⟩)
    · exact ⟨0, hfirst.trans hfailed, fun j hj => absurd hj (Nat.not_lt_zero j)⟩
    · refine ⟨i + 1, by rw [Source.attempt_succ h, hfailed], fun j hj text htext => ?_⟩
      cases j with
      | zero => exact hreading text (hfirst.symm.trans htext)
      | succ j =>
        rw [Source.attempt_succ h] at htext
        exact hframes j (Nat.lt_of_succ_lt_succ hj) text htext

/-- Nothing fails after a stream is over or has failed. -/
theorem not_failsAfter_rest {reading : Reading} {P : String → Prop} {fault : TransportFault}
    (hclosed : source.ending = .closed) (h : source.next = (reading, rest))
    (hreading : reading = .ended ∨ ∃ found, reading = .failed found) :
    ¬ rest.FailsAfter P fault := by
  have hrest := Frame.next_leaves_nothing h hreading
  rw [hclosed] at hrest
  subst hrest
  rintro ⟨i, hfailed, -⟩
  rw [Frame.attempt_nil] at hfailed
  cases hfailed

/-- The service ends in a failure to read exactly when the stream fails and the client has not left
before that. -/
theorem serveFrom_readFailed_iff (hclosed : source.ending = .closed) (hsink : sink.room = none)
    (fault : TransportFault) :
    (serveFrom log session source sink).outcome = .readFailed fault ↔
      source.FailsAfter (fun text => session.exited = false ∧ messageOf? text ≠ some .exit)
        fault := by
  induction source using Frame.Source.next_induction generalizing log session sink with
  | ended source rest hnext =>
    rw [serveFrom_of_next hnext, failsAfter_iff_of_next hnext]
    simp [not_failsAfter_rest hclosed hnext (.inl rfl)]
  | failed source rest found hnext =>
    rw [serveFrom_of_next hnext, failsAfter_iff_of_next hnext]
    simp [not_failsAfter_rest hclosed hnext (.inr ⟨found, rfl⟩)]
  | malformed source rest malformation hnext ih =>
    have hrest := (Frame.next_takes hnext).1.trans hclosed
    rw [serveFrom_of_next hnext, failsAfter_iff_of_next hnext, ih hrest hsink]
    simp
  | frame source rest text hnext ih =>
    have hrest := (Frame.next_takes hnext).1.trans hclosed
    have hgoes := session.exited_step_eq_false_iff text
    rw [serveFrom_of_frame hnext hsink, failsAfter_iff_of_next hnext]
    cases hgone : (session.step text).session.exited with
    | true =>
      -- the service is over, and no failure after this frame counts
      have hleft : ¬ (session.exited = false ∧ messageOf? text ≠ some .exit) := by
        rw [← hgoes, hgone]
        simp
      simp [hleft]
    | false =>
      -- the frame has the property, so what is left decides
      obtain ⟨hactive, hother⟩ := hgoes.mp hgone
      have hroom : (sink.extend (replyBytes (session.step text).reply)).room = none := hsink
      rw [if_neg (by simp), ih hrest hroom]
      simp [hactive, hother, hgone]

/-! ## The end -/

/-- Reading a closed stream, and serving it to a sink without bound.  Every attempt to read that does
not find the stream at its end takes at least one byte; so there are no more of these than bytes, and
all attempts after them find the end.  An attempt fails exactly when it comes to where the stream
ends inside a header block or inside a body that is not too large; no other attempt does, and the
next one finds the end.  The service ends after at most one turn for each byte and one more, and it
ends in a failure to read exactly when there is one that no frame with which the client leaves comes
before. -/
theorem serve_ends (session : Session) (bytes : List UInt8) (hsink : sink.room = none) :
    (∀ i, (Source.mk bytes .closed).attempt i ≠ .ended → ∃ taken, taken ≠ [] ∧
      ((Source.mk bytes .closed).after i).bytes =
        taken ++ ((Source.mk bytes .closed).after (i + 1)).bytes) ∧
    (∃ k ≤ bytes.length, ∀ i, (Source.mk bytes .closed).attempt i = .ended ↔ k ≤ i) ∧
    (∀ i fault, (Source.mk bytes .closed).attempt i = .failed fault ↔
      ∃ (segments : List Segment) (rest : List UInt8), segments.length = i ∧
        bytes = segments.flatMap Segment.wire ++ rest ∧ CutShort rest fault) ∧
    (∀ i fault, (Source.mk bytes .closed).attempt i = .failed fault →
      (Source.mk bytes .closed).attempt (i + 1) = .ended ∧
        ∀ j fault', (Source.mk bytes .closed).attempt j = .failed fault' → j = i) ∧
    serveWithin (bytes.length + 1) [] session ⟨bytes, .closed⟩ sink =
      some (serve session ⟨bytes, .closed⟩ sink) ∧
    ∀ fault, (serve session ⟨bytes, .closed⟩ sink).outcome = .readFailed fault ↔
      ∃ i, (Source.mk bytes .closed).attempt i = .failed fault ∧
        ∀ j < i, ∀ text, (Source.mk bytes .closed).attempt j = .frame text →
          session.exited = false ∧ messageOf? text ≠ some .exit := by
  refine ⟨?_, Frame.exists_endsAfter ⟨bytes, .closed⟩ rfl, Frame.attempt_failed_iff bytes, ?_,
    serveWithin_eq_some (Nat.lt_succ_self _), serveFrom_readFailed_iff rfl hsink⟩
  · intro i hreading
    have hnext : ((Source.mk bytes .closed).after i).next =
        ((Source.mk bytes .closed).attempt i, (Source.mk bytes .closed).after (i + 1)) :=
      Prod.ext rfl (Source.after_succ _ i).symm
    obtain ⟨-, taken, hbytes, htaken⟩ := Frame.next_takes hnext
    exact ⟨taken, htaken (Frame.ending_after _ i) hreading, hbytes⟩
  · intro i fault hfailed
    refine ⟨Frame.attempt_of_failed rfl hfailed (Nat.lt_succ_self i), fun j fault' hother => ?_⟩
    -- of two failures the later one would come after the end
    rcases Nat.lt_trichotomy i j with hlt | heq | hgt
    · rw [Frame.attempt_of_failed rfl hfailed hlt] at hother
      cases hother
    · exact heq.symm
    · rw [Frame.attempt_of_failed rfl hother hgt] at hfailed
      cases hfailed

/-- A header without a length, and a body that is cut after two of its five bytes. -/
theorem serve_ends_cut :
    (Source.mk (bytesOf "X: 1\n\nContent-Length: 5\n\nab") .closed).attempt 1 =
        .failed .bodyCut ∧
      (Source.mk (bytesOf "X: 1\n\nContent-Length: 5\n\nab") .closed).attempt 2 = .ended ∧
      (serve Session.standard ⟨bytesOf "X: 1\n\nContent-Length: 5\n\nab", .closed⟩
        Sink.unbounded).outcome = .readFailed .bodyCut := by
  have hfailed : (Source.mk (bytesOf "X: 1\n\nContent-Length: 5\n\nab") .closed).attempt 1 =
      .failed .bodyCut := by
    decide +kernel
  have hfirst : (Source.mk (bytesOf "X: 1\n\nContent-Length: 5\n\nab") .closed).attempt 0 =
      .malformed .noLength := by
    decide +kernel
  have hroom : Sink.unbounded.room = none := rfl
  obtain ⟨-, -, -, hend, -, hserve⟩ := serve_ends Session.standard
    (bytesOf "X: 1\n\nContent-Length: 5\n\nab") hroom
  refine ⟨hfailed, (hend 1 .bodyCut hfailed).1, (hserve .bodyCut).mpr ⟨1, hfailed, ?_⟩⟩
  intro j hj text htext
  obtain rfl : j = 0 := by omega
  rw [hfirst] at htext
  cases htext

end TermLint

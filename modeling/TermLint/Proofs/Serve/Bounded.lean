/-
  TermLint.Proofs.Serve.Bounded

  Serving to a sink that has room for so many bytes only.  Such a run is compared
  with the run that writes the same replies to a sink without bound.  Until a reply
  does not fit, the two go on in step, the bounded sink having less room after each
  reply; the first reply that does not fit is written as far as there is room and
  ends the run.  The session has taken the frame by then, so it is one frame ahead
  of what the client has been told.
-/

import TermLint.Proofs.Frame.Progress
import TermLint.Proofs.Serve.Causality

namespace TermLint

open TermLint.Frame (Source Sink bytesOf)
open Rpc (Reply)

variable {session : Session} {source rest : Source} {log : List Log.Line}
  {written : List UInt8} {n : Nat} {refusal : String}

/-! ## What a session sends -/

/-- The bytes that a session sends in answer to frames. -/
def Session.sent (session : Session) (frames : List String) : List UInt8 :=
  (session.replies frames).flatMap replyBytes

theorem Session.sent_cons (frame : String) (frames : List String) :
    session.sent (frame :: frames) =
      replyBytes (session.step frame).reply ++ (session.step frame).session.sent frames := by
  rw [sent, replies, List.flatMap_cons]
  rfl

theorem Session.sent_singleton (frame : String) :
    session.sent [frame] = replyBytes (session.step frame).reply := by
  rw [sent_cons]
  exact List.append_nil _

/-- What the service writes when nothing stops it from writing. -/
def serveOutput (session : Session) (source : Source) : List UInt8 :=
  (serve session source Sink.unbounded).sink.written

theorem serveOutput_eq (session : Session) (source : Source) :
    serveOutput session source = session.sent source.frames := by
  have hroom : Sink.unbounded.room = none := rfl
  obtain ⟨-, hwritten⟩ := serveFrom_frames [] session source hroom
  rw [serveOutput, serve, hwritten]
  rfl

/-! ## One turn -/

/-- A reply that fits takes its length from the room; one that does not fit takes all of it. -/
theorem deliver_bounded (reply : Option Reply) :
    deliver reply ⟨written, some n, refusal⟩ =
      if (replyBytes reply).length ≤ n then
        (⟨written ++ replyBytes reply, some (n - (replyBytes reply).length), refusal⟩, true,
          replyLog reply)
      else (⟨written ++ (replyBytes reply).take n, some 0, refusal⟩, false, []) := by
  cases reply with
  | none =>
    have hnone : (replyBytes none).length ≤ n := Nat.zero_le n
    rw [if_pos hnone]
    simp only [deliver, replyBytes, replyLog, List.append_nil, List.length_nil, Nat.sub_zero]
  | some reply =>
    simp only [deliver, Sink.write, replyBytes, replyLog]
    by_cases hfits : (bytesOf reply.frame).length ≤ n
    · simp only [hfits, decide_true, if_true, List.take_of_length_le]
    · have hroom : n - (bytesOf reply.frame).length = 0 := by omega
      simp only [hfits, decide_false, if_false, hroom]

/-- A frame whose reply fits is taken as it is where there is no bound. -/
theorem serveFrom_of_fits {text : String} (h : source.next = (.frame text, rest))
    (hfits : (replyBytes (session.step text).reply).length ≤ n) :
    serveFrom log session source ⟨written, some n, refusal⟩ =
      if (session.step text).session.exited then
        ⟨.exited, (session.step text).session,
          ⟨written ++ replyBytes (session.step text).reply,
            some (n - (replyBytes (session.step text).reply).length), refusal⟩,
          log ++ (session.step text).log ++ replyLog (session.step text).reply⟩
      else
        serveFrom (log ++ (session.step text).log ++ replyLog (session.step text).reply)
          (session.step text).session rest
          ⟨written ++ replyBytes (session.step text).reply,
            some (n - (replyBytes (session.step text).reply).length), refusal⟩ := by
  rw [serveFrom_of_next h]
  simp only [deliver_bounded, if_pos hfits]

/-- A frame whose reply does not fit is taken, and ends the service. -/
theorem serveFrom_of_overflow {text : String} (h : source.next = (.frame text, rest))
    (hover : n < (replyBytes (session.step text).reply).length) :
    serveFrom log session source ⟨written, some n, refusal⟩ =
      ⟨.writeFailed (.host refusal), (session.step text).session,
        ⟨written ++ (replyBytes (session.step text).reply).take n, some 0, refusal⟩,
        log ++ (session.step text).log ++ []⟩ := by
  have hnot : ¬ (replyBytes (session.step text).reply).length ≤ n := Nat.not_le.mpr hover
  rw [serveFrom_of_next h]
  simp only [deliver_bounded, if_neg hnot]

/-! ## Whole runs -/

/-- Two reports that differ in the sink only. -/
structure Report.SameCourse (a b : Report) : Prop where
  outcome : a.outcome = b.outcome
  session : a.session = b.session
  log : a.log = b.log

/-- Where there is room for all replies, the bound makes no difference. -/
theorem serveFrom_bounded_of_le (log : List Log.Line) (written : List UInt8) (refusal : String)
    {sink : Sink} (hsink : sink.room = none)
    (hfits : (session.sent source.frames).length ≤ n) :
    (serveFrom log session source ⟨written, some n, refusal⟩).SameCourse
        (serveFrom log session source sink) ∧
      (serveFrom log session source ⟨written, some n, refusal⟩).sink.written =
        written ++ session.sent source.frames := by
  induction source using Frame.Source.next_induction generalizing log session written n sink with
  | ended source rest hnext =>
    rw [serveFrom_of_next hnext, serveFrom_of_next hnext, Frame.frames_of_ended hnext]
    exact ⟨⟨rfl, rfl, rfl⟩, (List.append_nil _).symm⟩
  | failed source rest fault hnext =>
    rw [serveFrom_of_next hnext, serveFrom_of_next hnext, Frame.frames_of_failed hnext]
    exact ⟨⟨rfl, rfl, rfl⟩, (List.append_nil _).symm⟩
  | malformed source rest fault hnext ih =>
    rw [Frame.frames_of_malformed hnext] at hfits ⊢
    rw [serveFrom_of_next hnext, serveFrom_of_next hnext]
    exact ih _ _ hsink hfits
  | frame source rest text hnext ih =>
    rw [Frame.frames_of_frame hnext, Session.sent_cons] at hfits ⊢
    rw [List.length_append] at hfits
    have hreply : (replyBytes (session.step text).reply).length ≤ n := by omega
    rw [serveFrom_of_fits hnext hreply, serveFrom_of_frame hnext hsink]
    cases hgone : (session.step text).session.exited with
    | true =>
      have hsilent : (session.step text).session.sent rest.frames = [] :=
        Session.flatMap_replies_of_exited hgone rest.frames
      rw [if_pos rfl, if_pos rfl, hsilent, List.append_nil]
      exact ⟨⟨rfl, rfl, rfl⟩, rfl⟩
    | false =>
      -- what is left to send fits into the room that is left
      have hrest : ((session.step text).session.sent rest.frames).length ≤
          n - (replyBytes (session.step text).reply).length := by omega
      have hroom : (sink.extend (replyBytes (session.step text).reply)).room = none := hsink
      rw [← List.append_assoc]
      exact ih _ _ hroom hrest

/-- Where there is no room for all replies, the frames up to the first whose reply does not fit are
taken, and the sink is filled. -/
theorem serveFrom_bounded_of_lt (log : List Log.Line) (written : List UInt8) (refusal : String)
    (hover : n < (session.sent source.frames).length) :
    ∃ before frame after, source.frames = before ++ frame :: after ∧
      (session.sent before).length ≤ n ∧ n < (session.sent (before ++ [frame])).length ∧
      (serveFrom log session source ⟨written, some n, refusal⟩).outcome =
        .writeFailed (.host refusal) ∧
      (serveFrom log session source ⟨written, some n, refusal⟩).session =
        session.run (before ++ [frame]) ∧
      (serveFrom log session source ⟨written, some n, refusal⟩).sink.written =
        written ++ (session.sent source.frames).take n := by
  induction source using Frame.Source.next_induction generalizing log session written n with
  | ended source rest hnext =>
    rw [Frame.frames_of_ended hnext] at hover
    exact absurd hover (Nat.not_lt_zero n)
  | failed source rest fault hnext =>
    rw [Frame.frames_of_failed hnext] at hover
    exact absurd hover (Nat.not_lt_zero n)
  | malformed source rest fault hnext ih =>
    rw [Frame.frames_of_malformed hnext] at hover ⊢
    rw [serveFrom_of_next hnext]
    exact ih _ _ hover
  | frame source rest text hnext ih =>
    rw [Frame.frames_of_frame hnext, Session.sent_cons] at hover ⊢
    rw [List.length_append] at hover
    by_cases hreply : n < (replyBytes (session.step text).reply).length
    · -- this is the frame whose reply does not fit
      refine ⟨[], text, rest.frames, rfl, Nat.zero_le n, ?_, ?_⟩
      · rw [List.nil_append, Session.sent_singleton]
        exact hreply
      · rw [serveFrom_of_overflow hnext hreply, List.take_append_of_le_length (Nat.le_of_lt hreply)]
        exact ⟨rfl, rfl, rfl⟩
    · have hfits : (replyBytes (session.step text).reply).length ≤ n := Nat.not_lt.mp hreply
      have hactive : (session.step text).session.exited = false := by
        -- a client that has left is sent nothing more
        refine Bool.eq_false_iff.mpr fun hgone => ?_
        have hsilent : (session.step text).session.sent rest.frames = [] :=
          Session.flatMap_replies_of_exited hgone rest.frames
        rw [hsilent, List.length_nil] at hover
        omega
      have hrest : n - (replyBytes (session.step text).reply).length <
          ((session.step text).session.sent rest.frames).length := by omega
      obtain ⟨before, frame, after, hframes, hbefore, hframe, houtcome, hsession, hwritten⟩ :=
        ih (log ++ (session.step text).log ++ replyLog (session.step text).reply)
          (written ++ replyBytes (session.step text).reply) hrest
      rw [serveFrom_of_fits hnext hfits, if_neg (by simp [hactive])]
      refine ⟨text :: before, frame, after, ?_, ?_, ?_, houtcome, hsession, ?_⟩
      · rw [hframes, List.cons_append]
      · rw [Session.sent_cons, List.length_append]
        omega
      · rw [List.cons_append, Session.sent_cons, List.length_append]
        omega
      · rw [hwritten, List.append_assoc, List.take_append, List.take_of_length_le hfits]

theorem outcome_ne_writeFailed {sink : Sink} (hsink : sink.room = none)
    (fault : Frame.TransportFault) :
    (serveFrom log session source sink).outcome ≠ .writeFailed fault := by
  induction source using Frame.Source.next_induction generalizing log session sink with
  | ended source rest hnext =>
    rw [serveFrom_of_next hnext]
    simp
  | failed source rest fault' hnext =>
    rw [serveFrom_of_next hnext]
    simp
  | malformed source rest fault' hnext ih =>
    rw [serveFrom_of_next hnext]
    exact ih hsink
  | frame source rest text hnext ih =>
    rw [serveFrom_of_frame hnext hsink]
    split
    · simp
    · exact ih hsink

/-! ## Bounded and unbounded -/

theorem head?_causes_eq_iff (outcome : Outcome) :
    outcome.causes.head? = some "writing LSP frame" ↔ ∃ fault, outcome = .writeFailed fault := by
  cases outcome with
  | inputClosed => simp [Outcome.causes]
  | exited => simp [Outcome.causes]
  | readFailed fault => simp [Outcome.causes]
  | writeFailed fault => simp [Outcome.causes]

/-- Serving to a sink with room for `n` bytes, as compared with serving to one without bound.  The
sink gets the first `n` bytes of the output.  The run ends in a failure to write exactly when there
are more; if there are not, it ends as the other one does, and in the same session.  If it fails,
the session has taken the frames up to the first one whose reply did not fit, with that one. -/
theorem serve_bounded (session : Session) (source : Source) (n : Nat) (refusal : String) :
    (serve session source (Sink.bounded n refusal)).sink.written =
        (serveOutput session source).take n ∧
    ((serve session source (Sink.bounded n refusal)).outcome.causes.head? =
        some "writing LSP frame" ↔ n < (serveOutput session source).length) ∧
    ((serveOutput session source).length ≤ n →
      (serve session source (Sink.bounded n refusal)).SameCourse
        (serve session source Sink.unbounded)) ∧
    (n < (serveOutput session source).length →
      (serve session source (Sink.bounded n refusal)).outcome = .writeFailed (.host refusal) ∧
      ∃ before frame after, source.frames = before ++ frame :: after ∧
        (session.sent before).length ≤ n ∧ n < (session.sent (before ++ [frame])).length ∧
        (serve session source (Sink.bounded n refusal)).session =
          session.run (before ++ [frame])) := by
  rw [serveOutput_eq, head?_causes_eq_iff]
  by_cases hover : n < (session.sent source.frames).length
  · obtain ⟨before, frame, after, hframes, hbefore, hframe, houtcome, hsession, hwritten⟩ :=
      serveFrom_bounded_of_lt [] [] refusal hover
    refine ⟨hwritten, iff_of_true ⟨_, houtcome⟩ hover, fun hfits => ?_, fun _ => ?_⟩
    · exact absurd hover (Nat.not_lt.mpr hfits)
    · exact ⟨houtcome, before, frame, after, hframes, hbefore, hframe, hsession⟩
  · have hfits : (session.sent source.frames).length ≤ n := Nat.not_lt.mp hover
    have hroom : Sink.unbounded.room = none := rfl
    obtain ⟨hcourse, hwritten⟩ := serveFrom_bounded_of_le [] [] refusal hroom hfits
    refine ⟨?_, iff_of_false ?_ hover, fun _ => hcourse, fun h => absurd h hover⟩
    · rw [List.take_of_length_le hfits]
      exact hwritten
    · rintro ⟨fault, hfailed⟩
      have hunbounded := hcourse.outcome.symm.trans hfailed
      exact outcome_ne_writeFailed rfl fault hunbounded

/-- The reply to a request is cut after its third byte; the session has been shut down all the
same. -/
theorem serve_bounded_cut :
    3 < (serveOutput Session.standard
        ⟨bytesOf (Frame.encode (.array [.int 1, .string "2.0", .string "shutdown"])),
          .closed⟩).length ∧
    (serve Session.standard
        ⟨bytesOf (Frame.encode (.array [.int 1, .string "2.0", .string "shutdown"])), .closed⟩
        (Sink.bounded 3 "sink is full")).outcome = .writeFailed (.host "sink is full") ∧
    (serve Session.standard
        ⟨bytesOf (Frame.encode (.array [.int 1, .string "2.0", .string "shutdown"])), .closed⟩
        (Sink.bounded 3 "sink is full")).session.phase = .shutDown := by
  have hover : 3 < (serveOutput Session.standard
      ⟨bytesOf (Frame.encode (.array [.int 1, .string "2.0", .string "shutdown"])),
        .closed⟩).length := by
    decide +kernel
  obtain ⟨-, -, -, hfailed⟩ := serve_bounded Session.standard
    ⟨bytesOf (Frame.encode (.array [.int 1, .string "2.0", .string "shutdown"])), .closed⟩ 3
    "sink is full"
  exact ⟨hover, (hfailed hover).1, by decide +kernel⟩

end TermLint

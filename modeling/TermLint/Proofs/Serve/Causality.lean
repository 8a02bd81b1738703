/-
  TermLint.Proofs.Serve.Causality

  Replies depend on what has been received.  The service gives the frames of its
  stream to the session and writes the replies (`serve_frames`), so it is enough to
  compare the frames of a stream with those of a longer one.  They are the same up
  to the last segment that the shorter stream completes.  After it the shorter
  stream can only give a frame without a body, which the session drops: the end of
  a stream may count as a line end or as the end of a header, but never as a body.
-/

import TermLint.Proofs.Frame.Canonical
import TermLint.Proofs.Serve.Fold

namespace TermLint

open TermLint.Frame (Source Sink Segment Reading Ending IsRemnant bytesOf)
open Rpc (Reply)

/-! ## The frames of a stream -/

namespace Frame

variable {source rest : Source} {ending : Ending}

/-- The frame of a reading that gives one. -/
def Reading.frame? : Reading → Option String
  | .frame text => some text
  | _ => none

/-- The frames of a stream, in order. -/
def Source.frames (source : Source) : List String :=
  source.readings.filterMap Reading.frame?

theorem frames_of_ended (h : source.next = (.ended, rest)) : source.frames = [] := by
  rw [Source.frames, Source.readings]
  split
  all_goals
    rename_i hnext
    rw [h] at hnext
    cases hnext
  rfl

theorem frames_of_failed {fault : TransportFault} (h : source.next = (.failed fault, rest)) :
    source.frames = [] := by
  rw [Source.frames, Source.readings]
  split
  all_goals
    rename_i hnext
    rw [h] at hnext
    cases hnext
  split
  · rfl
  · rfl

theorem frames_of_malformed {fault : FramingFault} (h : source.next = (.malformed fault, rest)) :
    source.frames = rest.frames := by
  rw [Source.frames, readings_of_next h (by simp) (by simp)]
  rfl

theorem frames_of_frame {text : String} (h : source.next = (.frame text, rest)) :
    source.frames = text :: rest.frames := by
  rw [Source.frames, readings_of_next h (by simp) (by simp)]
  rfl

/-- The frames of segments come before those of what follows. -/
theorem frames_append (segments : List Segment) (rest : List UInt8) (ending : Ending) :
    (Source.mk (segments.flatMap Segment.wire ++ rest) ending).frames =
      segments.filterMap (fun segment => segment.reading.frame?) ++
        (Source.mk rest ending).frames := by
  rw [Source.frames, readings_append, List.filterMap_append, List.filterMap_map]
  rfl

theorem frames_nil (ending : Ending) : (Source.mk [] ending).frames = [] := by
  cases ending with
  | closed => exact frames_of_ended next_nil
  | broken reason =>
    have hnext : (Source.mk [] (.broken reason)).next =
        (.failed (.host reason), ⟨[], .broken reason⟩) := by
      rw [Source.next, blockFrom]
      rfl
    exact frames_of_failed hnext

/-- A remnant has no frame with a body. -/
theorem split_of_mem_frames {bytes : List UInt8} (h : IsRemnant bytes) {frame : String}
    (hmem : frame ∈ (Source.mk bytes ending).frames) : split frame = .error .emptyBody := by
  obtain ⟨hbodiless, hrest⟩ := next_of_isRemnant h ending
  generalize hnext : Source.next ⟨bytes, ending⟩ = next at hbodiless hrest
  obtain ⟨reading, rest⟩ := next
  simp only at hbodiless hrest
  subst hrest
  cases hbodiless with
  | ended =>
    rw [frames_of_ended hnext] at hmem
    cases hmem
  | failed fault =>
    rw [frames_of_failed hnext] at hmem
    cases hmem
  | malformed fault =>
    rw [frames_of_malformed hnext, frames_nil] at hmem
    cases hmem
  | frame head htext hlength =>
    rw [frames_of_frame hnext, frames_nil, List.mem_singleton] at hmem
    have hsplit := split_append (head.firstCut htext "") hlength (Nat.zero_le _)
    rwa [String.append_empty, if_pos rfl, ← hmem] at hsplit

end Frame

/-! ## Serving the frames of a stream -/

variable {session : Session} {sink : Sink}

theorem Session.flatMap_replies_of_exited (h : session.exited = true) (frames : List String) :
    (session.replies frames).flatMap replyBytes = [] := by
  rw [List.flatMap_eq_nil_iff]
  intro reply hmem
  rw [session.replies_of_exited h frames reply hmem]
  rfl

/-- The service gives all frames of its stream to the session and writes the replies. -/
theorem serveFrom_frames (log : List Log.Line) (session : Session) (source : Source) {sink : Sink}
    (hsink : sink.room = none) :
    (serveFrom log session source sink).session = session.run source.frames ∧
      (serveFrom log session source sink).sink.written =
        sink.written ++ (session.replies source.frames).flatMap replyBytes := by
  generalize hnext : source.next = next
  obtain ⟨reading, rest⟩ := next
  cases reading with
  | ended =>
    rw [serveFrom_of_next hnext, Frame.frames_of_ended hnext]
    exact ⟨rfl, (List.append_nil _).symm⟩
  | failed fault =>
    rw [serveFrom_of_next hnext, Frame.frames_of_failed hnext]
    exact ⟨rfl, (List.append_nil _).symm⟩
  | malformed fault =>
    have hlt := Source.next_lt hnext (by simp) (by simp)
    rw [serveFrom_of_next hnext, Frame.frames_of_malformed hnext]
    exact serveFrom_frames _ session rest hsink
  | frame text =>
    have hlt := Source.next_lt hnext (by simp) (by simp)
    rw [serveFrom_of_frame hnext hsink, Frame.frames_of_frame hnext, Session.run, Session.replies,
      List.flatMap_cons]
    split
    · -- once the client has left, the frames that are not read would change nothing
      rename_i hgone
      rw [Session.run_of_exited hgone, Session.flatMap_replies_of_exited hgone, List.append_nil]
      exact ⟨rfl, rfl⟩
    · have hroom : (sink.extend (replyBytes (session.step text).reply)).room = none := hsink
      obtain ⟨hsession, hwritten⟩ := serveFrom_frames
        (log ++ (session.step text).log ++ replyLog (session.step text).reply)
        (session.step text).session rest hroom
      refine ⟨hsession, ?_⟩
      rw [hwritten, ← List.append_assoc]
      rfl
termination_by source.bytes.length

/-! ## Frames without a body -/

theorem Session.step_of_split_error {frame : String} {fault : Frame.FramingFault}
    (h : Frame.split frame = .error fault) :
    (session.step frame).session = session ∧ (session.step frame).reply = none := by
  rw [Session.step, (Rpc.ofFrame_framing_iff frame fault).mpr h]
  exact ⟨rfl, rfl⟩

/-- Frames that cannot be taken apart leave no trace. -/
theorem Session.run_of_split_error {frames : List String}
    (h : ∀ frame ∈ frames, Frame.split frame = .error .emptyBody) :
    session.run frames = session ∧ (session.replies frames).flatMap replyBytes = [] := by
  induction frames with
  | nil => exact ⟨rfl, rfl⟩
  | cons frame frames ih =>
    obtain ⟨hsession, hreply⟩ := session.step_of_split_error (h frame List.mem_cons_self)
    obtain ⟨hrun, hreplies⟩ := ih fun f hf => h f (List.mem_cons_of_mem _ hf)
    rw [Session.run, Session.replies, hsession, hreply, List.flatMap_cons, hreplies]
    exact ⟨hrun, rfl⟩

/-! ## Cutting a stream -/

/-- Wherever a stream is cut, and however either stream ends, the bytes that are written for the
part before the cut come first among those that are written for the whole.  The session is given
frames for the part, and for the whole the same frames and perhaps more after them. -/
theorem serve_causal (hsink : sink.room = none) (s t : List UInt8) (ending ending' : Ending) :
    (serve session ⟨s, ending⟩ sink).sink.written <+:
        (serve session ⟨s ++ t, ending'⟩ sink).sink.written ∧
      ∃ frames more : List String,
        (serve session ⟨s, ending⟩ sink).session = session.run frames ∧
        (serve session ⟨s, ending⟩ sink).sink.written =
          sink.written ++ (session.replies frames).flatMap replyBytes ∧
        (serve session ⟨s ++ t, ending'⟩ sink).session = session.run (frames ++ more) ∧
        (serve session ⟨s ++ t, ending'⟩ sink).sink.written =
          sink.written ++ (session.replies (frames ++ more)).flatMap replyBytes := by
  obtain ⟨segments, remnant, hremnant, hbytes⟩ := Frame.exists_segments s
  let frames := segments.filterMap fun segment => segment.reading.frame?
  have hpart : (Source.mk s ending).frames = frames ++ (Source.mk remnant ending).frames := by
    rw [hbytes, Frame.frames_append]
  have hwhole : (Source.mk (s ++ t) ending').frames =
      frames ++ (Source.mk (remnant ++ t) ending').frames := by
    rw [hbytes, List.append_assoc, Frame.frames_append]
  -- what the remnant gives when the stream ends in it is dropped
  obtain ⟨hrun, hreplies⟩ := (session.run frames).run_of_split_error fun frame hmem =>
    Frame.split_of_mem_frames hremnant hmem
  obtain ⟨hsession, hwritten⟩ := serveFrom_frames [] session ⟨s, ending⟩ hsink
  rw [hpart, Session.run_append, hrun] at hsession
  rw [hpart, Session.replies_append, List.flatMap_append, hreplies, List.append_nil] at hwritten
  obtain ⟨hsession', hwritten'⟩ := serveFrom_frames [] session ⟨s ++ t, ending'⟩ hsink
  rw [hwhole] at hsession' hwritten'
  refine ⟨?_, frames, (Source.mk (remnant ++ t) ending').frames, hsession, hwritten, hsession',
    hwritten'⟩
  rw [serve, serve, hwritten, hwritten', Session.replies_append, List.flatMap_append,
    ← List.append_assoc]
  exact List.prefix_append _ _

/-- A request and the beginning of a header that is complete only because the stream ends: its last
length is zero so far, and another one follows where the stream goes on. -/
theorem serve_causal_header_cut :
    (serve Session.standard
        ⟨bytesOf (Frame.encode (.array [.int 1, .string "2.0", .string "shutdown"])) ++
          bytesOf "Content-Length: 0\n\r", .closed⟩ Sink.unbounded).sink.written =
      bytesOf (Reply.result (.number 1) .null).frame ∧
    bytesOf (Reply.result (.number 1) .null).frame <+:
      (serve Session.standard
        ⟨bytesOf (Frame.encode (.array [.int 1, .string "2.0", .string "shutdown"])) ++
          bytesOf "Content-Length: 0\n\r" ++
          bytesOf "Content-Length: 20\n\n[2,\"2.0\",\"shutdown\"]", .closed⟩
        Sink.unbounded).sink.written := by
  have hwritten : (serve Session.standard
        ⟨bytesOf (Frame.encode (.array [.int 1, .string "2.0", .string "shutdown"])) ++
          bytesOf "Content-Length: 0\n\r", .closed⟩ Sink.unbounded).sink.written =
      bytesOf (Reply.result (.number 1) .null).frame := by
    decide +kernel
  refine ⟨hwritten, ?_⟩
  rw [← hwritten]
  exact (serve_causal rfl _ _ .closed .closed).1

end TermLint

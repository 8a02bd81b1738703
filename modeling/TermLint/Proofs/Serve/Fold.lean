/-
  TermLint.Proofs.Serve.Fold

  The service as a run of the session.  A stream of encoded values, with malformed
  blocks anywhere between them, is served as if the session were given the frames
  one after another: the replies are written in the order of the frames, malformed
  blocks leave no trace in what is written, and nothing is read after the frame with
  which the client leaves.
-/

import TermLint.Proofs.Frame.Encoded
import TermLint.Proofs.Session.Run
import TermLint.Serve

namespace TermLint

open TermLint.Frame (Source Sink Segment Reading Ending FramingFault bytesOf)
open Rpc (Reply)

variable {session : Session} {source rest : Source} {sink : Sink} {log : List Log.Line}

/-! ## Writing without bound -/

/-- The bytes of a reply, which are none where there is no reply. -/
def replyBytes : Option Reply → List UInt8
  | none => []
  | some reply => bytesOf reply.frame

/-- What the log says about a reply that has been written. -/
def replyLog : Option Reply → List Log.Line
  | none => []
  | some _ => [⟨.debug, "Sent the response"⟩]

/-- A sink to which more has been written. -/
def Frame.Sink.extend (sink : Sink) (bytes : List UInt8) : Sink :=
  { sink with written := sink.written ++ bytes }

theorem Frame.Sink.extend_nil (sink : Sink) : sink.extend [] = sink := by
  rw [extend, List.append_nil]

theorem Frame.Sink.extend_extend (sink : Sink) (first more : List UInt8) :
    (sink.extend first).extend more = sink.extend (first ++ more) := by
  simp only [extend, List.append_assoc]

theorem deliver_of_room_eq_none (h : sink.room = none) (reply : Option Reply) :
    deliver reply sink = (sink.extend (replyBytes reply), true, replyLog reply) := by
  cases reply with
  | none => rw [deliver, replyBytes, Sink.extend_nil, replyLog]
  | some reply =>
    simp only [deliver, Sink.write, Sink.extend, h]
    rfl

/-! ## One turn of the service -/

/-- What the service does about the next reading of its stream. -/
theorem serveFrom_of_next {reading : Reading} (h : source.next = (reading, rest)) :
    serveFrom log session source sink =
      match reading with
      | .ended => ⟨.inputClosed, session, sink, log ++ [⟨.info, "Client closed input"⟩]⟩
      | .failed fault => ⟨.readFailed fault, session, sink, log⟩
      | .malformed fault =>
        serveFrom (log ++ [⟨.warn, "Skipping malformed frame: " ++ fault.message⟩]) session rest sink
      | .frame text =>
        match deliver (session.step text).reply sink with
        | (sink, false, lines) =>
          ⟨.writeFailed (.host sink.refusal), (session.step text).session, sink,
            log ++ (session.step text).log ++ lines⟩
        | (sink, true, lines) =>
          if (session.step text).session.exited then
            ⟨.exited, (session.step text).session, sink, log ++ (session.step text).log ++ lines⟩
          else
            serveFrom (log ++ (session.step text).log ++ lines) (session.step text).session rest
              sink := by
  rw [serveFrom]
  split
  all_goals
    rename_i hnext
    obtain ⟨rfl, rfl⟩ := Prod.mk.inj (h.symm.trans hnext)
    rfl

/-- A frame is given to the session, its reply is written, and the service goes on unless the client
has left. -/
theorem serveFrom_of_frame {text : String} (h : source.next = (.frame text, rest))
    (hsink : sink.room = none) :
    serveFrom log session source sink =
      if (session.step text).session.exited then
        ⟨.exited, (session.step text).session, sink.extend (replyBytes (session.step text).reply),
          log ++ (session.step text).log ++ replyLog (session.step text).reply⟩
      else
        serveFrom (log ++ (session.step text).log ++ replyLog (session.step text).reply)
          (session.step text).session rest
          (sink.extend (replyBytes (session.step text).reply)) := by
  rw [serveFrom_of_next h]
  simp only [deliver_of_room_eq_none hsink]

/-! ## Streams of encoded values and malformed blocks -/

/-- What a client sends. -/
inductive Part where
  /-- The frame of a value. -/
  | value (v : Value) (fits : (Json.render v).utf8ByteSize ≤ Frame.maxLength)
  /-- A block that is taken whole and gives no frame. -/
  | malformed (segment : Segment) (fault : FramingFault)
      (unreadable : segment.reading = .malformed fault)

namespace Part

/-- A part on the wire. -/
def wire : Part → List UInt8
  | .value v _ => bytesOf (Frame.encode v)
  | .malformed segment _ _ => segment.wire

/-- The frame of a part that has one. -/
def frame? : Part → Option String
  | .value v _ => some (Frame.encode v)
  | .malformed _ _ _ => none

end Part

/-- The frames of parts, in order. -/
def framesOf (parts : List Part) : List String :=
  parts.filterMap Part.frame?

/-- The frame of a value is taken whole, whatever comes after it. -/
theorem next_encoded (v : Value) (fits : (Json.render v).utf8ByteSize ≤ Frame.maxLength)
    (more : List UInt8) (ending : Ending) :
    Source.next ⟨bytesOf (Frame.encode v) ++ more, ending⟩ =
      (.frame (Frame.encode v), ⟨more, ending⟩) := by
  have hnext := Frame.next_segment (Frame.written (Json.render v) fits) more ending
  rwa [Frame.wire_written, Frame.reading_written] at hnext

/-! ## The service and the session -/

/-- The frames up to the first one after which the client has left, with that one. -/
def Session.heard (session : Session) : List String → List String
  | [] => []
  | frame :: rest =>
    frame ::
      if (session.step frame).session.exited then [] else (session.step frame).session.heard rest

theorem Session.heard_of_exited {frame : String} (frames : List String)
    (h : (session.step frame).session.exited = true) :
    session.heard (frame :: frames) = [frame] := by
  rw [heard, if_pos h]

theorem Session.heard_of_active {frame : String} (frames : List String)
    (h : (session.step frame).session.exited = false) :
    session.heard (frame :: frames) = frame :: (session.step frame).session.heard frames := by
  rw [heard, if_neg (by simp [h])]

/-- What a session sends in answer to the frames that it hears. -/
def Session.output (session : Session) (frames : List String) : List UInt8 :=
  (session.replies (session.heard frames)).flatMap replyBytes

theorem Session.output_of_exited {frame : String} (frames : List String)
    (h : (session.step frame).session.exited = true) :
    session.output (frame :: frames) = replyBytes (session.step frame).reply := by
  rw [output, heard_of_exited frames h, replies, replies, List.flatMap_singleton]

theorem Session.output_of_active {frame : String} (frames : List String)
    (h : (session.step frame).session.exited = false) :
    session.output (frame :: frames) =
      replyBytes (session.step frame).reply ++ (session.step frame).session.output frames := by
  rw [output, heard_of_active frames h, replies, List.flatMap_cons, ← output]

/-- The service over parts does what the session does with their frames.  If the client leaves, that
is its end; if not, the service goes on with what comes after the parts.  What is logged on the way
depends on the parts alone. -/
theorem serveFrom_parts (hactive : session.exited = false) (hsink : sink.room = none)
    (log : List Log.Line) (parts : List Part) :
    ∃ lines, ∀ more ending,
      serveFrom log session ⟨parts.flatMap Part.wire ++ more, ending⟩ sink =
        if (session.run (session.heard (framesOf parts))).exited then
          ⟨.exited, session.run (session.heard (framesOf parts)),
            sink.extend (session.output (framesOf parts)), log ++ lines⟩
        else
          serveFrom (log ++ lines) (session.run (session.heard (framesOf parts)))
            ⟨more, ending⟩ (sink.extend (session.output (framesOf parts))) := by
  induction parts generalizing session sink log with
  | nil =>
    refine ⟨[], fun more ending => ?_⟩
    have hrun : session.run (session.heard (framesOf [])) = session := rfl
    have houtput : session.output (framesOf []) = [] := rfl
    rw [hrun, houtput, hactive, Sink.extend_nil, List.append_nil]
    rfl
  | cons part parts ih =>
    cases part with
    | malformed segment fault unreadable =>
      obtain ⟨lines, ih⟩ :=
        ih hactive hsink (log ++ [⟨.warn, "Skipping malformed frame: " ++ fault.message⟩])
      refine ⟨⟨.warn, "Skipping malformed frame: " ++ fault.message⟩ :: lines,
        fun more ending => ?_⟩
      have hnext := Frame.next_segment segment (parts.flatMap Part.wire ++ more) ending
      rw [unreadable] at hnext
      rw [List.flatMap_cons, List.append_assoc, Part.wire, serveFrom_of_next hnext]
      simp only [ih, List.append_assoc, List.singleton_append]
      rfl
    | value v fits =>
      have hnext := next_encoded v fits
      have hframes : framesOf (.value v fits :: parts) = Frame.encode v :: framesOf parts := rfl
      simp only [hframes, List.flatMap_cons, List.append_assoc, Part.wire]
      generalize Frame.encode v = frame at hnext
      cases hgone : (session.step frame).session.exited with
      | true =>
        refine ⟨(session.step frame).log ++ replyLog (session.step frame).reply,
          fun more ending => ?_⟩
        have hrun : session.run [frame] = (session.step frame).session := rfl
        rw [serveFrom_of_frame (hnext _ ending) hsink, if_pos hgone, List.append_assoc,
          Session.output_of_exited _ hgone, Session.heard_of_exited _ hgone, hrun, if_pos hgone]
      | false =>
        -- the session goes on, and so does the service with a longer log and more written
        have hroom : (sink.extend (replyBytes (session.step frame).reply)).room = none := hsink
        obtain ⟨lines, ih⟩ := ih hgone hroom
          (log ++ (session.step frame).log ++ replyLog (session.step frame).reply)
        refine ⟨(session.step frame).log ++ (replyLog (session.step frame).reply ++ lines),
          fun more ending => ?_⟩
        rw [serveFrom_of_frame (hnext _ ending) hsink, if_neg (by simp [hgone]), ih,
          Session.output_of_active _ hgone, Session.heard_of_active _ hgone, Session.run,
          Sink.extend_extend, List.append_assoc, List.append_assoc]

/-- Serving a stream of encoded values and malformed blocks, in a session that the client has not
left and to a sink without bound.  The session ends as it does when it is given the frames of the
values one after another, up to the one with which the client leaves; what is written are its
replies to these, in order; and the service ends because the client has left, or else because the
stream is over.  Once the client has left, nothing that follows in the stream makes a difference. -/
theorem serve_parts (hactive : session.phase ≠ .exited) (hsink : sink.room = none)
    (parts : List Part) :
    (serve session ⟨parts.flatMap Part.wire, .closed⟩ sink).session =
        session.run (session.heard (framesOf parts)) ∧
    (serve session ⟨parts.flatMap Part.wire, .closed⟩ sink).sink.written =
        sink.written ++ (session.replies (session.heard (framesOf parts))).flatMap replyBytes ∧
    (serve session ⟨parts.flatMap Part.wire, .closed⟩ sink).outcome =
        (if (session.run (session.heard (framesOf parts))).exited then .exited else .inputClosed) ∧
    ((session.run (session.heard (framesOf parts))).exited = true → ∀ more ending,
      serve session ⟨parts.flatMap Part.wire ++ more, ending⟩ sink =
        serve session ⟨parts.flatMap Part.wire, .closed⟩ sink) := by
  have hexited : session.exited = false := by simpa [Session.exited] using hactive
  obtain ⟨lines, hserve⟩ := serveFrom_parts hexited hsink [] parts
  have hclosed := hserve [] .closed
  rw [List.append_nil] at hclosed
  cases hgone : (session.run (session.heard (framesOf parts))).exited with
  | true =>
    rw [if_pos hgone] at hclosed
    refine ⟨by rw [serve, hclosed], by rw [serve, hclosed]; rfl, by rw [serve, hclosed]; rfl,
      fun _ more ending => ?_⟩
    rw [serve, serve, hserve, if_pos hgone, hclosed]
  | false =>
    rw [if_neg (by simp [hgone]), serveFrom_of_next Frame.next_nil] at hclosed
    exact ⟨by rw [serve, hclosed], by rw [serve, hclosed]; rfl, by rw [serve, hclosed]; rfl,
      fun h => (by cases h)⟩

/-- A header without a length, a request, the end of the session, and the beginning of a frame that
is never read. -/
theorem serve_parts_left :
    (serve Session.standard
        ⟨bytesOf "X: 1\n\n" ++
          bytesOf (Frame.encode (.array [.int 1, .string "2.0", .string "shutdown"])) ++
          bytesOf (Frame.encode (.array [.null, .string "2.0", .string "exit"])) ++
          bytesOf "Content-Length: 9\n", .closed⟩ Sink.unbounded).outcome = .exited ∧
    (serve Session.standard
        ⟨bytesOf "X: 1\n\n" ++
          bytesOf (Frame.encode (.array [.int 1, .string "2.0", .string "shutdown"])) ++
          bytesOf (Frame.encode (.array [.null, .string "2.0", .string "exit"])) ++
          bytesOf "Content-Length: 9\n", .closed⟩ Sink.unbounded).sink.written =
      bytesOf (Reply.result (.number 1) .null).frame := by
  let parts : List Part :=
    [.malformed
      (.lengthless ⟨[], [⟨bytesOf "X: 1", by decide +kernel⟩], ⟨[], by decide +kernel⟩,
        by decide +kernel, by decide +kernel, by decide +kernel, by decide +kernel⟩ .noLength
        (by decide +kernel) (by decide +kernel))
      .noLength rfl,
    .value (.array [.int 1, .string "2.0", .string "shutdown"]) (by decide),
    .value (.array [.null, .string "2.0", .string "exit"]) (by decide)]
  have hstream : bytesOf "X: 1\n\n" ++
      bytesOf (Frame.encode (.array [.int 1, .string "2.0", .string "shutdown"])) ++
      bytesOf (Frame.encode (.array [.null, .string "2.0", .string "exit"])) ++
      bytesOf "Content-Length: 9\n" = parts.flatMap Part.wire ++ bytesOf "Content-Length: 9\n" := by
    decide +kernel
  have hgone : (Session.standard.run (Session.standard.heard (framesOf parts))).exited = true := by
    decide +kernel
  obtain ⟨-, hwritten, houtcome, hrest⟩ :=
    @serve_parts Session.standard Sink.unbounded (by decide) rfl parts
  rw [hstream, hrest hgone, houtcome, if_pos hgone, hwritten]
  exact ⟨rfl, by decide +kernel⟩

end TermLint

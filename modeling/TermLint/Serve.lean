/-
  TermLint.Serve

  Serving a client over a stream: frames are read one after another, each is given
  to the session, and its reply is written before the next one is read.  Malformed
  frames are passed over; a failure of the transport ends the service.
-/

import TermLint.Frame.Sink
import TermLint.Session

namespace TermLint

open TermLint.Frame (Source Sink Reading TransportFault)

/-- Why the service ended. -/
inductive Outcome where
  /-- The stream is over. -/
  | inputClosed
  /-- The client left. -/
  | exited
  | readFailed (fault : TransportFault)
  | writeFailed (fault : TransportFault)
  deriving DecidableEq, Repr

/-- What went wrong, from the outside in. -/
def Outcome.causes : Outcome → List String
  | .inputClosed => []
  | .exited => []
  | .readFailed fault =>
    ["reading LSP frame", (Frame.Fault.transport fault).message, fault.message]
  | .writeFailed fault =>
    ["writing LSP frame", (Frame.Fault.transport fault).message, fault.message]

/-- What a service leaves behind. -/
structure Report where
  outcome : Outcome
  session : Session
  sink : Sink
  log : List Log.Line

/-- Write the reply to a frame; the flag says whether it could be written. -/
def deliver (reply : Option Rpc.Reply) (sink : Sink) : Sink × Bool × List Log.Line :=
  match reply with
  | none => (sink, true, [])
  | some reply =>
    match sink.write reply.frame with
    | (sink, true) => (sink, true, [⟨.debug, "Sent the response"⟩])
    | (sink, false) => (sink, false, [])

/-- Serve until the stream ends, the client leaves or the transport fails; `log` is what has been
logged so far. -/
def serveFrom (log : List Log.Line) (session : Session) (source : Source) (sink : Sink) : Report :=
  match h : source.next with
  | (.ended, _) => ⟨.inputClosed, session, sink, log ++ [⟨.info, "Client closed input"⟩]⟩
  | (.failed fault, _) => ⟨.readFailed fault, session, sink, log⟩
  | (.malformed fault, rest) =>
    have := Source.next_lt h (by simp) (by simp)
    serveFrom (log ++ [⟨.warn, "Skipping malformed frame: " ++ fault.message⟩]) session rest sink
  | (.frame text, rest) =>
    have := Source.next_lt h (by simp) (by simp)
    let step := session.step text
    match deliver step.reply sink with
    | (sink, false, lines) =>
      ⟨.writeFailed (.host sink.refusal), step.session, sink, log ++ step.log ++ lines⟩
    | (sink, true, lines) =>
      if step.session.exited then ⟨.exited, step.session, sink, log ++ step.log ++ lines⟩
      else serveFrom (log ++ step.log ++ lines) step.session rest sink
termination_by source.bytes.length

/-- Serve until the stream ends, the client leaves or the transport fails. -/
def serve (session : Session) (source : Source) (sink : Sink) : Report :=
  serveFrom [] session source sink

end TermLint

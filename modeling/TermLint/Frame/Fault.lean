/-
  TermLint.Frame.Fault

  What can go wrong with a frame, from the bytes up: the transport fails, the frame
  is not formed as it should be, or its body cannot be read.
-/

import TermLint.Json.Fault

namespace TermLint.Frame

/-- The greatest body that is accepted, in bytes. -/
def maxLength : Nat := 4 * 1024 * 1024

/-- A frame that is not formed as it should be. -/
inductive FramingFault where
  /-- No blank line divides header and body. -/
  | noSeparator
  | emptyHeader
  | emptyBody
  /-- No header line gives the length of the body. -/
  | noLength
  /-- The length of the body is not a number. -/
  | badLength (given : String)
  /-- The body has another length than the header says. -/
  | lengthMismatch (declared actual : Nat)
  | tooLarge (declared : Nat)
  | headerNotText
  | bodyNotText
  deriving DecidableEq, Repr

/-- The wording of a framing fault. -/
def FramingFault.message : FramingFault → String
  | .noSeparator => "no blank line between header and content"
  | .emptyHeader => "frame header is empty"
  | .emptyBody => "frame content is empty"
  | .noLength => "missing Content-Length header"
  | .badLength given => "invalid Content-Length value " ++ Text.quoted given
  | .lengthMismatch declared actual =>
    "Content-Length " ++ toString declared ++ " does not match body length " ++ toString actual
  | .tooLarge declared =>
    "Content-Length " ++ toString declared ++ " exceeds maximum " ++ toString maxLength
  | .headerNotText => "frame header is not valid UTF-8"
  | .bodyNotText => "frame body is not valid UTF-8"

/-- A failure of the transport. -/
inductive TransportFault where
  /-- The stream ended inside a header. -/
  | headerCut
  /-- The stream ended inside a body. -/
  | bodyCut
  /-- The host reported a failure. -/
  | host (reason : String)
  deriving DecidableEq, Repr

/-- The wording of a transport fault. -/
def TransportFault.message : TransportFault → String
  | .headerCut => "unexpected EOF while reading headers"
  | .bodyCut => "early eof"
  | .host reason => reason

/-- Why a frame could not be used. -/
inductive Fault where
  | framing (fault : FramingFault)
  | body (fault : Json.Fault)
  | transport (fault : TransportFault)
  deriving DecidableEq, Repr

/-- The wording of a fault. -/
def Fault.message : Fault → String
  | .framing fault => "framing error: " ++ fault.message
  | .body fault => "parsing JSON-RPC body: " ++ fault.message
  | .transport fault => "transport I/O: " ++ fault.message

end TermLint.Frame

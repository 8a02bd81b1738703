/-
  TermLint.Frame.Basic

  Frames as texts: a header that gives the length of the body in bytes, a blank
  line, and the body.  `encode` frames a value; `split` takes a frame apart and
  checks it; `decode` reads the body as data.
-/

import TermLint.Frame.Header
import TermLint.Json.Tree
import TermLint.Json.Printer

namespace TermLint.Frame

/-- A body behind the header that gives its length. -/
def wrap (body : String) : String :=
  lengthKey ++ ": " ++ toString body.utf8ByteSize ++ separator ++ body

/-- The frame of a value. -/
def encode (v : Value) : String :=
  wrap (Json.render v)

/-- The header and the body of a frame. -/
def halves? (frame : String) : Option (List Char × List Char) :=
  Text.cut? separator.toList frame.toList

/-- The length and the text of the body of a frame. -/
def split (frame : String) : Except FramingFault (Nat × String) :=
  match halves? frame with
  | none => .error .noSeparator
  | some (header, content) =>
    if Text.isVoid header then .error .emptyHeader
    else if content = [] then .error .emptyBody
    else
      match bodyLength header with
      | .error e => .error e
      | .ok declared =>
        let body := String.ofList content
        if maxLength < declared then .error (.tooLarge declared)
        else if declared ≠ body.utf8ByteSize then
          .error (.lengthMismatch declared body.utf8ByteSize)
        else .ok (declared, body)

/-- The length of the body of a frame and the data it holds. -/
structure Content where
  length : Nat
  body : Value

/-- The data of a frame. -/
def decode (frame : String) : Except Fault Content :=
  match split frame with
  | .error e => .error (.framing e)
  | .ok (length, body) =>
    match Json.parse body with
    | .error e => .error (.body e)
    | .ok v => .ok ⟨length, v⟩

end TermLint.Frame

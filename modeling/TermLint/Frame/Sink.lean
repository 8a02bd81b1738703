/-
  TermLint.Frame.Sink

  Where frames are written to: a sink that keeps the bytes it was given, and that
  may have room for so many bytes only.  A frame that does not fit is written as far
  as there is room, and fails.
-/

import TermLint.Frame.Basic
import TermLint.Frame.Source

namespace TermLint.Frame

/-- The bytes written so far and, for a bounded sink, how many more fit and the failure that is
reported when there is no room. -/
structure Sink where
  written : List UInt8
  room : Option Nat
  refusal : String
  deriving DecidableEq, Repr

namespace Sink

/-- An empty sink without bound. -/
def unbounded : Sink := ⟨[], none, ""⟩

/-- An empty sink with room for `n` bytes. -/
def bounded (n : Nat) (refusal : String) : Sink := ⟨[], some n, refusal⟩

/-- Write a text; the flag says whether all of it fitted. -/
def write (sink : Sink) (text : String) : Sink × Bool :=
  let bytes := bytesOf text
  match sink.room with
  | none => ({ sink with written := sink.written ++ bytes }, true)
  | some n =>
    ({ sink with written := sink.written ++ bytes.take n, room := some (n - bytes.length) },
      bytes.length ≤ n)

/-- Write the frame of a value. -/
def writeValue (sink : Sink) (v : Value) : Sink × Except TransportFault Unit :=
  let (sink, fitted) := sink.write (encode v)
  (sink, if fitted then .ok () else .error (.host sink.refusal))

/-! ## What was written, as text -/

/-- The text of bytes whose last character may be cut short, for which `mark` then stands; at most
`n` bytes are given up. -/
def textUpTo (mark : String) : Nat → List UInt8 → String
  | 0, _ => mark
  | n + 1, bytes =>
    match textOf? bytes with
    | some text => text ++ mark
    | none => textUpTo "\uFFFD" n bytes.dropLast

/-- The text that was written.  A last character that did not fit shows as U+FFFD. -/
def text (sink : Sink) : String :=
  textUpTo "" 4 sink.written

end Sink
end TermLint.Frame

/-
  TermLint.Frame.Source

  A stream of bytes and the frames that are read from it.  Header lines end with a
  line feed and are trimmed; blank lines before a header are passed over and a blank
  line ends it.  Then as many bytes are taken as the header says.  Every malformed
  block is taken whole, so that reading can go on after it.
-/

import TermLint.Frame.Header

namespace TermLint.Frame

/-- What comes after the last byte of a stream. -/
inductive Ending where
  /-- The stream is over. -/
  | closed
  /-- The host reports a failure. -/
  | broken (reason : String)
  deriving DecidableEq, Repr

/-- The bytes that are still to come. -/
structure Source where
  bytes : List UInt8
  ending : Ending
  deriving DecidableEq, Repr

/-- What one attempt to read a frame gives. -/
inductive Reading where
  | frame (text : String)
  | malformed (fault : FramingFault)
  | failed (fault : TransportFault)
  /-- The stream ended between two frames. -/
  | ended
  deriving DecidableEq, Repr

/-- Bytes as a text, if they are one. -/
def textOf? (bytes : List UInt8) : Option String :=
  String.fromUTF8? ⟨bytes.toArray⟩

/-- The bytes of a text. -/
def bytesOf (text : String) : List UInt8 :=
  text.toUTF8.data.toList

/-! ## Header lines -/

/-- The bytes up to the first line feed and those after it, after the bytes already passed, which
are in reverse; nothing if there is no line feed. -/
def lineFrom (passed : List UInt8) : List UInt8 → Option (List UInt8 × List UInt8)
  | [] => none
  | byte :: rest =>
    if byte = 0x0A then some (passed.reverse, rest) else lineFrom (byte :: passed) rest

theorem lineFrom_lt {passed bytes line rest : List UInt8}
    (h : lineFrom passed bytes = some (line, rest)) : rest.length < bytes.length := by
  induction bytes generalizing passed with
  | nil => cases h
  | cons byte bytes ih =>
    rw [lineFrom] at h
    split at h
    · cases h; simp
    · exact Nat.lt_succ_of_lt (ih h)

/-- What is read up to the blank line after a header. -/
inductive Block where
  /-- The lines of a header, those that are not text being nothing, and the bytes after it. -/
  | header (lines : List (Option String)) (rest : List UInt8)
  | failed (fault : TransportFault)
  | ended

/-- A block that ends with the stream: its last line, without a line feed, still counts. -/
def lastBlock (lines : List (Option String)) (line : List UInt8) (ending : Ending) : Block :=
  match ending with
  | .broken reason => .failed (.host reason)
  | .closed =>
    match lines, Text.trimBytes line with
    | [], [] => .ended
    | [], _ => .failed .headerCut
    | lines, [] => if line = [] then .failed .headerCut else .header lines.reverse []
    | _, _ => .failed .headerCut

/-- The lines of a header, after those already read, which are in reverse. -/
def blockFrom (ending : Ending) (lines : List (Option String)) (bytes : List UInt8) : Block :=
  match h : lineFrom [] bytes with
  | none => lastBlock lines bytes ending
  | some (line, rest) =>
    have := lineFrom_lt h
    match Text.trimBytes line with
    | [] =>
      match lines with
      | [] => blockFrom ending [] rest
      | lines => .header lines.reverse rest
    | trimmed => blockFrom ending (textOf? trimmed :: lines) rest
termination_by bytes.length

/-! ## Frames -/

/-- What a header and a body of the length it gives make. -/
def completeFrame (header : String) (n : Nat) (body : List UInt8) : Reading :=
  if maxLength < n then .malformed (.tooLarge n)
  else
    match textOf? body with
    | none => .malformed .bodyNotText
    | some body => .frame (header ++ separator ++ body)

/-- What a header makes when the stream ends inside the body.  A body that is too large is passed
over as far as it goes. -/
def cutFrame (n : Nat) (ending : Ending) : Reading :=
  match ending with
  | .broken reason => .failed (.host reason)
  | .closed => if maxLength < n then .malformed (.tooLarge n) else .failed .bodyCut

/-- The frame of a header and the bytes after it, and the bytes after the frame. -/
def frameOf (header : String) (bytes : List UInt8) (ending : Ending) : Reading × List UInt8 :=
  match bodyLength header.toList with
  | .error fault => (.malformed fault, bytes)
  | .ok n =>
    let body := bytes.take n
    if body.length < n then (cutFrame n ending, []) else (completeFrame header n body, bytes.drop n)

/-- The lines of a header, if all of them are text. -/
def allText? : List (Option String) → Option (List String)
  | [] => some []
  | none :: _ => none
  | some line :: rest => (allText? rest).map (line :: ·)

/-- Lines joined into one text. -/
def joined : List String → String
  | [] => ""
  | [line] => line
  | line :: rest => line ++ "\r\n" ++ joined rest

/-- The next frame of a stream, and the stream after it. -/
def Source.next (source : Source) : Reading × Source :=
  match blockFrom source.ending [] source.bytes with
  | .ended => (.ended, { source with bytes := [] })
  | .failed fault => (.failed fault, { source with bytes := [] })
  | .header lines rest =>
    match allText? lines with
    | none => (.malformed .headerNotText, { source with bytes := rest })
    | some lines =>
      let (reading, rest) := frameOf (joined lines) rest source.ending
      (reading, { source with bytes := rest })

/-! ## Something is always taken -/

theorem blockFrom_header_lt {ending : Ending} {lines lines' : List (Option String)}
    {bytes rest : List UInt8} (h : blockFrom ending lines bytes = .header lines' rest) :
    rest.length < bytes.length := by
  fun_induction blockFrom ending lines bytes with
  | case1 lines bytes hnone =>
    unfold lastBlock at h
    split at h
    · cases h
    · split at h
      · cases h
      · cases h
      · split at h
        · cases h
        · rename_i hne
          cases h
          exact List.length_pos_iff.mpr hne
      · cases h
  | case2 bytes line rest' hl hlt _ ih => exact Nat.lt_trans (ih h) hlt
  | case3 bytes line rest' hl hlt _ lines hne => cases h; exact hlt
  | case4 lines bytes line rest' hl hlt trimmed ih => exact Nat.lt_trans (ih h) hlt

theorem frameOf_le (header : String) (bytes : List UInt8) (ending : Ending) :
    (frameOf header bytes ending).2.length ≤ bytes.length := by
  unfold frameOf
  split
  · exact Nat.le_refl _
  · simp only
    split
    · exact Nat.zero_le _
    · rw [List.length_drop]; exact Nat.sub_le _ _

/-- A frame or a malformed block takes at least one byte. -/
theorem Source.next_lt {source source' : Source} {reading : Reading}
    (h : source.next = (reading, source')) (hended : reading ≠ .ended)
    (hfailed : ∀ fault, reading ≠ .failed fault) :
    source'.bytes.length < source.bytes.length := by
  unfold Source.next at h
  split at h
  · cases h; exact absurd rfl hended
  · cases h; exact absurd rfl (hfailed _)
  · rename_i hb
    have hlt := blockFrom_header_lt hb
    split at h
    · cases h; exact hlt
    · cases h
      exact Nat.lt_of_le_of_lt (frameOf_le _ _ _) hlt

/-! ## Reading to the end -/

/-- Everything that repeated attempts give, up to the end of the stream or its first failure. -/
def Source.readings (source : Source) : List Reading :=
  match h : source.next with
  | (.ended, _) => [.ended]
  | (.failed fault, _) =>
    match source.ending with
    | .closed => [.failed fault, .ended]
    | .broken _ => [.failed fault]
  | (.frame text, rest) =>
    have := Source.next_lt h (by simp) (by simp)
    .frame text :: rest.readings
  | (.malformed fault, rest) =>
    have := Source.next_lt h (by simp) (by simp)
    .malformed fault :: rest.readings
termination_by source.bytes.length

end TermLint.Frame

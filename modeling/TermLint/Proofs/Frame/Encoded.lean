/-
  TermLint.Proofs.Frame.Encoded

  Written frames in a stream.  The bytes of a written frame are a segment: the one
  line of its header, without the carriage return that is trimmed from it, gives
  the length of the body, so that the frame is read back as it was written.
-/

import TermLint.Proofs.Frame.Header
import TermLint.Proofs.Frame.Segment

namespace TermLint.Frame

/-! ## The bytes of a written header -/

/-- The header of a frame whose body has the given length, as a text. -/
def headerText (n : Nat) : String :=
  String.ofList (headerOf n)

theorem wrap_eq (body : String) :
    wrap body = headerText body.utf8ByteSize ++ separator ++ body := by
  refine String.toList_injective ?_
  rw [toList_wrap, String.toList_append, String.toList_append, headerText, String.toList_ofList]

/-- A line feed is no byte of a written header. -/
theorem feed_not_mem_headerText (n : Nat) : (0x0A : UInt8) ∉ bytesOf (headerText n) := by
  intro hmem
  have hchar := ofUInt8_mem_of_mem_bytesOf (by decide) hmem
  rw [headerText, String.toList_ofList] at hchar
  exact not_mem_headerOf (by decide) (by decide) (by decide) (by decide) n hchar

theorem head_bytesOf_headerText (n : Nat) : (bytesOf (headerText n)).head? = some 0x43 := by
  rw [bytesOf_eq_flatMap, headerText, String.toList_ofList]
  rfl

/-- The last byte of a written header is that of a digit. -/
theorem getLast_bytesOf_headerText (n : Nat) :
    ∀ byte ∈ (bytesOf (headerText n)).getLast?, Text.isBlankByte byte = false := by
  have hsplit : headerText n =
      String.ofList (lengthKey.toList ++ [':', ' ']) ++ String.ofList (Nat.toDigits 10 n) := by
    rw [← String.ofList_append, headerText, headerOf, List.append_assoc]
    rfl
  have hne : bytesOf (String.ofList (Nat.toDigits 10 n)) ≠ [] := by
    intro hnil
    have hempty : String.ofList (Nat.toDigits 10 n) = String.ofList [] := bytesOf_inj hnil
    exact Nat.toDigits_ne_nil (String.ofList_injective hempty)
  have hdigits : ∀ c ∈ (String.ofList (Nat.toDigits 10 n)).toList, Text.isBlank c = false := by
    intro c hc
    rw [String.toList_ofList] at hc
    exact Text.isBlank_of_isDigit (Text.isDigit_of_mem_toDigits hc)
  intro byte hbyte
  rw [hsplit, bytesOf_append, List.getLast?_append, List.getLast?_eq_some_getLast hne,
    Option.some_or] at hbyte
  cases hbyte
  exact isBlankByte_of_mem_bytesOf hdigits (List.getLast_mem hne)

/-- Only the carriage return before the line feed is trimmed from a written header. -/
theorem trimBytes_headerText (n : Nat) :
    Text.trimBytes (bytesOf (headerText n) ++ [0x0D]) = bytesOf (headerText n) := by
  have hhead : ∀ byte ∈ (bytesOf (headerText n)).head?, Text.isBlankByte byte = false := by
    intro byte hbyte
    rw [head_bytesOf_headerText] at hbyte
    cases hbyte
    rfl
  rw [Text.trimBytes, Text.strip_concat _ (by decide)]
  exact Text.strip_eq_self hhead (getLast_bytesOf_headerText n)

/-! ## Written frames as segments -/

/-- The line of a written header. -/
def writtenLine (n : Nat) : Line where
  bytes := bytesOf (headerText n) ++ [0x0D]
  no_feed := by
    rw [List.mem_append, not_or]
    exact ⟨feed_not_mem_headerText n, by decide⟩

theorem text?_writtenLine (n : Nat) : (writtenLine n).text? = some (headerText n) := by
  rw [Line.text?, writtenLine, trimBytes_headerText]
  exact textOf?_eq_some_iff.mpr rfl

theorem not_isBlank_writtenLine (n : Nat) : ¬ (writtenLine n).IsBlank := by
  intro hblank
  have hnil : Text.trimBytes (bytesOf (headerText n) ++ [0x0D]) = [] :=
    (writtenLine n).trimBytes_eq_nil_iff.mpr hblank
  have hhead := head_bytesOf_headerText n
  rw [← trimBytes_headerText, hnil] at hhead
  cases hhead

/-- The header block of a written frame. -/
def writtenHead (n : Nat) : Head where
  leading := []
  lines := [writtenLine n]
  closing := ⟨[0x0D], by decide⟩
  leading_blank := by simp
  lines_ne := List.cons_ne_nil _ _
  lines_filled := by
    intro line hline
    rw [List.mem_singleton.mp hline]
    exact not_isBlank_writtenLine n
  closing_blank := by
    intro byte hbyte
    rw [List.mem_singleton.mp hbyte]
    rfl

theorem text_writtenHead (n : Nat) : (writtenHead n).text = headerText n := by
  rw [Head.text, writtenHead, List.map_singleton, text?_writtenLine]
  exact String.intercalate_singleton

theorem isText_writtenHead (n : Nat) : (writtenHead n).IsText := by
  intro line hline
  rw [List.mem_singleton.mp hline, writtenLine, isText_concat (by decide), IsText,
    textOf?_eq_some_iff.mpr rfl]
  rfl

theorem wire_writtenHead (n : Nat) :
    (writtenHead n).wire = bytesOf (headerText n) ++ bytesOf separator := by
  have hseparator : bytesOf separator = [0x0D, 0x0A, 0x0D, 0x0A] := by decide
  rw [hseparator]
  simp only [Head.wire, writtenHead, writtenLine, Line.wire, List.flatMap_nil,
    List.flatMap_singleton, List.nil_append, List.append_assoc, List.cons_append]

/-- A written frame, as a segment of a stream. -/
def written (body : String) (fits : body.utf8ByteSize ≤ maxLength) : Segment :=
  .frame (writtenHead body.utf8ByteSize) (bytesOf body) body (isText_writtenHead _)
    (by
      have hword : body.utf8ByteSize < UInt64.size := Nat.lt_of_le_of_lt fits (by decide)
      rw [text_writtenHead, headerText, String.toList_ofList, bodyLength_headerOf, if_pos hword,
        length_bytesOf])
    (by rwa [length_bytesOf]) (textOf?_eq_some_iff.mpr rfl)

/-- The bytes of a written frame are those of its text. -/
theorem wire_written (body : String) (fits : body.utf8ByteSize ≤ maxLength) :
    (written body fits).wire = bytesOf (wrap body) := by
  rw [written, Segment.wire, wire_writtenHead, wrap_eq, bytesOf_append, bytesOf_append]

/-- A written frame is read back as it was written. -/
theorem reading_written (body : String) (fits : body.utf8ByteSize ≤ maxLength) :
    (written body fits).reading = .frame (wrap body) := by
  rw [written, Segment.reading, text_writtenHead, wrap_eq]
  rfl

end TermLint.Frame

/-
  TermLint.Proofs.Frame.Reassembly

  A frame that can be taken apart survives the stream.  `split` looks for the
  separator and knows nothing of lines; the reader takes line after line, trims each
  and joins them anew.  As long as no blank line hides inside the header, the bytes
  of a frame are one segment, whose header has the lines of the old one without the
  ASCII blanks around them, and so gives the same length.
-/

import TermLint.Proofs.Frame.Canonical

namespace TermLint

/-! ## ASCII blanks -/

namespace Text

/-- The characters whose bytes are the ASCII blanks. -/
def isAsciiBlank (c : Char) : Bool :=
  c == ' ' || c == '\t' || c == '\n' || c == '\x0C' || c == '\r'

/-- A line that holds nothing but ASCII blanks. -/
def isBlankLine (line : List Char) : Bool :=
  line.all isAsciiBlank

theorem isBlank_of_isAsciiBlank {c : Char} (h : isAsciiBlank c = true) : isBlank c = true := by
  simp only [isAsciiBlank, Bool.or_eq_true, beq_iff_eq] at h
  rcases h with (((rfl | rfl) | rfl) | rfl) | rfl <;> decide

theorem isBlank_of_isBlankLine {line : List Char} (h : isBlankLine line = true) :
    ∀ c ∈ line, isBlank c = true :=
  fun c hc => isBlank_of_isAsciiBlank (List.all_eq_true.mp h c hc)

end Text

namespace Frame

open Text (FirstCut pieces isAsciiBlank isBlankLine)

/-- The bytes of a character are blank exactly when the character is. -/
theorem isBlankByte_of_mem_encode {c : Char} {byte : UInt8}
    (hmem : byte ∈ String.utf8EncodeChar c) : Text.isBlankByte byte = isAsciiBlank c := by
  cases hbyte : Text.isBlankByte byte with
  | true =>
    -- the byte is an ASCII byte, so it is all there is of the character
    have hascii : byte < 128 := (blank_of_isBlankByte hbyte).1
    have hbytes : byte ∈ bytesOf (String.ofList [c]) := by
      rw [bytesOf_eq_flatMap, String.toList_ofList, List.flatMap_singleton]
      exact hmem
    have hchar := ofUInt8_mem_of_mem_bytesOf hascii hbytes
    rw [String.toList_ofList, List.mem_singleton] at hchar
    subst hchar
    simp only [Text.isBlankByte, Bool.or_eq_true, beq_iff_eq] at hbyte
    rcases hbyte with (((rfl | rfl) | rfl) | rfl) | rfl <;> decide
  | false =>
    symm
    rw [Bool.eq_false_iff]
    intro hblank
    simp only [isAsciiBlank, Bool.or_eq_true, beq_iff_eq] at hblank
    -- each of the five characters has one byte, which is blank
    rcases hblank with (((rfl | rfl) | rfl) | rfl) | rfl <;>
      (obtain rfl := List.mem_singleton.mp hmem; revert hbyte; decide)

/-- Trimming bytes is trimming characters. -/
theorem trimBytes_flatMap (chars : List Char) :
    Text.trimBytes (chars.flatMap String.utf8EncodeChar) =
      (Text.strip isAsciiBlank chars).flatMap String.utf8EncodeChar := by
  have hblanks : ∀ {run : List Char}, (∀ c ∈ run, isAsciiBlank c = true) →
      ∀ byte ∈ run.flatMap String.utf8EncodeChar, Text.isBlankByte byte = true := by
    intro run hrun byte hbyte
    obtain ⟨c, hc, hmem⟩ := List.mem_flatMap.mp hbyte
    rw [isBlankByte_of_mem_encode hmem, hrun c hc]
  obtain ⟨a, b, hchars, ha, hb, hhead, hlast⟩ := Text.exists_strip isAsciiBlank chars
  generalize Text.strip isAsciiBlank chars = middle at hchars hhead hlast ⊢
  rw [hchars, List.flatMap_append, List.flatMap_append, Text.trimBytes,
    Text.strip_append_append (hblanks ha) (hblanks hb)]
  -- the first byte belongs to the first character, the last byte to the last one
  apply Text.strip_eq_self
  · intro byte hbyte
    cases middle with
    | nil => cases hbyte
    | cons c rest =>
      have hmem : byte ∈ String.utf8EncodeChar c := by
        rw [List.flatMap_cons, List.head?_append_of_ne_nil _ String.utf8EncodeChar_ne_nil] at hbyte
        exact List.mem_of_mem_head? hbyte
      rw [isBlankByte_of_mem_encode hmem, hhead c rfl]
  · intro byte hbyte
    rcases List.eq_nil_or_concat middle with rfl | ⟨front, c, rfl⟩
    · cases hbyte
    · rw [List.concat_eq_append] at hbyte hlast
      have hmem : byte ∈ String.utf8EncodeChar c := by
        rw [List.flatMap_append, List.flatMap_singleton,
          List.getLast?_append_of_ne_nil _ String.utf8EncodeChar_ne_nil] at hbyte
        exact List.mem_of_mem_getLast? hbyte
      rw [isBlankByte_of_mem_encode hmem, hlast c List.getLast?_concat]

/-! ## Lines of text -/

/-- A line of characters. -/
def Line.ofChars (chars : List Char) (h : '\n' ∉ chars) : Line where
  bytes := chars.flatMap String.utf8EncodeChar
  no_feed := by
    intro hmem
    have hbytes : (0x0A : UInt8) ∈ bytesOf (String.ofList chars) := by
      rw [bytesOf_eq_flatMap, String.toList_ofList]
      exact hmem
    have hchar := ofUInt8_mem_of_mem_bytesOf (by decide) hbytes
    rw [String.toList_ofList] at hchar
    exact h hchar

section Chars

variable {chars : List Char} {h : '\n' ∉ chars}

theorem Line.ofChars_wire :
    (Line.ofChars chars h).wire = (chars ++ ['\n']).flatMap String.utf8EncodeChar := by
  rw [List.flatMap_append]
  rfl

theorem Line.ofChars_isBlank_iff : (Line.ofChars chars h).IsBlank ↔ isBlankLine chars = true := by
  rw [isBlankLine, List.all_eq_true]
  constructor
  · intro hblank c hc
    obtain ⟨byte, hbyte⟩ := List.exists_mem_of_ne_nil _ (String.utf8EncodeChar_ne_nil (c := c))
    rw [← isBlankByte_of_mem_encode hbyte]
    exact hblank byte (List.mem_flatMap.mpr ⟨c, hc, hbyte⟩)
  · intro hblank byte hbyte
    obtain ⟨c, hc, hmem⟩ := List.mem_flatMap.mp hbyte
    rw [isBlankByte_of_mem_encode hmem, hblank c hc]

theorem Line.ofChars_text? :
    (Line.ofChars chars h).text? = some (String.ofList (Text.strip isAsciiBlank chars)) := by
  refine textOf?_eq_some_iff.mpr ?_
  rw [bytesOf_eq_flatMap, String.toList_ofList]
  exact trimBytes_flatMap chars

/-- Trimming does not change the value that a line gives. -/
theorem lengthText?_strip (chars : List Char) :
    lengthText? (Text.strip isAsciiBlank chars) = lengthText? chars := by
  obtain ⟨a, b, hchars, ha, hb, -, -⟩ := Text.exists_strip isAsciiBlank chars
  have hpad := lengthText?_pad (fun c hc => Text.isBlank_of_isAsciiBlank (ha c hc))
    (fun c hc => Text.isBlank_of_isAsciiBlank (hb c hc)) (Text.strip isAsciiBlank chars)
  rw [← hchars] at hpad
  exact hpad.symm

end Chars

/-! ## Headers of text -/

/-- A header as lines of characters: blank lines that may stand before it, and its lines. -/
structure TextHead where
  leading : List (List Char)
  lines : List (List Char)
  leading_blank : ∀ line ∈ leading, isBlankLine line = true
  lines_ne : lines ≠ []
  lines_filled : ∀ line ∈ lines, isBlankLine line = false
  no_feed : ∀ line ∈ leading ++ lines, '\n' ∉ line

namespace TextHead

theorem leading_no_feed (head : TextHead) : ∀ line ∈ head.leading, '\n' ∉ line :=
  fun line hline => head.no_feed line (List.mem_append_left _ hline)

theorem lines_no_feed (head : TextHead) : ∀ line ∈ head.lines, '\n' ∉ line :=
  fun line hline => head.no_feed line (List.mem_append_right _ hline)

/-- The header block that a carriage return and a line feed close. -/
def toHead (head : TextHead) : Head where
  leading := head.leading.pmap Line.ofChars head.leading_no_feed
  lines := head.lines.pmap Line.ofChars head.lines_no_feed
  closing := Line.ofChars ['\r'] (by decide)
  leading_blank := by
    intro line hline
    obtain ⟨chars, hchars, rfl⟩ := List.mem_pmap.mp hline
    exact Line.ofChars_isBlank_iff.mpr (head.leading_blank chars hchars)
  lines_ne := by simpa using head.lines_ne
  lines_filled := by
    intro line hline
    obtain ⟨chars, hchars, rfl⟩ := List.mem_pmap.mp hline
    rw [Line.ofChars_isBlank_iff, head.lines_filled chars hchars]
    decide
  closing_blank := Line.ofChars_isBlank_iff.mpr (by decide)

theorem flatMap_pmap_wire {all : List (List Char)} (h : ∀ line ∈ all, '\n' ∉ line) :
    (all.pmap Line.ofChars h).flatMap Line.wire =
      (all.flatMap fun line => line ++ ['\n']).flatMap String.utf8EncodeChar := by
  induction all with
  | nil => rfl
  | cons line all ih =>
    rw [List.pmap_cons, List.flatMap_cons, Line.ofChars_wire, ih, List.flatMap_cons,
      ← List.flatMap_append]

theorem wire_toHead (head : TextHead) :
    head.toHead.wire =
      ((head.leading ++ head.lines).flatMap (fun line => line ++ ['\n']) ++ ['\r', '\n']).flatMap
        String.utf8EncodeChar := by
  have hclosing : head.toHead.closing.wire = ['\r', '\n'].flatMap String.utf8EncodeChar := rfl
  rw [Head.wire, hclosing, List.flatMap_append, List.flatMap_append, List.flatMap_append,
    ← flatMap_pmap_wire head.leading_no_feed, ← flatMap_pmap_wire head.lines_no_feed]
  rfl

theorem isText_toHead (head : TextHead) : head.toHead.IsText := by
  intro line hline
  obtain ⟨chars, -, rfl⟩ := List.mem_pmap.mp hline
  exact isText_iff.mpr ⟨chars, rfl⟩

theorem texts_toHead (head : TextHead) :
    head.toHead.texts =
      head.lines.map fun line => String.ofList (Text.strip isAsciiBlank line) := by
  rw [Head.texts, toHead, List.map_pmap]
  simp only [Line.ofChars_text?, Option.getD_some]
  exact List.pmap_eq_map _

/-- Reading keeps the length that the lines give. -/
theorem bodyLength_toHead (head : TextHead) :
    bodyLength head.toHead.text.toList =
      lengthOf none ((head.leading ++ head.lines).filterMap lengthText?) := by
  have hnone : head.leading.filterMap lengthText? = [] :=
    List.filterMap_eq_nil_iff.mpr fun line hline =>
      lengthText?_of_blank (Text.isBlank_of_isBlankLine (head.leading_blank line hline))
  have hfeed : ∀ text ∈ head.toHead.texts, '\n' ∉ text.toList := fun text hmem =>
    (head.toHead.isHeaderLine_of_mem_texts head.isText_toHead hmem).no_feed
  rw [bodyLength_eq, Head.text_eq_joined, filterMap_joined hfeed, texts_toHead,
    List.filterMap_append, hnone, List.nil_append, List.map_map, List.filterMap_map]
  congr 2
  funext line
  rw [Function.comp_apply, Function.comp_apply, String.toList_ofList, lengthText?_strip]

end TextHead

/-! ## Frames that can be taken apart -/

/-- A header that is not blank has a line that is not. -/
theorem exists_filled_line {header : List Char} (hvoid : Text.isVoid header = false) :
    ∃ line ∈ pieces '\n' header, isBlankLine line = false := by
  rw [Text.isVoid, List.all_eq_false] at hvoid
  obtain ⟨c, hc, hblank⟩ := hvoid
  have hmem : c ∈ (pieces '\n' header).flatMap fun line => line ++ ['\n'] := by
    rw [Text.flatMap_pieces]
    exact List.mem_append_left _ hc
  obtain ⟨line, hline, hc⟩ := List.mem_flatMap.mp hmem
  refine ⟨line, hline, Bool.eq_false_iff.mpr fun hall => ?_⟩
  rcases List.mem_append.mp hc with hc | hc
  · exact hblank (Text.isBlank_of_isBlankLine hall c hc)
  · rw [List.mem_singleton.mp hc] at hblank
    exact hblank (by decide)

/-- The lines of a header in which no line is blank after the first one that is not. -/
theorem exists_pieces {header : List Char} (hvoid : Text.isVoid header = false)
    (hlines : ∀ line ∈ (pieces '\n' header).dropWhile isBlankLine, isBlankLine line = false) :
    ∃ leading front last, pieces '\n' header = leading ++ front ++ [last] ∧
      (∀ line ∈ leading, isBlankLine line = true) ∧
      ∀ line ∈ front ++ [last], isBlankLine line = false := by
  obtain ⟨leading, rest, hpieces, hleading, hrest⟩ :=
    Text.exists_run (fun line => isBlankLine line = true) (pieces '\n' header)
  have hdrop : (pieces '\n' header).dropWhile isBlankLine = rest := by
    rw [hpieces, List.dropWhile_append_of_pos hleading]
    cases rest with
    | nil => rfl
    | cons line rest => exact List.dropWhile_cons_of_neg (hrest line rfl)
  have hne : rest ≠ [] := by
    rintro rfl
    obtain ⟨line, hline, hfilled⟩ := exists_filled_line hvoid
    rw [hpieces, List.append_nil] at hline
    rw [hleading line hline] at hfilled
    cases hfilled
  obtain ⟨front, last, hconcat⟩ := (List.eq_nil_or_concat rest).resolve_left hne
  rw [List.concat_eq_append] at hconcat
  refine ⟨leading, front, last, ?_, hleading, ?_⟩
  · rw [hpieces, hconcat, List.append_assoc]
  · rw [← hconcat, ← hdrop]
    exact hlines

/-- Such a header is read with the lines that it has and gives the length that it gives. -/
theorem exists_textHead {header : List Char} (hvoid : Text.isVoid header = false)
    (hlines : ∀ line ∈ (pieces '\n' header).dropWhile isBlankLine, isBlankLine line = false) :
    ∃ head : TextHead,
      (head.leading ++ head.lines).flatMap (fun line => line ++ ['\n']) = header ++ ['\r', '\n'] ∧
      lengthOf none ((head.leading ++ head.lines).filterMap lengthText?) = bodyLength header := by
  obtain ⟨leading, front, last, hpieces, hleading, hfilled⟩ := exists_pieces hvoid hlines
  have hfeed : ∀ line ∈ leading ++ front ++ [last], '\n' ∉ line := by
    rw [← hpieces]
    exact fun line hline => Text.not_mem_of_mem_pieces hline
  -- the carriage return of the separator goes to the last line
  let head : TextHead :=
    { leading := leading
      lines := front ++ [last ++ ['\r']]
      leading_blank := hleading
      lines_ne := List.append_ne_nil_of_right_ne_nil _ (List.cons_ne_nil _ _)
      lines_filled := by
        intro line hline
        rcases List.mem_append.mp hline with hline | hline
        · exact hfilled line (List.mem_append_left _ hline)
        · have hlast := hfilled last (List.mem_append_right _ List.mem_cons_self)
          rw [isBlankLine] at hlast
          rw [List.mem_singleton.mp hline, isBlankLine, List.all_append, hlast, Bool.false_and]
      no_feed := by
        intro line hline
        rw [← List.append_assoc] at hline
        rcases List.mem_append.mp hline with hline | hline
        · exact hfeed line (List.mem_append_left _ hline)
        · have hlast := hfeed last (List.mem_append_right _ List.mem_cons_self)
          rw [List.mem_singleton.mp hline]
          simp [hlast] }
  have hall : head.leading ++ head.lines = leading ++ front ++ [last ++ ['\r']] := by
    rw [← List.append_assoc]
  refine ⟨head, ?_, ?_⟩
  · have hheader := Text.flatMap_pieces '\n' header
    rw [hpieces, List.flatMap_append, List.flatMap_singleton, ← List.append_assoc] at hheader
    rw [hall, List.flatMap_append, List.flatMap_singleton, ← List.append_cancel_right hheader]
    simp only [List.append_assoc, List.cons_append, List.nil_append]
  · have hlast : [last ++ ['\r']].filterMap lengthText? = [last].filterMap lengthText? := by
      simp only [List.filterMap_cons, lengthText?_concat_return]
    rw [bodyLength_eq, hpieces, hall, List.filterMap_append, hlast, ← List.filterMap_append]

/-- A frame that can be taken apart, and in whose header no line is blank but perhaps the first
ones, is read from a stream that holds nothing else, and can then be taken apart into the same
length and the same body. -/
theorem readings_bytesOf_split {message content : String} {n : Nat} {header body : List Char}
    (hsplit : split message = .ok (n, content))
    (hheader : FirstCut "\r\n\r\n".toList message.toList header body)
    (hlines : ∀ line ∈ (header.splitOn '\n').dropWhile isBlankLine, isBlankLine line = false) :
    ∃ frame, split frame = .ok (n, content) ∧
      (Source.mk (bytesOf message) .closed).readings = [.frame frame, .ended] := by
  obtain ⟨header', hcut, hlength, hsize, hfits, hne⟩ := split_eq_ok hsplit
  obtain ⟨rfl, rfl⟩ := hheader.unique hcut
  rw [← Text.pieces_eq_splitOn] at hlines
  obtain ⟨head, hwire, htexts⟩ := exists_textHead (isVoid_of_bodyLength hlength) hlines
  have hbody : bodyLength head.toHead.text.toList = .ok (bytesOf content).length := by
    rw [head.bodyLength_toHead, htexts, hlength, length_bytesOf, hsize]
  let segment : Segment :=
    .frame head.toHead (bytesOf content) content head.isText_toHead hbody
      (by rw [length_bytesOf]; exact hfits) (textOf?_eq_some_iff.mpr rfl)
  have hbytes : bytesOf message = [segment].flatMap Segment.wire ++ [] := by
    have hmessage : message.toList = header ++ ['\r', '\n', '\r', '\n'] ++ content.toList := hcut.eq
    rw [List.flatMap_singleton, List.append_nil]
    show _ = head.toHead.wire ++ bytesOf content
    rw [head.wire_toHead, hwire, bytesOf_eq_flatMap, bytesOf_eq_flatMap, hmessage,
      ← List.flatMap_append]
    simp only [List.append_assoc, List.cons_append, List.nil_append]
  refine ⟨head.toHead.text ++ separator ++ content, ?_, ?_⟩
  · rw [length_bytesOf] at hbody
    rw [split_append (head.toHead.firstCut head.isText_toHead content) hbody hfits, if_neg hne,
      hsize]
  · rw [hbytes, readings_append, readings_nil]
    rfl

/-- A frame with a blank line in front, odd carriage returns, no-break spaces around a key and its
value, and two lengths, of which the second counts. -/
theorem readings_bytesOf_split_odd :
    ∃ frame, split frame = .ok (6, "\r\n\r\né") ∧
      (Source.mk (bytesOf (" \r\n\u00A0content-length\u00A0:\u00A09\r\r\n" ++
        "\x0CContent-Length: +6\nX\rY\r\n\r\n\r\n\r\né")) .closed).readings =
        [.frame frame, .ended] := by
  have hcut : FirstCut "\r\n\r\n".toList (" \r\n\u00A0content-length\u00A0:\u00A09\r\r\n" ++
      "\x0CContent-Length: +6\nX\rY\r\n\r\n\r\n\r\né").toList
      " \r\n\u00A0content-length\u00A0:\u00A09\r\r\n\x0CContent-Length: +6\nX\rY".toList
      "\r\n\r\né".toList := Text.cut?_eq_some_iff.mp (by decide +kernel)
  exact readings_bytesOf_split (by decide +kernel) hcut (by decide +kernel)

end Frame
end TermLint

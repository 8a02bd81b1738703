/-
  TermLint.Proofs.Frame.Segment

  What a stream is made of.  A segment is a header block, with the bytes of its
  body where one follows, that is taken whole: a frame, or one of four kinds of
  malformed block.  Each kind takes other bytes (a body is taken only when the
  header gives its length), and any kind may follow any other, so the reader stays
  in step only if each of them is taken to its last byte and no further.

  `next_segment` says that one attempt to read takes exactly the first segment of
  a stream, whatever comes after it; that attempts on a list of segments give one
  reading for each follows by induction on the list.
-/

import Mathlib.Data.List.TakeWhile
import TermLint.Proofs.Frame.Utf8

namespace TermLint.Frame

/-! ## Lines -/

/-- A line of a stream, without the line feed that ends it. -/
structure Line where
  bytes : List UInt8
  no_feed : (0x0A : UInt8) ∉ bytes

namespace Line

/-- A line on the wire. -/
def wire (line : Line) : List UInt8 :=
  line.bytes ++ [0x0A]

/-- A line that holds nothing but ASCII blanks. -/
def IsBlank (line : Line) : Prop :=
  ∀ byte ∈ line.bytes, Text.isBlankByte byte = true

instance (line : Line) : Decidable line.IsBlank :=
  inferInstanceAs (Decidable (∀ byte ∈ line.bytes, _))

/-- The text of a line without the ASCII blanks around it; nothing when the line is no text. -/
def text? (line : Line) : Option String :=
  textOf? (Text.trimBytes line.bytes)

end Line

theorem strip_eq_nil_iff {α : Type} (p : α → Bool) (xs : List α) :
    Text.strip p xs = [] ↔ ∀ x ∈ xs, p x = true := by
  rw [Text.strip, List.reverse_eq_nil_iff]
  constructor
  · intro h
    have hall : ∀ x ∈ xs.dropWhile p, p x = true := by
      intro x hx
      exact List.dropWhile_eq_nil_iff.mp h x (List.mem_reverse.mpr hx)
    -- what is left after dropping cannot begin with a blank, so nothing is left
    have hnil : xs.dropWhile p = [] := by
      cases hd : xs.dropWhile p with
      | nil => rfl
      | cons x rest =>
        have hx : p x = true := hall x (hd ▸ List.mem_cons_self)
        have hhead := List.head_dropWhile_not p (l := xs) (by simp [hd])
        simp only [hd, List.head_cons, hx] at hhead
        cases hhead
    exact List.dropWhile_eq_nil_iff.mp hnil
  · intro h
    rw [List.dropWhile_eq_nil_iff.mpr h]
    rfl

theorem Line.trimBytes_eq_nil_iff (line : Line) :
    Text.trimBytes line.bytes = [] ↔ line.IsBlank :=
  strip_eq_nil_iff _ _

theorem Line.text?_eq_none_iff (line : Line) : line.text? = none ↔ ¬ IsText line.bytes := by
  rw [← isText_trimBytes, IsText, Line.text?, Option.not_isSome_iff_eq_none]

theorem lineFrom_append (passed bytes rest : List UInt8) (h : (0x0A : UInt8) ∉ bytes) :
    lineFrom passed (bytes ++ 0x0A :: rest) = some (passed.reverse ++ bytes, rest) := by
  induction bytes generalizing passed with
  | nil => rw [List.nil_append, lineFrom, if_pos rfl, List.append_nil]
  | cons byte bytes ih =>
    have hb : byte ≠ 0x0A := fun heq => h (heq ▸ List.mem_cons_self)
    rw [List.cons_append, lineFrom, if_neg hb, ih _ fun hm => h (List.mem_cons_of_mem _ hm)]
    rw [List.reverse_cons, List.append_assoc, List.singleton_append]

/-- The line feed of a line is the first one of the stream. -/
theorem lineFrom_wire (line : Line) (rest : List UInt8) :
    lineFrom [] (line.wire ++ rest) = some (line.bytes, rest) := by
  rw [Line.wire, List.append_assoc, List.singleton_append]
  exact lineFrom_append [] line.bytes rest line.no_feed

/-! ## Headers -/

/-- A header block: blank lines that may stand before it, its lines, and the blank line that ends
it. -/
structure Head where
  leading : List Line
  lines : List Line
  closing : Line
  leading_blank : ∀ line ∈ leading, line.IsBlank
  lines_ne : lines ≠ []
  lines_filled : ∀ line ∈ lines, ¬ line.IsBlank
  closing_blank : closing.IsBlank

namespace Head

/-- A header block on the wire. -/
def wire (head : Head) : List UInt8 :=
  head.leading.flatMap Line.wire ++ head.lines.flatMap Line.wire ++ head.closing.wire

/-- Every line of the header is text. -/
def IsText (head : Head) : Prop :=
  ∀ line ∈ head.lines, Frame.IsText line.bytes

instance (head : Head) : Decidable head.IsText :=
  inferInstanceAs (Decidable (∀ line ∈ head.lines, _))

/-- The trimmed lines of a header, one below the other. -/
def text (head : Head) : String :=
  "\r\n".intercalate (head.lines.map fun line => line.text?.getD "")

end Head

/-! ### One line at a time -/

/-- What a line does to the lines of a header that have been read, which are in reverse. -/
theorem blockFrom_wire (ending : Ending) (lines : List (Option String)) (line : Line)
    (rest : List UInt8) :
    blockFrom ending lines (line.wire ++ rest) =
      if line.IsBlank then
        if lines = [] then blockFrom ending [] rest else .header lines.reverse rest
      else blockFrom ending (line.text? :: lines) rest := by
  rw [blockFrom]
  split
  · rename_i hnone
    rw [lineFrom_wire] at hnone
    cases hnone
  · rename_i found left hsome
    rw [lineFrom_wire] at hsome
    cases hsome
    by_cases hblank : line.IsBlank
    · rw [if_pos hblank]
      simp only [line.trimBytes_eq_nil_iff.mpr hblank]
      cases lines with
      | nil => rw [if_pos rfl]
      | cons first more => rw [if_neg (List.cons_ne_nil _ _)]
    · rw [if_neg hblank, Line.text?]
      have hfilled := mt line.trimBytes_eq_nil_iff.mp hblank
      split
      · rename_i hnil
        exact absurd hnil hfilled
      · rfl

theorem blockFrom_leading (ending : Ending) (leading : List Line) (rest : List UInt8)
    (h : ∀ line ∈ leading, line.IsBlank) :
    blockFrom ending [] (leading.flatMap Line.wire ++ rest) = blockFrom ending [] rest := by
  induction leading with
  | nil => rfl
  | cons line leading ih =>
    rw [List.flatMap_cons, List.append_assoc, blockFrom_wire, if_pos (h line List.mem_cons_self),
      if_pos rfl]
    exact ih fun l hl => h l (List.mem_cons_of_mem _ hl)

theorem blockFrom_lines (ending : Ending) (done : List (Option String)) (lines : List Line)
    (rest : List UInt8) (h : ∀ line ∈ lines, ¬ line.IsBlank) :
    blockFrom ending done (lines.flatMap Line.wire ++ rest) =
      blockFrom ending ((lines.map Line.text?).reverse ++ done) rest := by
  induction lines generalizing done with
  | nil => rfl
  | cons line lines ih =>
    rw [List.flatMap_cons, List.append_assoc, blockFrom_wire, if_neg (h line List.mem_cons_self),
      ih _ fun l hl => h l (List.mem_cons_of_mem _ hl)]
    rw [List.map_cons, List.reverse_cons, List.append_assoc, List.singleton_append]

/-- A header block is taken up to the line feed of its closing line. -/
theorem blockFrom_head (ending : Ending) (head : Head) (rest : List UInt8) :
    blockFrom ending [] (head.wire ++ rest) = .header (head.lines.map Line.text?) rest := by
  have hne : (head.lines.map Line.text?).reverse ++ [] ≠ [] := by
    simpa using head.lines_ne
  rw [Head.wire, List.append_assoc, List.append_assoc,
    blockFrom_leading ending head.leading _ head.leading_blank,
    blockFrom_lines ending [] head.lines _ head.lines_filled, blockFrom_wire,
    if_pos head.closing_blank, if_neg hne, List.append_nil, List.reverse_reverse]

/-! ### The text of a header -/

theorem joined_eq_intercalate (lines : List String) : joined lines = "\r\n".intercalate lines := by
  induction lines with
  | nil => rfl
  | cons line rest ih =>
    cases rest with
    | nil => simp [joined]
    | cons next rest =>
      rw [joined, ih, String.intercalate_cons_cons]
      exact List.cons_ne_nil _ _

theorem allText?_eq_none {lines : List (Option String)} (h : none ∈ lines) :
    allText? lines = none := by
  induction lines with
  | nil => cases h
  | cons line lines ih =>
    cases line with
    | none => rfl
    | some text =>
      have hmem : none ∈ lines := by simpa using h
      rw [allText?, ih hmem, Option.map_none]

theorem allText?_eq_some {lines : List (Option String)} (h : none ∉ lines) :
    allText? lines = some (lines.map (·.getD "")) := by
  induction lines with
  | nil => rfl
  | cons line lines ih =>
    cases line with
    | none => exact absurd List.mem_cons_self h
    | some text =>
      rw [allText?, ih fun hm => h (List.mem_cons_of_mem _ hm)]
      rfl

theorem Head.none_mem_iff (head : Head) : none ∈ head.lines.map Line.text? ↔ ¬ head.IsText := by
  simp only [List.mem_map, Line.text?_eq_none_iff, Head.IsText, not_forall, exists_prop]

theorem Head.joined_texts (head : Head) :
    joined ((head.lines.map Line.text?).map (·.getD "")) = head.text := by
  rw [joined_eq_intercalate, List.map_map, Head.text]
  rfl

/-! ## Segments -/

/-- A part of a stream that one attempt to read takes. -/
inductive Segment where
  /-- A header that gives the length of the text after it. -/
  | frame (head : Head) (body : List UInt8) (text : String)
      (header_text : head.IsText) (length : bodyLength head.text.toList = .ok body.length)
      (fits : body.length ≤ maxLength) (body_text : textOf? body = some text)
  /-- A header that gives the length of a body which is no text. -/
  | garbled (head : Head) (body : List UInt8)
      (header_text : head.IsText) (length : bodyLength head.text.toList = .ok body.length)
      (fits : body.length ≤ maxLength) (body_not_text : ¬ IsText body)
  /-- A header with a line that is no text. -/
  | foreign (head : Head) (header_not_text : ¬ head.IsText)
  /-- A header without a usable length. -/
  | lengthless (head : Head) (fault : FramingFault)
      (header_text : head.IsText) (no_length : bodyLength head.text.toList = .error fault)
  /-- A header that gives the length of a body which is too large. -/
  | oversized (head : Head) (body : List UInt8)
      (header_text : head.IsText) (length : bodyLength head.text.toList = .ok body.length)
      (too_large : maxLength < body.length)

namespace Segment

/-- A segment on the wire. -/
def wire : Segment → List UInt8
  | .frame head body _ _ _ _ _ => head.wire ++ body
  | .garbled head body _ _ _ _ => head.wire ++ body
  | .foreign head _ => head.wire
  | .lengthless head _ _ _ => head.wire
  | .oversized head body _ _ _ => head.wire ++ body

/-- What is read from a segment. -/
def reading : Segment → Reading
  | .frame head _ text _ _ _ _ => .frame (head.text ++ "\r\n\r\n" ++ text)
  | .garbled .. => .malformed .bodyNotText
  | .foreign .. => .malformed .headerNotText
  | .lengthless _ fault _ _ => .malformed fault
  | .oversized _ body _ _ _ => .malformed (.tooLarge body.length)

end Segment

/-! ## Reading a segment -/

/-- A header of text leads to its frame. -/
theorem next_head (head : Head) (rest : List UInt8) (ending : Ending) (h : head.IsText) :
    Source.next ⟨head.wire ++ rest, ending⟩ =
      ((frameOf head.text rest ending).1, ⟨(frameOf head.text rest ending).2, ending⟩) := by
  have hnone : none ∉ head.lines.map Line.text? := fun hm => head.none_mem_iff.mp hm h
  simp only [Source.next, blockFrom_head, allText?_eq_some hnone, head.joined_texts]

/-- A body of the length that the header gives is taken whole, and nothing after it is. -/
theorem next_body (head : Head) (body rest : List UInt8) (ending : Ending) (h : head.IsText)
    (hlength : bodyLength head.text.toList = .ok body.length) :
    Source.next ⟨head.wire ++ body ++ rest, ending⟩ =
      (completeFrame head.text body.length body, ⟨rest, ending⟩) := by
  have hframe : frameOf head.text (body ++ rest) ending =
      (completeFrame head.text body.length body, rest) := by
    simp only [frameOf, hlength, List.take_left, List.drop_left, Nat.lt_irrefl, if_false]
  rw [List.append_assoc, next_head head _ ending h, hframe]

/-- One attempt to read takes the first segment of a stream, whatever comes after it. -/
theorem next_segment (segment : Segment) (rest : List UInt8) (ending : Ending) :
    Source.next ⟨segment.wire ++ rest, ending⟩ = (segment.reading, ⟨rest, ending⟩) := by
  cases segment with
  | frame head body text htext hlength hfits hbody =>
    rw [Segment.wire, next_body head body rest ending htext hlength]
    simp only [completeFrame, if_neg (Nat.not_lt.mpr hfits), hbody]
    rfl
  | garbled head body htext hlength hfits hbody =>
    have hnone : textOf? body = none := Option.not_isSome_iff_eq_none.mp hbody
    rw [Segment.wire, next_body head body rest ending htext hlength]
    simp only [completeFrame, if_neg (Nat.not_lt.mpr hfits), hnone]
    rfl
  | foreign head htext =>
    -- the lines before and after the one that is no text have been taken with it
    simp only [Segment.wire, Source.next, blockFrom_head,
      allText?_eq_none (head.none_mem_iff.mpr htext)]
    rfl
  | lengthless head fault htext hfault =>
    rw [Segment.wire, next_head head _ ending htext]
    simp only [frameOf, hfault]
    rfl
  | oversized head body htext hlength hlarge =>
    rw [Segment.wire, next_body head body rest ending htext hlength]
    simp only [completeFrame, if_pos hlarge]
    rfl

theorem Segment.reading_ne_ended (segment : Segment) : segment.reading ≠ .ended := by
  cases segment <;> exact fun h => by cases h

theorem Segment.reading_ne_failed (segment : Segment) (fault : TransportFault) :
    segment.reading ≠ .failed fault := by
  cases segment <;> exact fun h => by cases h

/-! ## Reading a stream -/

/-- After a frame or a malformed block, reading goes on with what is left. -/
theorem readings_of_next {source rest : Source} {reading : Reading}
    (h : source.next = (reading, rest)) (hended : reading ≠ .ended)
    (hfailed : ∀ fault, reading ≠ .failed fault) :
    source.readings = reading :: rest.readings := by
  rw [Source.readings]
  split
  all_goals
    rename_i hnext
    obtain ⟨rfl, rfl⟩ := Prod.mk.inj (h.symm.trans hnext)
  · exact absurd rfl hended
  · exact absurd rfl (hfailed _)
  · rfl
  · rfl

theorem next_nil : (Source.mk [] .closed).next = (.ended, ⟨[], .closed⟩) := by
  rw [Source.next, blockFrom]
  rfl

theorem readings_nil : (Source.mk [] .closed).readings = [.ended] := by
  rw [Source.readings]
  split
  all_goals
    rename_i hnext
    obtain ⟨hreading, -⟩ := Prod.mk.inj (next_nil.symm.trans hnext)
  · rfl
  · cases hreading
  · cases hreading
  · cases hreading

/-- A list of segments gives one reading for each, and leaves what comes after them. -/
theorem readings_append (segments : List Segment) (rest : List UInt8) (ending : Ending) :
    (Source.mk (segments.flatMap Segment.wire ++ rest) ending).readings =
      segments.map Segment.reading ++ (Source.mk rest ending).readings := by
  induction segments with
  | nil => rfl
  | cons segment segments ih =>
    rw [List.flatMap_cons, List.append_assoc,
      readings_of_next (next_segment segment _ ending) segment.reading_ne_ended
        segment.reading_ne_failed, ih]
    rfl

/-- Whatever segments follow one another in a stream, repeated attempts to read it give exactly one
reading for each, in order, and then the end. -/
theorem readings_segments (segments : List Segment) :
    (Source.mk (segments.flatMap Segment.wire) .closed).readings =
      segments.map Segment.reading ++ [.ended] := by
  have h := readings_append segments [] .closed
  rwa [List.append_nil, readings_nil] at h

/-- A header without a length, then a blank line and a frame whose body looks like a header. -/
theorem readings_segments_recovered :
    (Source.mk (bytesOf "X: 1\n\r\n\nContent-Length: 3\n\na:\n") .closed).readings =
      [.malformed .noLength, .frame "Content-Length: 3\r\n\r\na:\n", .ended] := by
  have h := readings_segments
    [.lengthless
      ⟨[], [⟨bytesOf "X: 1", by decide +kernel⟩], ⟨bytesOf "\r", by decide +kernel⟩,
        by decide +kernel, by decide +kernel, by decide +kernel, by decide +kernel⟩
      .noLength (by decide +kernel) (by decide +kernel),
    .frame
      ⟨[⟨[], by decide⟩], [⟨bytesOf "Content-Length: 3", by decide +kernel⟩], ⟨[], by decide⟩,
        by decide +kernel, by decide +kernel, by decide +kernel, by decide +kernel⟩
      (bytesOf "a:\n") "a:\n" (by decide +kernel) (by decide +kernel) (by decide +kernel)
      (by decide +kernel)]
  refine (congrArg (fun bytes => (Source.mk bytes .closed).readings) ?_).trans (h.trans ?_)
  · decide +kernel
  · decide +kernel
end TermLint.Frame

/-
  TermLint.Proofs.Frame.Remnant

  Every stream is a list of segments and a remnant.  A remnant is what no segment
  begins: the stream ends inside it, in a header line, before the blank line, or in
  a body.  Bytes that follow may turn a remnant into anything, so this is where the
  end of a stream matters.

  `next_of_isRemnant` says what little can be read from a remnant: all of it is
  taken, and a frame comes out only if the header gives the length zero.
-/

import TermLint.Proofs.Frame.Segment
import TermLint.Proofs.Text.Cut

namespace TermLint.Frame

/-! ## Lines -/

theorem lineFrom_eq_none {passed bytes : List UInt8} (h : (0x0A : UInt8) ∉ bytes) :
    lineFrom passed bytes = none := by
  induction bytes generalizing passed with
  | nil => rfl
  | cons byte bytes ih =>
    have hb : byte ≠ 0x0A := fun heq => h (heq ▸ List.mem_cons_self)
    rw [lineFrom, if_neg hb]
    exact ih fun hm => h (List.mem_cons_of_mem _ hm)

/-- A stream is made of lines, and of bytes without a line feed after the last of them. -/
theorem exists_lines (bytes : List UInt8) :
    ∃ (lines : List Line) (tail : List UInt8),
      (0x0A : UInt8) ∉ tail ∧ bytes = lines.flatMap Line.wire ++ tail := by
  induction bytes with
  | nil => exact ⟨[], [], by simp, rfl⟩
  | cons byte bytes ih =>
    obtain ⟨lines, tail, htail, rfl⟩ := ih
    by_cases hbyte : byte = 0x0A
    · -- a line feed ends an empty line of its own
      refine ⟨⟨[], by simp⟩ :: lines, tail, htail, ?_⟩
      rw [hbyte]
      rfl
    · -- any other byte belongs to the first line, or to the tail when there is no line
      cases lines with
      | nil =>
        refine ⟨[], byte :: tail, ?_, rfl⟩
        intro hmem
        rcases List.mem_cons.mp hmem with heq | hmem
        · exact hbyte heq.symm
        · exact htail hmem
      | cons line lines =>
        have hline : (0x0A : UInt8) ∉ byte :: line.bytes := by
          intro hmem
          rcases List.mem_cons.mp hmem with heq | hmem
          · exact hbyte heq.symm
          · exact line.no_feed hmem
        exact ⟨⟨byte :: line.bytes, hline⟩ :: lines, tail, htail, rfl⟩

/-! ## Headers that are not closed -/

/-- A header block in which the stream ends: its closing line is missing or has no line feed. -/
structure Opening where
  leading : List Line
  lines : List Line
  /-- The bytes after the last line feed. -/
  tail : List UInt8
  leading_blank : ∀ line ∈ leading, line.IsBlank
  lines_filled : ∀ line ∈ lines, ¬ line.IsBlank
  no_feed : (0x0A : UInt8) ∉ tail

namespace Opening

/-- An opening on the wire. -/
def wire (opening : Opening) : List UInt8 :=
  opening.leading.flatMap Line.wire ++ opening.lines.flatMap Line.wire ++ opening.tail

/-- The bytes after the last line feed, as a line. -/
def last (opening : Opening) : Line :=
  ⟨opening.tail, opening.no_feed⟩

/-- The header block that one more line feed would make of an opening. -/
def completed (opening : Opening) (hlines : opening.lines ≠ []) (hlast : opening.last.IsBlank) :
    Head where
  leading := opening.leading
  lines := opening.lines
  closing := opening.last
  leading_blank := opening.leading_blank
  lines_ne := hlines
  lines_filled := opening.lines_filled
  closing_blank := hlast

end Opening

/-- A stream begins with a header block, or it ends in one. -/
theorem head_or_opening (bytes : List UInt8) :
    (∃ (head : Head) (rest : List UInt8), bytes = head.wire ++ rest) ∨
      ∃ opening : Opening, bytes = opening.wire := by
  obtain ⟨lines, tail, htail, rfl⟩ := exists_lines bytes
  obtain ⟨leading, more, rfl, hleading, hmore⟩ := Text.exists_run Line.IsBlank lines
  obtain ⟨filled, others, rfl, hfilled, hothers⟩ :=
    Text.exists_run (fun line => ¬ line.IsBlank) more
  cases others with
  | nil =>
    refine .inr ⟨⟨leading, filled, tail, hleading, hfilled, htail⟩, ?_⟩
    simp only [Opening.wire, List.append_nil, List.flatMap_append]
  | cons closing others =>
    have hclosing : closing.IsBlank := not_not.mp (hothers closing rfl)
    -- the line after the leading ones is not blank, so it is not the closing line
    have hne : filled ≠ [] := by
      rintro rfl
      exact hmore closing rfl hclosing
    refine .inl ⟨⟨leading, filled, closing, hleading, hne, hfilled, hclosing⟩,
      others.flatMap Line.wire ++ tail, ?_⟩
    simp only [Head.wire, List.flatMap_append, List.flatMap_cons, List.append_assoc]

/-! ## Reading an opening -/

theorem blockFrom_tail (ending : Ending) (lines : List (Option String)) {tail : List UInt8}
    (h : (0x0A : UInt8) ∉ tail) : blockFrom ending lines tail = lastBlock lines tail ending := by
  rw [blockFrom]
  split
  · rfl
  · rename_i hsome
    rw [lineFrom_eq_none h] at hsome
    cases hsome

theorem blockFrom_opening (ending : Ending) (opening : Opening) :
    blockFrom ending [] opening.wire =
      lastBlock (opening.lines.map Line.text?).reverse opening.last.bytes ending := by
  rw [Opening.wire, List.append_assoc, blockFrom_leading ending _ _ opening.leading_blank,
    blockFrom_lines ending [] _ _ opening.lines_filled, blockFrom_tail ending _ opening.no_feed,
    List.append_nil]
  rfl

/-- Where a stream ends in a header, the header counts only if all it lacks is the line feed of its
blank line. -/
theorem lastBlock_cases (lines : List (Option String)) (line : Line) (ending : Ending) :
    lastBlock lines line.bytes ending = .ended ∨
      (∃ fault, lastBlock lines line.bytes ending = .failed fault) ∨
      (lines ≠ [] ∧ line.IsBlank ∧
        lastBlock lines line.bytes ending = .header lines.reverse []) := by
  unfold lastBlock
  split
  · exact .inr (.inl ⟨_, rfl⟩)
  · split
    · exact .inl rfl
    · exact .inr (.inl ⟨_, rfl⟩)
    · rename_i hne htrim
      split
      · exact .inr (.inl ⟨_, rfl⟩)
      · exact .inr (.inr ⟨hne, line.trimBytes_eq_nil_iff.mp htrim, rfl⟩)
    · exact .inr (.inl ⟨_, rfl⟩)

/-- What can be read where a stream ends: no frame at all, or one without a body. -/
inductive Reading.Bodiless : Reading → Prop where
  | ended : Bodiless .ended
  | failed (fault : TransportFault) : Bodiless (.failed fault)
  | malformed (fault : FramingFault) : Bodiless (.malformed fault)
  | frame (head : Head) (header_text : head.IsText)
      (length : bodyLength head.text.toList = .ok 0) : Bodiless (.frame (head.text ++ separator))

theorem bodiless_cutFrame (n : Nat) (ending : Ending) : (cutFrame n ending).Bodiless := by
  unfold cutFrame
  split
  · exact .failed _
  · split
    · exact .malformed _
    · exact .failed _

/-- A header with nothing after it. -/
theorem frameOf_nil (head : Head) (ending : Ending) (h : head.IsText) :
    (frameOf head.text [] ending).1.Bodiless ∧ (frameOf head.text [] ending).2 = [] := by
  unfold frameOf
  split
  · exact ⟨.malformed _, rfl⟩
  · rename_i n hlength
    simp only [List.take_nil, List.drop_nil, List.length_nil]
    split
    · exact ⟨bodiless_cutFrame n ending, rfl⟩
    · -- nothing is missing from a body of length zero
      rename_i hn
      obtain rfl : n = 0 := by omega
      have hempty : textOf? [] = some "" := textOf?_eq_some_iff.mpr rfl
      refine ⟨?_, rfl⟩
      simp only [completeFrame, hempty, Nat.not_lt_zero, if_false, String.append_empty]
      exact .frame head h hlength

/-- A stream that ends in a header is taken to its end. -/
theorem next_opening (opening : Opening) (ending : Ending) :
    (Source.next ⟨opening.wire, ending⟩).1.Bodiless ∧
      (Source.next ⟨opening.wire, ending⟩).2 = ⟨[], ending⟩ := by
  unfold Source.next
  simp only [blockFrom_opening]
  rcases lastBlock_cases (opening.lines.map Line.text?).reverse opening.last ending with
    hended | ⟨fault, hfailed⟩ | ⟨hne, hblank, hheader⟩
  · rw [hended]
    exact ⟨.ended, rfl⟩
  · rw [hfailed]
    exact ⟨.failed fault, rfl⟩
  · rw [hheader, List.reverse_reverse]
    have hlines : opening.lines ≠ [] := by simpa using hne
    by_cases htext : (opening.completed hlines hblank).IsText
    · have hnone : none ∉ opening.lines.map Line.text? := fun hmem =>
        (opening.completed hlines hblank).none_mem_iff.mp hmem htext
      have hjoined : joined ((opening.lines.map Line.text?).map (·.getD "")) =
          (opening.completed hlines hblank).text := (opening.completed hlines hblank).joined_texts
      obtain ⟨hreading, hrest⟩ := frameOf_nil _ ending htext
      simp only [allText?_eq_some hnone, hjoined, hrest]
      exact ⟨hreading, trivial⟩
    · have hnone : none ∈ opening.lines.map Line.text? :=
        (opening.completed hlines hblank).none_mem_iff.mpr htext
      simp only [allText?_eq_none hnone]
      exact ⟨.malformed _, trivial⟩

/-! ## Remnants -/

/-- Bytes that no segment begins. -/
def IsRemnant (bytes : List UInt8) : Prop :=
  ∀ (segment : Segment) (rest : List UInt8), bytes ≠ segment.wire ++ rest

theorem exists_segment_of_not_isRemnant {bytes : List UInt8} (h : ¬ IsRemnant bytes) :
    ∃ (segment : Segment) (rest : List UInt8), bytes = segment.wire ++ rest := by
  simpa [IsRemnant] using h

/-- A body of the length that the header gives makes a segment, whatever the body is. -/
theorem exists_segment (head : Head) (body : List UInt8) (h : head.IsText)
    (hlength : bodyLength head.text.toList = .ok body.length) :
    ∃ segment : Segment, segment.wire = head.wire ++ body := by
  by_cases hfits : body.length ≤ maxLength
  · cases htext : textOf? body with
    | some text => exact ⟨.frame head body text h hlength hfits htext, rfl⟩
    | none =>
      have hbody : ¬ IsText body := by simp [IsText, htext]
      exact ⟨.garbled head body h hlength hfits hbody, rfl⟩
  · exact ⟨.oversized head body h hlength (Nat.lt_of_not_le hfits), rfl⟩

/-- When a remnant has a whole header, it is the body that is cut. -/
theorem IsRemnant.body_cut {head : Head} {rest : List UInt8} (h : IsRemnant (head.wire ++ rest)) :
    head.IsText ∧ ∃ n, bodyLength head.text.toList = .ok n ∧ rest.length < n := by
  have htext : head.IsText := by
    refine not_not.mp fun hforeign => ?_
    exact h (.foreign head hforeign) rest rfl
  cases hlength : bodyLength head.text.toList with
  | error fault => exact absurd rfl (h (.lengthless head fault htext hlength) rest)
  | ok n =>
    refine ⟨htext, n, rfl, Nat.lt_of_not_le fun hle => ?_⟩
    have htake : (rest.take n).length = n := List.length_take_of_le hle
    obtain ⟨segment, hwire⟩ :=
      exists_segment head (rest.take n) htext (by rw [htake]; exact hlength)
    refine h segment (rest.drop n) ?_
    rw [hwire, List.append_assoc, List.take_append_drop]

/-- A remnant is taken to its end, and gives no frame with a body. -/
theorem next_of_isRemnant {bytes : List UInt8} (h : IsRemnant bytes) (ending : Ending) :
    (Source.next ⟨bytes, ending⟩).1.Bodiless ∧ (Source.next ⟨bytes, ending⟩).2 = ⟨[], ending⟩ := by
  rcases head_or_opening bytes with ⟨head, rest, rfl⟩ | ⟨opening, rfl⟩
  · obtain ⟨htext, n, hlength, hshort⟩ := h.body_cut
    have hcut : (rest.take n).length < n := by
      rw [List.length_take]
      omega
    have hframe : frameOf head.text rest ending = (cutFrame n ending, []) := by
      simp only [frameOf, hlength, hcut, if_true]
    rw [next_head head rest ending htext, hframe]
    exact ⟨bodiless_cutFrame n ending, rfl⟩
  · exact next_opening opening ending

/-! ## Streams -/

theorem Segment.wire_ne_nil (segment : Segment) : segment.wire ≠ [] := by
  intro hnil
  have hnext := next_segment segment [] .closed
  rw [hnil] at hnext
  exact segment.reading_ne_ended (Prod.mk.inj (hnext.symm.trans next_nil)).1

/-- Every stream is a list of segments and a remnant. -/
theorem exists_segments (bytes : List UInt8) :
    ∃ (segments : List Segment) (remnant : List UInt8),
      IsRemnant remnant ∧ bytes = segments.flatMap Segment.wire ++ remnant := by
  by_cases h : IsRemnant bytes
  · exact ⟨[], bytes, h, rfl⟩
  · obtain ⟨segment, rest, hbytes⟩ := exists_segment_of_not_isRemnant h
    have hlt : rest.length < bytes.length := by
      have hpos := List.length_pos_iff.mpr segment.wire_ne_nil
      rw [hbytes, List.length_append]
      omega
    obtain ⟨segments, remnant, hremnant, hrest⟩ := exists_segments rest
    refine ⟨segment :: segments, remnant, hremnant, ?_⟩
    rw [hbytes, hrest, List.flatMap_cons, List.append_assoc]
termination_by bytes.length

/-- A frame that is read has a header with the length of its body, which is not too large. -/
theorem exists_head_of_next_frame {source rest : Source} {frame : String}
    (h : source.next = (.frame frame, rest)) :
    ∃ (head : Head) (body : String), head.IsText ∧ frame = head.text ++ separator ++ body ∧
      bodyLength head.text.toList = .ok body.utf8ByteSize ∧ body.utf8ByteSize ≤ maxLength := by
  obtain ⟨bytes, ending⟩ := source
  by_cases hremnant : IsRemnant bytes
  · have hbodiless := (next_of_isRemnant hremnant ending).1
    rw [h] at hbodiless
    cases hbodiless with
    | frame head htext hlength =>
      exact ⟨head, "", htext, (String.append_empty).symm, hlength, Nat.zero_le _⟩
  · obtain ⟨segment, more, rfl⟩ := exists_segment_of_not_isRemnant hremnant
    have hreading := (Prod.mk.inj ((next_segment segment more ending).symm.trans h)).1
    cases segment with
    | frame head body text htext hlength hfits hbody =>
      have hsize : body.length = text.utf8ByteSize := by
        rw [textOf?_eq_some_iff.mp hbody, length_bytesOf]
      cases hreading
      exact ⟨head, text, htext, rfl, hsize ▸ hlength, hsize ▸ hfits⟩
    | garbled head body htext hlength hfits hbody => cases hreading
    | foreign head htext => cases hreading
    | lengthless head fault htext hfault => cases hreading
    | oversized head body htext hlength hlarge => cases hreading

end TermLint.Frame

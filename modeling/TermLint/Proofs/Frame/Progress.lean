/-
  TermLint.Proofs.Frame.Progress

  Attempts to read a stream, one after another.  Each takes something from the
  stream until it is over, so that no more than one attempt can be made for each
  byte, and nothing comes after the end.  A stream that is closed can fail an
  attempt in two ways only: it ends inside a header block, or inside a body that is
  not too large (`CutShort`).  Such a failure takes all that is left, so it is the
  last thing that is read.

  `Source.next_induction` is the induction that goes with a stream: one case for
  each kind of reading, with what is left as the smaller stream.
-/

import TermLint.Proofs.Frame.Remnant

namespace TermLint.Frame

variable {bytes : List UInt8} {fault : TransportFault}

/-! ## Streams, one reading after another -/

/-- What holds of a stream that gives no more frames, and of a stream whose next reading leaves one
of which it holds, holds of all streams. -/
@[elab_as_elim]
theorem Source.next_induction {motive : Source → Prop}
    (ended : ∀ source rest, source.next = (.ended, rest) → motive source)
    (failed : ∀ source rest fault, source.next = (.failed fault, rest) → motive source)
    (malformed : ∀ source rest fault, source.next = (.malformed fault, rest) → motive rest →
      motive source)
    (frame : ∀ source rest text, source.next = (.frame text, rest) → motive rest → motive source)
    (source : Source) : motive source := by
  generalize hnext : source.next = next
  obtain ⟨reading, rest⟩ := next
  cases reading with
  | ended => exact ended source rest hnext
  | failed fault => exact failed source rest fault hnext
  | malformed fault =>
    have hlt := Source.next_lt hnext (by simp) (by simp)
    exact malformed source rest fault hnext
      (Source.next_induction ended failed malformed frame rest)
  | frame text =>
    have hlt := Source.next_lt hnext (by simp) (by simp)
    exact frame source rest text hnext (Source.next_induction ended failed malformed frame rest)
termination_by source.bytes.length

/-- A stream after a number of attempts to read it. -/
def Source.after (source : Source) : Nat → Source
  | 0 => source
  | n + 1 => source.next.2.after n

/-- What the attempt gives that comes after a number of others. -/
def Source.attempt (source : Source) (n : Nat) : Reading :=
  (source.after n).next.1

theorem Source.attempt_succ {source rest : Source} {reading : Reading}
    (h : source.next = (reading, rest)) (n : Nat) : source.attempt (n + 1) = rest.attempt n := by
  rw [attempt, after, h]
  rfl

theorem Source.after_succ (source : Source) (n : Nat) :
    source.after (n + 1) = (source.after n).next.2 := by
  induction n generalizing source with
  | zero => rfl
  | succ n ih => exact ih source.next.2

/-! ## What an attempt takes -/

/-- An attempt takes the beginning of a stream, which is not empty unless the stream is over. -/
theorem next_takes {source rest : Source} {reading : Reading} (h : source.next = (reading, rest)) :
    rest.ending = source.ending ∧
      ∃ taken, source.bytes = taken ++ rest.bytes ∧
        (source.ending = .closed → reading ≠ .ended → taken ≠ []) := by
  obtain ⟨bytes, ending⟩ := source
  by_cases hremnant : IsRemnant bytes
  · have hrest := (next_of_isRemnant hremnant ending).2
    rw [h] at hrest
    subst hrest
    refine ⟨rfl, bytes, (List.append_nil bytes).symm, ?_⟩
    -- all of it is taken, and if that is nothing, the stream was over
    rintro rfl hended rfl
    exact hended (Prod.mk.inj (h.symm.trans next_nil)).1
  · obtain ⟨segment, more, rfl⟩ := exists_segment_of_not_isRemnant hremnant
    obtain ⟨-, rfl⟩ := Prod.mk.inj ((next_segment segment more ending).symm.trans h)
    exact ⟨rfl, segment.wire, rfl, fun _ _ => segment.wire_ne_nil⟩

theorem ending_after (source : Source) (n : Nat) : (source.after n).ending = source.ending := by
  induction n generalizing source with
  | zero => rfl
  | succ n ih => exact (ih source.next.2).trans (next_takes rfl).1

/-- Nothing is left where an attempt gives neither a frame nor a malformed block. -/
theorem next_leaves_nothing {source rest : Source} {reading : Reading}
    (h : source.next = (reading, rest))
    (hreading : reading = .ended ∨ ∃ fault, reading = .failed fault) :
    rest = ⟨[], source.ending⟩ := by
  obtain ⟨bytes, ending⟩ := source
  by_cases hremnant : IsRemnant bytes
  · have hrest := (next_of_isRemnant hremnant ending).2
    rwa [h] at hrest
  · obtain ⟨segment, more, rfl⟩ := exists_segment_of_not_isRemnant hremnant
    obtain ⟨hsegment, -⟩ := Prod.mk.inj ((next_segment segment more ending).symm.trans h)
    rcases hreading with hended | ⟨fault, hfailed⟩
    · exact absurd (hsegment.trans hended) segment.reading_ne_ended
    · exact absurd (hsegment.trans hfailed) (segment.reading_ne_failed fault)

/-! ## The end of a stream -/

theorem after_nil (n : Nat) : (Source.mk [] .closed).after n = ⟨[], .closed⟩ := by
  induction n with
  | zero => rfl
  | succ n ih => rw [Source.after_succ, ih, next_nil]

theorem attempt_nil (n : Nat) : (Source.mk [] .closed).attempt n = .ended := by
  rw [Source.attempt, after_nil, next_nil]

/-- The attempts after the first `k`, and only they, find the stream at its end. -/
def Source.EndsAfter (source : Source) (k : Nat) : Prop :=
  ∀ i, source.attempt i = .ended ↔ k ≤ i

theorem endsAfter_nil : (Source.mk [] .closed).EndsAfter 0 := by
  intro i
  exact iff_of_true (attempt_nil i) (Nat.zero_le i)

theorem Source.EndsAfter.succ {source rest : Source} {reading : Reading} {k : Nat}
    (hrest : rest.EndsAfter k) (h : source.next = (reading, rest)) (hreading : reading ≠ .ended) :
    source.EndsAfter (k + 1) := by
  intro i
  cases i with
  | zero =>
    have hfirst : source.attempt 0 = reading := by rw [attempt, after, h]
    rw [hfirst]
    exact iff_of_false hreading (Nat.not_succ_le_zero k)
  | succ i =>
    rw [attempt_succ h, hrest i]
    omega

/-- A reading that is not the end takes at least the byte that it needs in the count. -/
theorem exists_endsAfter_of_next {source rest : Source} {reading : Reading}
    (hclosed : source.ending = .closed) (hnext : source.next = (reading, rest))
    (hreading : reading ≠ .ended) (hrest : ∃ k ≤ rest.bytes.length, rest.EndsAfter k) :
    ∃ k ≤ source.bytes.length, source.EndsAfter k := by
  obtain ⟨k, hk, hends⟩ := hrest
  obtain ⟨-, taken, hbytes, htaken⟩ := next_takes hnext
  have hpos : 0 < taken.length := List.length_pos_iff.mpr (htaken hclosed hreading)
  have hlength : source.bytes.length = taken.length + rest.bytes.length := by
    rw [hbytes, List.length_append]
  exact ⟨k + 1, by omega, hends.succ hnext hreading⟩

/-- Every attempt on a closed stream, up to a certain one, gives something; that one and all after
it give the end.  There are no more of the former than the stream has bytes. -/
theorem exists_endsAfter (source : Source) (hclosed : source.ending = .closed) :
    ∃ k ≤ source.bytes.length, source.EndsAfter k := by
  induction source using Source.next_induction with
  | ended source rest hnext =>
    refine ⟨0, Nat.zero_le _, fun i => iff_of_true ?_ (Nat.zero_le i)⟩
    have hrest := next_leaves_nothing hnext (.inl rfl)
    cases i with
    | zero => rw [Source.attempt, Source.after, hnext]
    | succ i => rw [Source.attempt_succ hnext, hrest, hclosed, attempt_nil]
  | failed source rest fault hnext =>
    -- nothing is left, so this is the only attempt that gives something
    have hrest := next_leaves_nothing hnext (.inr ⟨fault, rfl⟩)
    rw [hclosed] at hrest
    subst hrest
    exact exists_endsAfter_of_next hclosed hnext (by simp) ⟨0, Nat.le_refl _, endsAfter_nil⟩
  | malformed source rest fault hnext ih =>
    have hends := ih ((next_takes hnext).1.trans hclosed)
    exact exists_endsAfter_of_next hclosed hnext (by simp) hends
  | frame source rest text hnext ih =>
    have hends := ih ((next_takes hnext).1.trans hclosed)
    exact exists_endsAfter_of_next hclosed hnext (by simp) hends

/-- After a failure a closed stream is over. -/
theorem attempt_of_failed {source : Source} (hclosed : source.ending = .closed) {i j : Nat}
    (h : source.attempt i = .failed fault) (hij : i < j) : source.attempt j = .ended := by
  have hnext : (source.after i).next = (.failed fault, source.after (i + 1)) :=
    Prod.ext h (source.after_succ i).symm
  have hrest := next_leaves_nothing hnext (.inr ⟨fault, rfl⟩)
  rw [ending_after, hclosed] at hrest
  -- the end is found right after the failure, and once it is found it stays
  have hended : source.attempt (i + 1) = .ended := by rw [Source.attempt, hrest, next_nil]
  obtain ⟨k, -, hk⟩ := exists_endsAfter source hclosed
  have hle : k ≤ i + 1 := (hk (i + 1)).mp hended
  exact (hk j).mpr (by omega)

/-! ## Streams that are cut short -/

/-- A closed stream that ends inside a header block, or inside a body that is not too large; and the
failure that this is. -/
inductive CutShort : List UInt8 → TransportFault → Prop where
  /-- The stream ends in a header line, or after one before the blank line. -/
  | header (opening : Opening)
      (begun : ¬ opening.last.IsBlank ∨ opening.lines ≠ [] ∧ opening.tail = []) :
      CutShort opening.wire .headerCut
  /-- The stream ends before the body is complete. -/
  | body (head : Head) (body : List UInt8) (n : Nat) (header_text : head.IsText)
      (length : bodyLength head.text.toList = .ok n) (fits : n ≤ maxLength)
      (short : body.length < n) : CutShort (head.wire ++ body) .bodyCut
  /-- The stream ends in the blank line, which counts as complete, and all of the body is missing. -/
  | blank (opening : Opening) (lines_ne : opening.lines ≠ []) (last_blank : opening.last.IsBlank)
      (tail_ne : opening.tail ≠ []) (n : Nat)
      (header_text : (opening.completed lines_ne last_blank).IsText)
      (length : bodyLength (opening.completed lines_ne last_blank).text.toList = .ok n)
      (fits : n ≤ maxLength) (short : 0 < n) : CutShort opening.wire .bodyCut

theorem frameOf_failed_iff (header : String) (bytes : List UInt8) :
    (frameOf header bytes .closed).1 = .failed fault ↔
      fault = .bodyCut ∧
        ∃ n, bodyLength header.toList = .ok n ∧ n ≤ maxLength ∧ bytes.length < n := by
  unfold frameOf
  cases hlength : bodyLength header.toList with
  | error malformed => simp
  | ok n =>
    simp only [Except.ok.injEq, exists_eq_left', List.length_take]
    split
    · -- the body is cut, which is a failure unless it is passed over
      rename_i hcut
      have hshort : bytes.length < n := by omega
      simp only [cutFrame]
      by_cases hlarge : maxLength < n
      · simp only [hlarge, if_true, Nat.not_le.mpr hlarge]
        simp
      · have hfits : n ≤ maxLength := Nat.not_lt.mp hlarge
        simp only [hlarge, if_false, Reading.failed.injEq, hfits, hshort, and_true]
        exact eq_comm
    · -- the body is all there; it may be refused, but that is no failure of the stream
      rename_i hwhole
      have hlong : ¬ bytes.length < n := by omega
      simp only [hlong, and_false, iff_false, completeFrame]
      split
      · simp
      · split
        · simp
        · simp

theorem next_head_failed_iff (head : Head) (rest : List UInt8) :
    (Source.next ⟨head.wire ++ rest, .closed⟩).1 = .failed fault ↔
      fault = .bodyCut ∧ head.IsText ∧
        ∃ n, bodyLength head.text.toList = .ok n ∧ n ≤ maxLength ∧ rest.length < n := by
  by_cases htext : head.IsText
  · rw [next_head head rest .closed htext, frameOf_failed_iff]
    simp only [htext, true_and]
  · -- a header that is no text is passed over without looking for a body
    have hnext := next_segment (.foreign head htext) rest .closed
    rw [Segment.wire] at hnext
    rw [hnext]
    simp only [htext, false_and, and_false, iff_false]
    exact Segment.reading_ne_failed _ fault

/-- What is left of a header block where the stream ends in it. -/
theorem lastBlock_closed (lines : List (Option String)) (line : Line) :
    lastBlock lines line.bytes .closed =
      if line.IsBlank then
        if lines = [] then .ended
        else if line.bytes = [] then .failed .headerCut
        else .header lines.reverse []
      else .failed .headerCut := by
  unfold lastBlock
  by_cases hblank : line.IsBlank
  · have htrim := line.trimBytes_eq_nil_iff.mpr hblank
    rw [if_pos hblank]
    cases lines with
    | nil => simp only [htrim, if_true]
    | cons first more => simp only [htrim, List.cons_ne_nil, if_false]
  · have htrim := mt line.trimBytes_eq_nil_iff.mp hblank
    rw [if_neg hblank]
    cases hbytes : Text.trimBytes line.bytes with
    | nil => exact absurd hbytes htrim
    | cons byte bytes =>
      cases lines with
      | nil => rfl
      | cons first more => rfl

/-- The end of a stream counts as the line feed of a blank line that has begun. -/
theorem next_completed (opening : Opening) (hlines : opening.lines ≠ [])
    (hlast : opening.last.IsBlank) (htail : opening.tail ≠ []) :
    (Source.next ⟨opening.wire, .closed⟩).1 =
      (Source.next ⟨(opening.completed hlines hlast).wire ++ [], .closed⟩).1 := by
  have hne : (opening.lines.map Line.text?).reverse ≠ [] := by simpa using hlines
  have hopening : blockFrom .closed [] opening.wire =
      .header (opening.lines.map Line.text?) [] := by
    have hbytes : opening.last.bytes ≠ [] := htail
    rw [blockFrom_opening, lastBlock_closed, if_pos hlast, if_neg hne, if_neg hbytes,
      List.reverse_reverse]
  have hhead := blockFrom_head .closed (opening.completed hlines hlast) []
  simp only [Source.next, hopening, hhead]
  rfl

/-- Where a stream ends in a header block that cannot count as complete, that is a failure unless
nothing of the block is there. -/
theorem next_unclosed (opening : Opening)
    (h : ¬ opening.last.IsBlank ∨ opening.lines = [] ∨ opening.tail = []) :
    (Source.next ⟨opening.wire, .closed⟩).1 =
      if opening.last.IsBlank ∧ opening.lines = [] then .ended else .failed .headerCut := by
  have hblock := blockFrom_opening .closed opening
  rw [lastBlock_closed] at hblock
  by_cases hlast : opening.last.IsBlank
  · rw [if_pos hlast] at hblock
    by_cases hlines : opening.lines = []
    · rw [if_pos (by simpa using hlines)] at hblock
      rw [if_pos ⟨hlast, hlines⟩]
      simp only [Source.next, hblock]
    · have htail : opening.last.bytes = [] := by
        rcases h with hfilled | hnone | htail
        · exact absurd hlast hfilled
        · exact absurd hnone hlines
        · exact htail
      rw [if_neg (by simpa using hlines), if_pos htail] at hblock
      rw [if_neg (fun hboth => hlines hboth.2)]
      simp only [Source.next, hblock]
  · rw [if_neg hlast] at hblock
    rw [if_neg (fun hboth => hlast hboth.1)]
    simp only [Source.next, hblock]

/-- An attempt that fails on what could be the beginning of a header block finds the stream cut
short. -/
theorem cutShort_of_next_opening (opening : Opening)
    (hfailed : (Source.next ⟨opening.wire, .closed⟩).1 = .failed fault) :
    CutShort opening.wire fault := by
  by_cases hopen : ¬ opening.last.IsBlank ∨ opening.lines = [] ∨ opening.tail = []
  · rw [next_unclosed opening hopen] at hfailed
    split at hfailed
    · cases hfailed
    · rename_i hbegun
      cases hfailed
      refine .header opening ?_
      rcases hopen with hfilled | hnone | htail
      · exact .inl hfilled
      · exact .inl fun hlast => hbegun ⟨hlast, hnone⟩
      · by_cases hlast : opening.last.IsBlank
        · exact .inr ⟨fun hnone => hbegun ⟨hlast, hnone⟩, htail⟩
        · exact .inl hlast
  · -- the block counts as complete, and the failure is that of its body
    obtain ⟨hlast, hlines, htail⟩ :
        opening.last.IsBlank ∧ opening.lines ≠ [] ∧ opening.tail ≠ [] := by
      simpa only [not_or, not_not] using hopen
    rw [next_completed opening hlines hlast htail, next_head_failed_iff] at hfailed
    obtain ⟨rfl, htext, n, hlength, hfits, hshort⟩ := hfailed
    exact .blank opening hlines hlast htail n htext hlength hfits hshort

theorem CutShort.next_eq (hcut : CutShort bytes fault) :
    (Source.next ⟨bytes, .closed⟩).1 = .failed fault := by
  cases hcut with
  | header opening begun =>
    rw [next_unclosed opening (begun.imp_right fun h => .inr h.2), if_neg]
    rintro ⟨hlast, hnone⟩
    rcases begun with hfilled | ⟨hlines, -⟩
    · exact hfilled hlast
    · exact hlines hnone
  | body head body n htext hlength hfits hshort =>
    exact (next_head_failed_iff head body).mpr ⟨rfl, htext, n, hlength, hfits, hshort⟩
  | blank opening hlines hlast htail n htext hlength hfits hshort =>
    rw [next_completed opening hlines hlast htail, next_head_failed_iff]
    exact ⟨rfl, htext, n, hlength, hfits, hshort⟩

/-- An attempt on a closed stream fails exactly when the stream is cut short. -/
theorem next_failed_iff (bytes : List UInt8) (fault : TransportFault) :
    (Source.next ⟨bytes, .closed⟩).1 = .failed fault ↔ CutShort bytes fault := by
  constructor
  · intro hfailed
    rcases head_or_opening bytes with ⟨head, rest, rfl⟩ | ⟨opening, rfl⟩
    · obtain ⟨rfl, htext, n, hlength, hfits, hshort⟩ := (next_head_failed_iff head rest).mp hfailed
      exact .body head rest n htext hlength hfits hshort
    · exact cutShort_of_next_opening opening hfailed
  · exact CutShort.next_eq

/-! ## Where a stream fails -/

/-- Segments are read one for each attempt. -/
theorem after_segments (segments : List Segment) (rest : List UInt8) (ending : Ending) :
    (Source.mk (segments.flatMap Segment.wire ++ rest) ending).after segments.length =
      ⟨rest, ending⟩ := by
  induction segments with
  | nil => rfl
  | cons segment segments ih =>
    rw [List.flatMap_cons, List.append_assoc, List.length_cons, Source.after, next_segment]
    exact ih

/-- An attempt on a closed stream fails exactly when it comes to where the stream is cut short,
after one segment for each attempt before it. -/
theorem attempt_failed_iff (bytes : List UInt8) (i : Nat) (fault : TransportFault) :
    (Source.mk bytes .closed).attempt i = .failed fault ↔
      ∃ (segments : List Segment) (rest : List UInt8), segments.length = i ∧
        bytes = segments.flatMap Segment.wire ++ rest ∧ CutShort rest fault := by
  constructor
  · intro hfailed
    induction i generalizing bytes with
    | zero => exact ⟨[], bytes, rfl, rfl, (next_failed_iff bytes fault).mp hfailed⟩
    | succ i ih =>
      by_cases hremnant : IsRemnant bytes
      · -- nothing is left for a second attempt
        have hnext : Source.next ⟨bytes, .closed⟩ =
            ((Source.next ⟨bytes, .closed⟩).1, ⟨[], .closed⟩) :=
          Prod.ext rfl (next_of_isRemnant hremnant .closed).2
        rw [Source.attempt_succ hnext, attempt_nil] at hfailed
        cases hfailed
      · obtain ⟨segment, more, rfl⟩ := exists_segment_of_not_isRemnant hremnant
        rw [Source.attempt_succ (next_segment segment more .closed)] at hfailed
        obtain ⟨segments, rest, rfl, rfl, hcut⟩ := ih more hfailed
        refine ⟨segment :: segments, rest, rfl, ?_, hcut⟩
        rw [List.flatMap_cons, List.append_assoc]
  · rintro ⟨segments, rest, rfl, rfl, hcut⟩
    rw [Source.attempt, after_segments]
    exact (next_failed_iff rest fault).mpr hcut

end TermLint.Frame

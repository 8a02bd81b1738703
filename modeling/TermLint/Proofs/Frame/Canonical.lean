/-
  TermLint.Proofs.Frame.Canonical

  Frames that are read from a stream can be taken apart.  The reader finds the end
  of a header by its lines, `split` finds it by the separator; the two agree because
  of how the reader joins the lines anew: no line is empty, none holds a line feed,
  and none begins with a carriage return.  So a line feed of the header is never
  followed by a carriage return (`Tight`), and the separator cannot begin early.
-/

import TermLint.Proofs.Frame.Length
import TermLint.Proofs.Frame.Remnant
import TermLint.Proofs.Rpc.Interpretation

namespace TermLint.Frame

open Text (FirstCut)
open Rpc (Delivery)

/-! ## The lines of a header -/

/-- A line as it stands in a joined header. -/
structure IsHeaderLine (line : List Char) : Prop where
  no_feed : '\n' ∉ line
  begins : ∃ c rest, line = c :: rest ∧ c ≠ '\r'

/-- Trimming leaves a line of a header. -/
theorem Line.isHeaderLine {line : Line} {text : String} (hfilled : ¬ line.IsBlank)
    (htext : line.text? = some text) : IsHeaderLine text.toList := by
  have hbytes : Text.trimBytes line.bytes = bytesOf text := textOf?_eq_some_iff.mp htext
  obtain ⟨a, b, hline, -, -, hhead, -⟩ := Text.exists_strip Text.isBlankByte line.bytes
  have hstrip : Text.strip Text.isBlankByte line.bytes = bytesOf text := hbytes
  rw [hstrip] at hline hhead
  constructor
  · intro hmem
    -- the byte of a line feed would be one of the bytes of the line
    have hfeed : (0x0A : UInt8) ∈ bytesOf text := by
      rw [bytesOf_eq_flatMap]
      exact List.mem_flatMap.mpr ⟨'\n', hmem, by decide⟩
    apply line.no_feed
    rw [hline]
    exact List.mem_append_left _ (List.mem_append_right _ hfeed)
  · cases hchars : text.toList with
    | nil =>
      rw [bytesOf_eq_flatMap, hchars] at hbytes
      exact absurd (line.trimBytes_eq_nil_iff.mp hbytes) hfilled
    | cons c rest =>
      refine ⟨c, rest, rfl, ?_⟩
      rintro rfl
      have hreturn : (0x0D : UInt8) ∈ (bytesOf text).head? := by
        rw [bytesOf_eq_flatMap, hchars, List.flatMap_cons]
        rfl
      have hblank := hhead _ hreturn
      revert hblank
      decide

/-- The texts of the lines of a header. -/
def Head.texts (head : Head) : List String :=
  head.lines.map fun line => line.text?.getD ""

theorem Head.text_eq_joined (head : Head) : head.text = joined head.texts := by
  rw [joined_eq_intercalate]
  rfl

theorem Head.isHeaderLine_of_mem_texts {head : Head} (h : head.IsText) {text : String}
    (hmem : text ∈ head.texts) : IsHeaderLine text.toList := by
  obtain ⟨line, hline, rfl⟩ := List.mem_map.mp hmem
  cases htext : line.text? with
  | none => exact absurd (h line hline) ((line.text?_eq_none_iff).mp htext)
  | some text => exact line.isHeaderLine (head.lines_filled line hline) htext

/-! ## Joined headers -/

/-- Every line feed is followed by a character that is no carriage return. -/
def Tight (header : List Char) : Prop :=
  ∀ p q, header = p ++ '\n' :: q → ∃ c rest, q = c :: rest ∧ c ≠ '\r'

/-- A joined header begins as its first line does. -/
theorem joined_cons_begins {text : String} (h : IsHeaderLine text.toList) (texts : List String) :
    ∃ c rest, (joined (text :: texts)).toList = c :: rest ∧ c ≠ '\r' := by
  obtain ⟨c, rest, hchars, hc⟩ := h.begins
  cases texts with
  | nil => exact ⟨c, rest, by rw [joined, hchars], hc⟩
  | cons next texts =>
    refine ⟨c, rest ++ '\r' :: '\n' :: (joined (next :: texts)).toList, ?_, hc⟩
    simp [joined, hchars]

theorem tight_joined {texts : List String} (h : ∀ text ∈ texts, IsHeaderLine text.toList) :
    Tight (joined texts).toList := by
  induction texts with
  | nil =>
    intro p q heq
    simp [joined] at heq
  | cons text texts ih =>
    have htext : '\n' ∉ text.toList := (h text List.mem_cons_self).no_feed
    intro p q heq
    cases texts with
    | nil =>
      rw [joined] at heq
      exact absurd (heq ▸ List.mem_append_right p List.mem_cons_self) htext
    | cons next texts =>
      have hnext : ∀ t ∈ next :: texts, IsHeaderLine t.toList :=
        fun t ht => h t (List.mem_cons_of_mem _ ht)
      have hfront : '\n' ∉ text.toList ++ ['\r'] := by simp [htext]
      have hjoined : (joined (text :: next :: texts)).toList =
          (text.toList ++ ['\r']) ++ '\n' :: (joined (next :: texts)).toList := by
        simp [joined]
      rw [hjoined] at heq
      -- the line feed stands in the first line, right after it, or in the lines that follow
      rcases Nat.lt_trichotomy p.length (text.toList ++ ['\r']).length with hlt | hsame | hlt
      · obtain ⟨x, r, hp, hx⟩ := Text.exists_of_append_eq heq hlt
        refine absurd ?_ hfront
        rw [hp, ← List.head_eq_of_cons_eq hx]
        exact List.mem_append_right _ List.mem_cons_self
      · obtain ⟨-, hq⟩ := List.append_inj heq hsame.symm
        obtain ⟨c, rest, hbegins, hc⟩ := joined_cons_begins (hnext next List.mem_cons_self) texts
        exact ⟨c, rest, by rw [← (List.cons.inj hq).2, hbegins], hc⟩
      · obtain ⟨x, r, -, hx⟩ := Text.exists_of_append_eq heq.symm hlt
        exact ih hnext r q (List.cons.inj hx).2

/-- The separator after a tight header is the first one. -/
theorem Tight.firstCut {header : List Char} (h : Tight header) (body : List Char) :
    FirstCut separator.toList (header ++ separator.toList ++ body) header body := by
  refine ⟨rfl, fun p s heq => Nat.le_of_not_lt fun hlt => ?_⟩
  have hseparator : separator.toList = ['\r', '\n', '\r', '\n'] := rfl
  rw [List.append_assoc, List.append_assoc] at heq
  obtain ⟨x, q, hheader, hrest⟩ := Text.exists_of_append_eq heq hlt
  rw [hseparator] at hrest
  simp only [List.cons_append, List.nil_append, List.cons.injEq] at hrest
  obtain ⟨rfl, hrest⟩ := hrest
  -- an earlier separator would have its first line feed inside the header
  cases q with
  | nil => simp at hrest
  | cons y q =>
    simp only [List.cons_append, List.cons.injEq] at hrest
    obtain ⟨rfl, hrest⟩ := hrest
    obtain ⟨c, rest, rfl, hc⟩ := h (p ++ ['\r']) q (by rw [hheader]; simp)
    exact hc (List.head_eq_of_cons_eq hrest).symm

/-! ## Taking frames apart -/

/-- A frame whose header gives the length of its body is taken apart unless the body is empty. -/
theorem split_append {header body : String}
    (hcut : FirstCut separator.toList (header ++ separator ++ body).toList header.toList
      body.toList)
    (hlength : bodyLength header.toList = .ok body.utf8ByteSize)
    (hfits : body.utf8ByteSize ≤ maxLength) :
    split (header ++ separator ++ body) =
      if body = "" then .error .emptyBody else .ok (body.utf8ByteSize, body) := by
  have hhalves : halves? (header ++ separator ++ body) = some (header.toList, body.toList) :=
    Text.cut?_eq_some_iff.mpr hcut
  have hempty : body.toList = [] ↔ body = "" := by simp
  simp only [split, hhalves, isVoid_of_bodyLength hlength, Bool.false_eq_true, if_false, hempty,
    hlength, String.ofList_toList, if_neg (Nat.not_lt.mpr hfits), ne_eq, not_true_eq_false]

/-- What is known of a frame that can be taken apart. -/
theorem split_eq_ok {frame body : String} {n : Nat} (h : split frame = .ok (n, body)) :
    ∃ header : List Char, FirstCut separator.toList frame.toList header body.toList ∧
      bodyLength header = .ok n ∧ body.utf8ByteSize = n ∧ body.utf8ByteSize ≤ maxLength ∧
      body ≠ "" := by
  unfold split at h
  split at h
  · cases h
  · rename_i header content hhalves
    split at h
    · cases h
    · split at h
      · cases h
      · rename_i hcontent
        split at h
        · cases h
        · rename_i declared hlength
          simp only at h
          split at h
          · cases h
          · rename_i hfits
            split at h
            · cases h
            · rename_i hsize
              rw [ne_eq, not_not] at hsize
              cases h
              refine ⟨header, ?_, hlength, hsize.symm, hsize ▸ Nat.le_of_not_lt hfits, ?_⟩
              · rw [String.toList_ofList]
                exact Text.cut?_eq_some_iff.mp hhalves
              · simpa using hcontent

theorem Head.firstCut {head : Head} (h : head.IsText) (body : String) :
    FirstCut separator.toList (head.text ++ separator ++ body).toList head.text.toList
      body.toList := by
  have htight : Tight head.text.toList := by
    rw [head.text_eq_joined]
    exact tight_joined fun text hmem => head.isHeaderLine_of_mem_texts h hmem
  rw [String.toList_append, String.toList_append]
  exact htight.firstCut body.toList

/-- Whatever the state of a stream, a frame that is read from it is a header, the separator, which
occurs there for the first time, and a body of the length that the header gives, which is not too
large.  It is taken apart into these unless the body is empty, and being empty is the only fault
that it can have as a frame. -/
theorem split_of_next_frame {source rest : Source} {frame : String}
    (h : source.next = (.frame frame, rest)) :
    ∃ header body : String,
      FirstCut "\r\n\r\n".toList frame.toList header.toList body.toList ∧
      bodyLength header.toList = .ok body.utf8ByteSize ∧ body.utf8ByteSize ≤ 4194304 ∧
      (body ≠ "" → split frame = .ok (body.utf8ByteSize, body)) ∧
      (split frame = .error .emptyBody ↔ bodyLength header.toList = .ok 0) ∧
      ∀ fault, Delivery.ofFrame frame = .error (.framing fault) → fault = .emptyBody := by
  obtain ⟨head, body, htext, rfl, hlength, hfits⟩ := exists_head_of_next_frame h
  have hcut := head.firstCut htext body
  have hsplit := split_append hcut hlength hfits
  refine ⟨head.text, body, hcut, hlength, hfits, ?_, ?_, ?_⟩
  · intro hne
    rw [hsplit, if_neg hne]
  · rw [hsplit, hlength, Except.ok.injEq, String.utf8ByteSize_eq_zero_iff]
    by_cases hne : body = "" <;> simp [hne]
  · intro fault hfault
    rw [Rpc.ofFrame_framing_iff, hsplit] at hfault
    split at hfault
    · cases hfault
      rfl
    · cases hfault

/-- A frame with a carriage return inside a line, two lengths of which the second counts, and a body
that is the separator itself. -/
theorem split_of_next_frame_mixed :
    (Source.mk (bytesOf "\n X\r: 1 \nContent-Length: 9\r\ncontent-length:\t+4\n \n\r\n\r\n!")
          .closed).next =
        (.frame "X\r: 1\r\nContent-Length: 9\r\ncontent-length:\t+4\r\n\r\n\r\n\r\n",
          ⟨bytesOf "!", .closed⟩) ∧
      split "X\r: 1\r\nContent-Length: 9\r\ncontent-length:\t+4\r\n\r\n\r\n\r\n" =
        .ok (4, "\r\n\r\n") := by
  have hnext : (Source.mk
      (bytesOf "\n X\r: 1 \nContent-Length: 9\r\ncontent-length:\t+4\n \n\r\n\r\n!") .closed).next =
      (.frame "X\r: 1\r\nContent-Length: 9\r\ncontent-length:\t+4\r\n\r\n\r\n\r\n",
        ⟨bytesOf "!", .closed⟩) := by
    decide +kernel
  obtain ⟨header, body, hcut, -, -, hsplit, -⟩ := split_of_next_frame hnext
  -- there is only one first separator, so the body is known
  have hknown : FirstCut "\r\n\r\n".toList
      "X\r: 1\r\nContent-Length: 9\r\ncontent-length:\t+4\r\n\r\n\r\n\r\n".toList
      "X\r: 1\r\nContent-Length: 9\r\ncontent-length:\t+4".toList "\r\n\r\n".toList :=
    Text.cut?_eq_some_iff.mp (by decide +kernel)
  obtain rfl : body = "\r\n\r\n" := String.toList_injective (hcut.unique hknown).2
  exact ⟨hnext, hsplit (by decide)⟩

end TermLint.Frame

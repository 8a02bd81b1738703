/-
  TermLint.Proofs.Frame.RoundTrip

  Frames and the values they hold.  Decoding undoes encoding on plain values up to
  two limits, one on the length of the body in bytes and one on its nesting.  The
  limits are sharp, and each is told apart by the fault that it leads to.
-/

import TermLint.Proofs.Frame.Header
import TermLint.Proofs.Json.RoundTrip

namespace TermLint.Frame

/-- What a frame holds after its text has been wrapped: the reading of the text, once it fits. -/
theorem decode_wrap {body : String} (hne : body ≠ "") (hfits : body.utf8ByteSize ≤ maxLength) :
    decode (wrap body) =
      match Json.parse body with
      | .error e => .error (.body e)
      | .ok v => .ok ⟨body.utf8ByteSize, v⟩ := by
  have hword : body.utf8ByteSize < UInt64.size := Nat.lt_of_le_of_lt hfits (by decide)
  rewrite [decode, split_wrap hne, if_pos hword, if_neg (Nat.not_lt.mpr hfits)]
  rfl

theorem render_ne_empty {v : Value} (h : v.IsIntegral) : Json.render v ≠ "" := by
  intro hempty
  have hnil := congrArg String.toList hempty
  rw [Json.render, String.toList_ofList, String.toList_empty] at hnil
  exact Json.print_ne_nil h hnil

theorem decode_encode_of_le {v : Value} (h : v.IsPlain)
    (hfits : (Json.render v).utf8ByteSize ≤ maxLength) :
    decode (encode v) =
      if v.nesting ≤ Json.maxNesting then .ok ⟨(Json.render v).utf8ByteSize, v⟩
      else .error (.body (.malformed .tooDeep)) := by
  rw [encode, decode_wrap (render_ne_empty h.isIntegral) hfits, Json.parse_render h]
  by_cases hn : v.nesting ≤ Json.maxNesting
  · simp only [hn, if_true]
  · simp only [hn, if_false]

/-- A body that is too large is refused for its length, whatever it holds. -/
theorem decode_encode_of_lt {v : Value} (h : v.IsPlain)
    (hlarge : maxLength < (Json.render v).utf8ByteSize) :
    decode (encode v) =
      .error (.framing
        (if (Json.render v).utf8ByteSize < UInt64.size then .tooLarge (Json.render v).utf8ByteSize
          else .badLength (toString (Json.render v).utf8ByteSize))) := by
  rw [encode, decode, split_wrap (render_ne_empty h.isIntegral), if_pos hlarge]
  by_cases hn : (Json.render v).utf8ByteSize < UInt64.size
  · simp only [hn, if_true]
  · simp only [hn, if_false]

/-- Decoding gives back the value that was encoded, with the length of its text, exactly when the
text has at most 4194304 bytes and the value nests at most 127 lists and objects.  A longer text is
refused for its length, which is a word of 64 bits as the length of any text in memory is; a shorter
one that nests deeper is refused as a body that cannot be read. -/
theorem decode_encode {v : Value} (h : v.IsPlain) :
    (decode (encode v) = .ok ⟨(Json.render v).utf8ByteSize, v⟩ ↔
      (Json.render v).utf8ByteSize ≤ 4194304 ∧ v.nesting ≤ 127) ∧
    (4194304 < (Json.render v).utf8ByteSize → (Json.render v).utf8ByteSize < UInt64.size →
      decode (encode v) = .error (.framing (.tooLarge (Json.render v).utf8ByteSize))) ∧
    ((Json.render v).utf8ByteSize ≤ 4194304 → 127 < v.nesting →
      ∃ fault, decode (encode v) = .error (.body fault)) := by
  refine ⟨⟨fun hok => ?_, fun hlimits => ?_⟩, fun hlarge hword => ?_, fun hfits hdeep => ?_⟩
  · by_cases hfits : (Json.render v).utf8ByteSize ≤ maxLength
    · rw [decode_encode_of_le h hfits] at hok
      by_cases hn : v.nesting ≤ Json.maxNesting
      · exact ⟨hfits, hn⟩
      · rw [if_neg hn] at hok
        cases hok
    · rw [decode_encode_of_lt h (Nat.lt_of_not_le hfits)] at hok
      cases hok
  · obtain ⟨hfits, hn⟩ := hlimits
    rw [decode_encode_of_le h hfits]
    exact if_pos hn
  · rw [decode_encode_of_lt h hlarge, if_pos hword]
  · rw [decode_encode_of_le h hfits]
    exact ⟨.malformed .tooDeep, if_neg (Nat.not_le.mpr hdeep)⟩

/-- A value with an escaped string, a negative number and two levels. -/
theorem decode_encode_nested :
    decode (encode (.object [("id", .int (-7)), ("k", .array [.string "é\n", .null])])) =
      .ok ⟨27, .object [("id", .int (-7)), ("k", .array [.string "é\n", .null])]⟩ := by
  have hplain :
      (Value.object [("id", .int (-7)), ("k", .array [.string "é\n", .null])]).IsPlain := by
    refine .object _ (by decide) ?_
    simp only [List.mem_cons, List.not_mem_nil, or_false, forall_eq_or_imp, forall_eq]
    refine ⟨.int _ (by decide) (by decide), .array _ ?_⟩
    simp only [List.mem_cons, List.not_mem_nil, or_false, forall_eq_or_imp, forall_eq]
    exact ⟨.string _, .null⟩
  exact (decode_encode hplain).1.mpr ⟨by decide, by decide⟩

end TermLint.Frame

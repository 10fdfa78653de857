import Pinpoint.Proofs.Excerpt.QuotedLine

/-! # An excerpt depends on nearby text only

An excerpt is made from the text of the window, the place of the cursor in it and the token at the
cursor. Text put in front of a source moves the window along with the cursor, unless the window was
cut at the start of the source. Text put behind a source changes neither the window nor the token
where both end inside the source. Near the end of a source the window starts further left by the
whole `after`, so there the text in front has to be further away.
-/

namespace Pinpoint

namespace Span

/-- The span of the same text once another text is in front. -/
def shift (span : Span) (offset : Nat) : Span := ⟨offset + span.start, offset + span.stop⟩

theorem slice_shift (front text : Text) (span : Span) :
    (span.shift front.length).slice (front ++ text) = span.slice text := by
  rw [slice, slice, List.extract_eq_take_drop, List.extract_eq_take_drop, shift,
    List.drop_length_add_append, Nat.add_sub_add_left]

theorem slice_append_of_le {span : Span} {text : Text} (inside : span.stop ≤ text.length)
    (behind : Text) : span.slice (text ++ behind) = span.slice text := by
  rw [slice, slice, List.extract_eq_take_drop, List.extract_eq_take_drop]
  rcases Nat.le_total span.start text.length with starts | past
  · rw [List.drop_append_of_le_length starts,
      List.take_append_of_le_length (by rw [List.length_drop]; omega)]
  · rw [Nat.sub_eq_zero_of_le (Nat.le_trans inside past), List.take_zero, List.take_zero]

end Span

namespace Window

variable {window : Window} {cursor length : Nat}

/-- A window that ends inside the buffer is the one that was asked for. -/
theorem span_of_room (room : cursor + window.after ≤ length) :
    window.span cursor length = ⟨cursor - window.before, cursor + window.after⟩ := by
  have fits : window.overruns cursor length = false :=
    decide_eq_false (Nat.not_lt.mpr (Nat.le_trans (Nat.min_le_left ..) room))
  rw [span, fits, if_neg Bool.false_ne_true, Nat.min_eq_left room]

theorem overruns_eq_true_iff (bounded : length < maxOffset) :
    window.overruns cursor length = true ↔ length < cursor + window.after := by
  rw [overruns_iff, Nat.lt_min, and_iff_left bounded]

/-- A window that starts inside the buffer, even where it runs past the end, moves along with the
cursor when the buffer gets longer in front. -/
theorem span_add_of_le (away : window.before + window.after ≤ cursor) {offset : Nat}
    (bounded : offset + length < maxOffset) :
    window.span (offset + cursor) (offset + length) = (window.span cursor length).shift offset := by
  have moved : window.overruns (offset + cursor) (offset + length) = true ↔
      window.overruns cursor length = true := by
    rw [overruns_eq_true_iff bounded, overruns_eq_true_iff (by omega)]
    omega
  simp only [span, Span.shift, moved, Span.mk.injEq]
  constructor
  · split <;> omega
  · omega

/-- So does a window that starts and ends inside the buffer. -/
theorem span_add_of_room (away : window.before ≤ cursor) (room : cursor + window.after ≤ length)
    (offset : Nat) :
    window.span (offset + cursor) (offset + length) = (window.span cursor length).shift offset := by
  rw [span_of_room room, span_of_room (by omega), Span.shift, Span.mk.injEq]
  simp only
  omega

end Window

namespace Excerpt

variable {source : Text} {cursor : Nat} {window : Window}

/-- Where the text of the window, the place of the cursor in it and the token are the same, so is
the excerpt. -/
theorem ofSource_congr {other : Text} {place : Nat} (inside : cursor ≤ source.length)
    (otherInside : place ≤ other.length)
    (seen : (window.span place other.length).slice other =
      (window.span cursor source.length).slice source)
    (relative : place - (window.span place other.length).start =
      cursor - (window.span cursor source.length).start)
    (token : leadingToken (other.drop place) window.tokenLimit =
      leadingToken (source.drop cursor) window.tokenLimit) :
    ofSource other place window = ofSource source cursor window := by
  have line : focus other place window = focus source cursor window := by
    rw [focus, focus, seen, relative]
  rw [ofSource, ofSource, Nat.min_eq_left inside, Nat.min_eq_left otherInside]
  simp only [line, token]

/-- Text in front of a source does not change the excerpt where the window moves along. -/
theorem extract_append_left (nonempty : source ≠ []) (inside : cursor ≤ source.length)
    {front : Text} (moves : window.span (front.length + cursor) (front.length + source.length) =
      (window.span cursor source.length).shift front.length) :
    extract (some (front ++ source)) (front.length + cursor) window =
      extract (some source) cursor window := by
  rw [← List.length_append] at moves
  have otherInside : front.length + cursor ≤ (front ++ source).length := by
    rw [List.length_append]
    omega
  rw [extract_of_ne_nil nonempty, extract_of_ne_nil (List.append_ne_nil_of_right_ne_nil _ nonempty)]
  refine ofSource_congr inside otherInside ?_ ?_ ?_
  · rw [moves, Span.slice_shift]
  · rw [moves, Span.shift, Nat.add_sub_add_left]
  · rw [List.drop_length_add_append]

/-- Text behind a source does not change the excerpt where neither the window nor the token reaches
the end of the source. -/
theorem extract_append_right (nonempty : source ≠ []) (room : cursor + window.after ≤ source.length)
    (reach : cursor + window.tokenLimit ≤ source.length) (behind : Text) :
    extract (some (source ++ behind)) cursor window = extract (some source) cursor window := by
  have inside : cursor ≤ source.length := Nat.le_trans (Nat.le_add_right ..) room
  have longer : source.length ≤ (source ++ behind).length := by
    rw [List.length_append]
    exact Nat.le_add_right ..
  have same : window.span cursor (source ++ behind).length = window.span cursor source.length := by
    rw [Window.span_of_room room, Window.span_of_room (Nat.le_trans room longer)]
  rw [extract_of_ne_nil nonempty, extract_of_ne_nil (List.append_ne_nil_of_left_ne_nil nonempty _)]
  refine ofSource_congr inside (Nat.le_trans inside longer) ?_ ?_ ?_
  · rw [same, Span.slice_append_of_le (window.span_stop_le ..)]
  · rw [same]
  · rw [leadingToken, leadingToken, List.drop_append_of_le_length inside,
      List.take_append_of_le_length (by rw [List.length_drop]; omega)]

/-- Text in front of a source does not change an excerpt for which the window starts inside the
source, be it moved left by the whole `after` or not, and text behind the source does not change one
for which the window and the token end inside it. So two sources that agree on the window of the
cursor and on the characters that a token may take there have the same excerpt, whatever else they
hold. -/
theorem extract_of_nearby (source : Text) (cursor : Nat) (window : Window) (nonempty : source ≠ [])
    (inside : cursor ≤ source.length) :
    (∀ front : Text, (front ++ source).length < maxOffset →
      (window.before + window.after ≤ cursor ∨
        window.before ≤ cursor ∧ cursor + window.after ≤ source.length) →
      extract (some (front ++ source)) (front.length + cursor) window =
        extract (some source) cursor window) ∧
    (∀ behind : Text, cursor + window.after ≤ source.length →
      cursor + window.tokenLimit ≤ source.length →
      extract (some (source ++ behind)) cursor window = extract (some source) cursor window) ∧
    (∀ front behind otherFront otherBehind : Text, window.before ≤ cursor →
      cursor + max window.after window.tokenLimit ≤ source.length →
      extract (some (front ++ source ++ behind)) (front.length + cursor) window =
        extract (some (otherFront ++ source ++ otherBehind)) (otherFront.length + cursor)
          window) := by
  refine ⟨?_, fun behind room reach => extract_append_right nonempty room reach behind, ?_⟩
  · intro front bounded away
    rw [List.length_append] at bounded
    apply extract_append_left nonempty inside
    rcases away with far | ⟨near, room⟩
    · exact Window.span_add_of_le far bounded
    · exact Window.span_add_of_room near room _
  · intro front behind otherFront otherBehind near reach
    have surrounded (front behind : Text) :
        extract (some (front ++ source ++ behind)) (front.length + cursor) window =
          extract (some source) cursor window := by
      have longer : source.length ≤ (source ++ behind).length := by
        rw [List.length_append]
        exact Nat.le_add_right ..
      have room : cursor + window.after ≤ (source ++ behind).length := by omega
      have moves := Window.span_add_of_room near room front.length
      rw [List.append_assoc, extract_append_left (List.append_ne_nil_of_left_ne_nil nonempty _)
        (Nat.le_trans inside longer) moves, extract_append_right nonempty (by omega) (by omega)]
    rw [surrounded front behind, surrounded otherFront otherBehind]

/-- The window of a cursor at the end of the source is moved left by the whole `after` and still
holds nothing of the line in front. One character earlier neither the text in front nor the text
behind is seen. -/
theorem extract_of_nearby_short_window :
    let source : Text := "let x = y".toList
    let window : Window := { before := 2, after := 1, tokenLimit := 1 }
    source ≠ [] ∧ 9 ≤ source.length ∧
      ("if b\n".toList ++ source).length < maxOffset ∧ window.before + window.after ≤ 9 ∧
      extract (some ("if b\n".toList ++ source)) (5 + 9) window = extract (some source) 9 window ∧
      8 + max window.after window.tokenLimit ≤ source.length ∧
      extract (some ("\r\n".toList ++ source ++ " + z".toList)) (2 + 8) window =
        extract (some ([] ++ source ++ "\n".toList)) (0 + 8) window := by
  intro source window
  have nonempty : source ≠ [] := by decide
  have atEnd := extract_of_nearby source 9 window nonempty (by decide)
  have inside := extract_of_nearby source 8 window nonempty (by decide)
  have bounded : ("if b\n".toList ++ source).length < maxOffset := by decide
  exact ⟨nonempty, by decide, bounded, by decide, atEnd.1 _ bounded (.inl (by decide)), by decide,
    inside.2.2 _ _ _ _ (by decide) (by decide)⟩

end Excerpt

end Pinpoint

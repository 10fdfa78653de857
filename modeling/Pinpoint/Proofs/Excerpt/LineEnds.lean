import Pinpoint.Proofs.Excerpt.Caret
import Pinpoint.Proofs.Text.LineEnds

/-! # Line ends and excerpts

A source with a carriage return before every line feed is scanned and quoted like the source
without them, the cursor being at the same character. The scan passes over carriage returns. A
window that covers the whole source holds the same lines, so isolation ends on the same one: there
are as many line feeds on its two sides, and the cursor is on the same side of each. The carriage
return at the end of the line is trimmed, and the token ends before it.
-/

namespace Pinpoint

open Text (returned returnedOffset)

namespace Location

theorem foldl_advance_returned (text : Text) (location : Location) :
    text.returned.foldl advance location = text.foldl advance location := by
  induction text generalizing location with
  | nil => rfl
  | cons c text ih =>
    by_cases feed : c = '\n'
    · subst feed
      have passed : location.advance '\r' = location := if_pos rfl
      rw [Text.returned_cons_lineFeed, List.foldl_cons, List.foldl_cons, List.foldl_cons, passed,
        ih]
    · rw [Text.returned_cons feed, List.foldl_cons, List.foldl_cons, ih]

theorem ofCursor_returned (source : Text) {cursor : Nat} (inside : cursor ≤ source.length) :
    ofCursor source.returned (source.returnedOffset cursor) = ofCursor source cursor := by
  rw [ofCursor, (source.exists_returned_parts inside).1, foldl_advance_returned, ofCursor]

end Location

/-- The window is as large as a source of the given length on either side of the cursor. -/
def Window.Covers (window : Window) (length : Nat) : Prop :=
  length ≤ window.before ∧ length ≤ window.after

namespace Window

variable {window : Window} {cursor length : Nat}

theorem Covers.mono (covers : window.Covers length) {shorter : Nat} (fewer : shorter ≤ length) :
    window.Covers shorter :=
  ⟨Nat.le_trans fewer covers.1, Nat.le_trans fewer covers.2⟩

theorem Covers.span_eq (covers : window.Covers length) (inside : cursor ≤ length) :
    window.span cursor length = ⟨0, length⟩ := by
  obtain ⟨before, after⟩ := covers
  unfold span
  simp only [Span.mk.injEq]
  constructor
  · split <;> omega
  · omega

end Window

namespace Excerpt

variable {source : Text} {cursor : Nat} {window : Window}

theorem focus_of_covers (covers : window.Covers source.length) (inside : cursor ≤ source.length) :
    focus source cursor window = (Focus.ofWindow source cursor).narrow := by
  have whole : (Span.mk 0 source.length).slice source = source := by
    rw [Span.slice, List.extract_eq_take_drop, List.drop_zero, Nat.sub_zero, List.take_length]
  rw [focus, covers.span_eq inside, whole, Nat.sub_zero]

/-! ## The quoted line -/

/-- Where isolation may end in a source, it may end with carriage returns in it. -/
theorem settled_returned {left line right behind : Text} (tail : Text)
    (settled : Focus.Settled left line right cursor) (plain : '\n' ∉ line)
    (counts : behind.count '\n' = right.count '\n') :
    Focus.Settled left.returned (line ++ tail) behind
      (returnedOffset (left ++ line ++ right) cursor) := by
  have start : returnedOffset (left ++ line ++ right) left.length = left.returned.length := by
    rw [List.append_assoc, Text.returnedOffset_length]
  have stop : returnedOffset (left ++ line ++ right) (left ++ line).length =
      left.returned.length + line.length := by
    rw [Text.returnedOffset_length, Text.returned_append, Text.returned_of_plain plain,
      List.length_append]
  rw [Focus.Settled, Text.count_returned, counts]
  rcases settled with even | ⟨odd, late⟩ | ⟨odd, early⟩
  · exact .inl even
  · refine .inr (.inl ⟨odd, ?_⟩)
    rw [← start]
    exact Text.returnedOffset_mono _ late
  · refine .inr (.inr ⟨odd, ?_⟩)
    have moved : returnedOffset (left ++ line ++ right) cursor ≤ _ :=
      Text.returnedOffset_mono _ (Nat.le_trans early (Nat.le_of_eq List.length_append.symm))
    rw [stop] at moved
    rw [List.length_append]
    omega

/-- The line that is isolated is the same up to a carriage return at its end. -/
theorem text_focus_returned (inside : cursor ≤ source.length)
    (covers : window.Covers source.returned.length) :
    ∃ tail, Text.Returns tail ∧
      (focus source.returned (source.returnedOffset cursor) window).text =
        (focus source cursor window).text ++ tail := by
  have shorter : source.length ≤ source.returned.length := by
    rw [Text.length_returned]
    exact Nat.le_add_right ..
  rw [focus_of_covers covers (source.returnedOffset_le inside),
    focus_of_covers (covers.mono shorter) inside]
  obtain ⟨left, right, part, isLine, settled⟩ := Focus.narrow_ofWindow source cursor
  obtain ⟨otherLeft, otherRight, otherPart, otherIsLine, otherSettled⟩ :=
    Focus.narrow_ofWindow source.returned (source.returnedOffset cursor)
  obtain ⟨tail, behind, returns, parts, returnedIsLine, counts⟩ := isLine.exists_returned
  have whole := part.whole
  generalize (Focus.ofWindow source cursor).narrow.text = line at *
  subst whole
  have moved := settled_returned tail settled isLine.plain counts
  have same := otherPart.whole.symm.trans parts
  exact ⟨tail, returns, (otherSettled.eq moved otherIsLine returnedIsLine same).2⟩

/-! ## The token -/

/-- A line feed ends a token, and so does a carriage return. -/
theorem leadingToken_returned (rest : Text) (limit : Nat) :
    leadingToken rest.returned limit = leadingToken rest limit := by
  induction rest generalizing limit with
  | nil => rfl
  | cons c rest ih =>
    cases limit with
    | zero => simp only [leadingToken, List.take_zero]
    | succ limit =>
      by_cases feed : c = '\n'
      · subst feed
        rfl
      · have same := ih limit
        unfold leadingToken at same ⊢
        rw [Text.returned_cons feed, List.take_succ_cons, List.take_succ_cons, List.takeWhile_cons,
          List.takeWhile_cons, same]

/-! ## The excerpt -/

theorem ofSource_returned (inside : cursor ≤ source.length)
    (covers : window.Covers source.returned.length) :
    ofSource source.returned (source.returnedOffset cursor) window =
      ofSource source cursor window := by
  obtain ⟨tail, returns, line⟩ := text_focus_returned inside covers
  rw [ofSource, ofSource, Nat.min_eq_left inside,
    Nat.min_eq_left (source.returnedOffset_le inside)]
  simp only [line, Text.trim_append_of_returns _ returns, leadingToken_returned,
    (source.exists_returned_parts inside).2]

/-- The excerpt does not depend on the kind of the line ends where the window covers the source. -/
theorem extract_returned (inside : cursor ≤ source.length)
    (covers : window.Covers source.returned.length) :
    extract (some source.returned) (source.returnedOffset cursor) window =
      extract (some source) cursor window := by
  by_cases empty : source = []
  · subst empty
    rfl
  · rw [extract_of_ne_nil (mt Text.returned_eq_nil_iff.mp empty), extract_of_ne_nil empty,
      ofSource_returned inside covers]

end Excerpt

end Pinpoint

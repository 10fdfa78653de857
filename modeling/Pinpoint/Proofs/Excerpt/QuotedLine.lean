import Pinpoint.Proofs.Excerpt.Focus
import Pinpoint.Proofs.Excerpt.Window
import Pinpoint.Proofs.Location

/-! # The line that an excerpt quotes

An excerpt means to quote the line of the cursor. It does so exactly when the numbers of line feeds
that the window holds before and behind the cursor differ by at most one: the cuts from the outside
in take line feeds in pairs and look at the cursor only at the last one. Where the numbers differ by
more, the quoted line lies on the side of the larger one.
-/

namespace Pinpoint.Excerpt

/-- A source around its window and the window around the line that is left of it. -/
structure Placed (source : Text) (cursor : Nat) (window : Window)
    (before left right behind : Text) : Prop where
  whole : source = before ++ (left ++ (focus source cursor window).text ++ right) ++ behind
  /-- The window is what lies between the outer two. -/
  span_eq : window.span cursor source.length = ⟨before.length,
    before.length + (left ++ (focus source cursor window).text ++ right).length⟩
  dropped : (focus source cursor window).dropped = left.length
  isLine : Text.IsLine left (focus source cursor window).text right
  /-- It is the middle line, or the one next to the middle that the cursor is on the side of. -/
  settled : Focus.Settled left (focus source cursor window).text right (cursor - before.length)

theorem exists_placed (source : Text) (window : Window) {cursor : Nat}
    (inside : cursor ≤ source.length) :
    ∃ before left right behind, Placed source cursor window before left right behind := by
  obtain ⟨-, ordered, fits⟩ := window.within_span inside
  have first : (source.take (window.span cursor source.length).start).length =
      (window.span cursor source.length).start :=
    List.length_take_of_le (Nat.le_trans ordered fits)
  obtain ⟨left, right, part, isLine, settled⟩ :=
    Focus.narrow_ofWindow ((window.span cursor source.length).slice source)
      (cursor - (window.span cursor source.length).start)
  have filled := congrArg List.length part.whole
  rw [Span.length_slice fits] at filled
  refine ⟨source.take (window.span cursor source.length).start, left, right,
    source.drop (window.span cursor source.length).stop, ?_, ?_, part.dropped, isLine, ?_⟩
  · exact part.whole ▸ (Span.take_append_slice_append_drop source ordered).symm
  · rw [first, focus, ← filled, Nat.add_sub_cancel' ordered]
  · rw [first]
    exact settled

namespace Placed

variable {source : Text} {cursor : Nat} {window : Window} {before left right behind : Text}

theorem start (placed : Placed source cursor window before left right behind) :
    (window.span cursor source.length).start = before.length :=
  congrArg Span.start placed.span_eq

theorem stop (placed : Placed source cursor window before left right behind) :
    (window.span cursor source.length).stop =
      before.length + (left ++ (focus source cursor window).text ++ right).length :=
  congrArg Span.stop placed.span_eq

theorem isolated_eq (placed : Placed source cursor window before left right behind) :
    isolated source cursor window =
      ⟨before.length + left.length,
        before.length + left.length + (focus source cursor window).text.length⟩ := by
  rw [isolated, placed.start, placed.dropped]

/-- The cursor counted from the start of the window. -/
theorem cursor_eq (placed : Placed source cursor window before left right behind) :
    cursor = before.length + (cursor - before.length) := by
  have := window.span_start_le cursor source.length
  rw [placed.start] at this
  omega

theorem cursor_sub_le (placed : Placed source cursor window before left right behind)
    (inside : cursor ≤ source.length) :
    cursor - before.length ≤ (left ++ (focus source cursor window).text ++ right).length := by
  have := window.le_span_stop inside
  rw [placed.stop] at this
  omega

/-- The line feeds on either side of the cursor are those of the two parts of the window. -/
theorem feeds_eq (placed : Placed source cursor window before left right behind)
    (inside : cursor ≤ source.length) :
    let shown := left ++ (focus source cursor window).text ++ right
    feedsBehind source cursor window = (shown.take (cursor - before.length)).count '\n' ∧
      feedsAhead source cursor window = (shown.drop (cursor - before.length)).count '\n' := by
  intro shown
  have room : cursor - before.length ≤ shown.length := placed.cursor_sub_le inside
  have place := placed.cursor_eq
  have whole : source = before ++ shown ++ behind := placed.whole
  have start := placed.start
  have stop : _ = before.length + shown.length := placed.stop
  generalize cursor - before.length = offset at room place ⊢
  have divided : source = before ++ shown.take offset ++ shown.drop offset ++ behind := by
    rw [List.append_assoc before, List.take_append_drop, whole]
  constructor
  · have slice := Span.slice_append_append before (shown.take offset) (shown.drop offset ++ behind)
    rw [← List.append_assoc, ← divided, List.length_take_of_le room, ← place, ← start] at slice
    rw [feedsBehind, slice]
  · have slice := Span.slice_append_append (before ++ shown.take offset) (shown.drop offset) behind
    have reach : (before ++ shown.take offset).length = cursor := by
      rw [List.length_append, List.length_take_of_le room, ← place]
    have rest : cursor + (shown.drop offset).length = before.length + shown.length := by
      rw [List.length_drop]
      omega
    rw [← divided, reach, rest, ← stop] at slice
    rw [feedsAhead, slice]

/-- The window's line feeds stand on the left and on the right of the line that is kept. -/
theorem feedsBehind_add_feedsAhead (placed : Placed source cursor window before left right behind)
    (inside : cursor ≤ source.length) :
    feedsBehind source cursor window + feedsAhead source cursor window =
      left.count '\n' + right.count '\n' := by
  obtain ⟨behindEq, aheadEq⟩ := placed.feeds_eq inside
  rw [behindEq, aheadEq, ← List.count_append, List.take_append_drop, List.count_append,
    List.count_append, Text.count_eq_zero_of_plain placed.isLine.plain, Nat.add_zero]

/-- The scan finds as many lines as there are line feeds before the window and in it before the
cursor. -/
theorem line_eq (placed : Placed source cursor window before left right behind)
    (inside : cursor ≤ source.length) :
    (Location.ofCursor source cursor).line =
      before.count '\n' + feedsBehind source cursor window + 1 := by
  have room := placed.cursor_sub_le inside
  have place := placed.cursor_eq
  have whole := placed.whole
  rw [Location.line_ofCursor, (placed.feeds_eq inside).1, ← List.count_append]
  congr 2
  generalize left ++ (focus source cursor window).text ++ right = shown at room whole ⊢
  generalize cursor - before.length = offset at room place ⊢
  rw [whole, place, List.append_assoc before, List.take_length_add_append,
    List.take_append_of_le_length room]

/-- The isolated line is the part inside the window of the source line that has as many line feeds
before it. -/
theorem isolated_eq_inside (placed : Placed source cursor window before left right behind) :
    isolated source cursor window =
      (source.lineSpan (before.count '\n' + left.count '\n' + 1)).inside
        (window.span cursor source.length) := by
  have inside := placed.isLine.lineSpan_inside before behind
  rw [placed.isolated_eq, placed.span_eq, ← List.count_append, ← inside, ← placed.whole]

/-- The source is what stands before the line that is kept, that line and what follows it. -/
theorem whole_eq (placed : Placed source cursor window before left right behind) :
    source = (before ++ left) ++ (focus source cursor window).text ++ (right ++ behind) := by
  have whole := placed.whole
  generalize (focus source cursor window).text = text at whole ⊢
  rw [whole]
  simp only [List.append_assoc]

theorem slice_isolated (placed : Placed source cursor window before left right behind) :
    (isolated source cursor window).slice source = (focus source cursor window).text := by
  have slice := Span.slice_append_append (before ++ left) (focus source cursor window).text
    (right ++ behind)
  rw [← placed.whole_eq, List.length_append] at slice
  rw [placed.isolated_eq, slice]

/-- Either the line feeds on the two sides of the cursor are as many up to one and the kept line is
that of the cursor, or the kept line lies on the side with more of them. -/
theorem balance (placed : Placed source cursor window before left right behind)
    (inside : cursor ≤ source.length) :
    let feeds := feedsBehind source cursor window
    let others := feedsAhead source cursor window
    (((feeds : Int) - others).natAbs ≤ 1 ∧ left.count '\n' = feeds) ∨
      (others + 2 ≤ feeds ∧ left.count '\n' < feeds) ∨
        (feeds + 2 ≤ others ∧ feeds < left.count '\n') := by
  intro feeds others
  have total : feeds + others = _ := placed.feedsBehind_add_feedsAhead inside
  have found : feeds = _ := (placed.feeds_eq inside).1
  have room := placed.cursor_sub_le inside
  have settled := placed.settled
  unfold Focus.Settled at settled
  rcases Nat.lt_or_ge (cursor - before.length) left.length with early | late
  · have := placed.isLine.count_take_lt early
    omega
  rcases Nat.lt_or_ge (left.length + (focus source cursor window).text.length)
    (cursor - before.length) with past | within
  · have := placed.isLine.lt_count_take past room
    omega
  · have := placed.isLine.count_take_eq late within
    omega

theorem count_left_eq (placed : Placed source cursor window before left right behind)
    (inside : cursor ≤ source.length)
    (close : ((feedsBehind source cursor window : Int) - feedsAhead source cursor window).natAbs ≤ 1) :
    left.count '\n' = feedsBehind source cursor window := by
  rcases placed.balance inside with ⟨-, same⟩ | ⟨far, -⟩ | ⟨far, -⟩
  · exact same
  · omega
  · omega

/-- The line of the cursor is a line of the window as well. -/
theorem exists_cursorLine (placed : Placed source cursor window before left right behind)
    (inside : cursor ≤ source.length) :
    ∃ cursorLeft cursorLine cursorRight,
      left ++ (focus source cursor window).text ++ right =
        cursorLeft ++ cursorLine ++ cursorRight ∧
      Text.IsLine cursorLeft cursorLine cursorRight ∧
      cursorLeft.count '\n' = feedsBehind source cursor window ∧
      (source.lineSpan (Location.ofCursor source cursor).line).inside
          (window.span cursor source.length) =
        ⟨before.length + cursorLeft.length,
          before.length + cursorLeft.length + cursorLine.length⟩ := by
  obtain ⟨cursorLeft, cursorLine, cursorRight, parts, isLine, late, within⟩ :=
    Text.exists_isLine_at _ _ (placed.cursor_sub_le inside)
  have feeds : cursorLeft.count '\n' = feedsBehind source cursor window := by
    rw [(placed.feeds_eq inside).1, parts, isLine.count_take_eq late within]
  refine ⟨cursorLeft, cursorLine, cursorRight, parts, isLine, feeds, ?_⟩
  have shown := isLine.lineSpan_inside before behind
  rw [placed.line_eq inside, placed.span_eq, ← feeds, ← List.count_append, ← shown, ← parts,
    ← placed.whole]

theorem isolated_eq_cursorLine (placed : Placed source cursor window before left right behind)
    (inside : cursor ≤ source.length)
    (same : left.count '\n' = feedsBehind source cursor window) :
    isolated source cursor window =
      (source.lineSpan (Location.ofCursor source cursor).line).inside
        (window.span cursor source.length) := by
  rw [placed.isolated_eq_inside, placed.line_eq inside, same]

theorem isolated_before_cursorLine (placed : Placed source cursor window before left right behind)
    (inside : cursor ≤ source.length)
    (fewer : left.count '\n' < feedsBehind source cursor window) :
    (isolated source cursor window).stop <
      ((source.lineSpan (Location.ofCursor source cursor).line).inside
        (window.span cursor source.length)).start := by
  obtain ⟨_, _, _, parts, isLine, feeds, place⟩ := placed.exists_cursorLine inside
  have ends := placed.isLine.end_lt_start isLine parts (feeds.symm ▸ fewer)
  rw [placed.isolated_eq, place]
  simp only
  omega

theorem isolated_behind_cursorLine (placed : Placed source cursor window before left right behind)
    (inside : cursor ≤ source.length)
    (more : feedsBehind source cursor window < left.count '\n') :
    ((source.lineSpan (Location.ofCursor source cursor).line).inside
        (window.span cursor source.length)).stop <
      (isolated source cursor window).start := by
  obtain ⟨_, _, _, parts, isLine, feeds, place⟩ := placed.exists_cursorLine inside
  have ends := isLine.end_lt_start placed.isLine parts.symm (feeds.symm ▸ more)
  rw [placed.isolated_eq, place]
  simp only
  omega

/-- The line that is kept is one of the lines of the source. -/
theorem number_le (placed : Placed source cursor window before left right behind) :
    before.count '\n' + left.count '\n' + 1 ≤ source.lines.length := by
  have total := congrArg (List.count '\n') placed.whole
  simp only [List.count_append] at total
  rw [Text.length_lines]
  omega

end Placed

theorem extract_of_ne_nil {source : Text} (nonempty : source ≠ []) (cursor : Nat)
    (window : Window) : extract (some source) cursor window = ofSource source cursor window := by
  cases source with
  | nil => exact absurd rfl nonempty
  | cons c rest => rfl

/-- An excerpt quotes the line of the cursor exactly when the window holds as many line feeds
before the cursor as behind it, up to one. With more of them before the cursor it quotes an earlier
line, and with more of them behind the cursor a later one. -/
theorem isolated_eq_line_iff (source : Text) (cursor : Nat) (window : Window)
    (nonempty : source ≠ []) :
    let clamped := min cursor source.length
    let span := window.span clamped source.length
    let line := (Location.ofCursor source cursor).line
    let part := (source.lineSpan line).inside span
    let kept := isolated source clamped window
    let feeds := feedsBehind source clamped window
    let others := feedsAhead source clamped window
    (kept = part ↔ ((feeds : Int) - others).natAbs ≤ 1) ∧
    (((feeds : Int) - others).natAbs ≤ 1 →
      (extract (some source) cursor window).text = (part.slice source).trim) ∧
    (others + 2 ≤ feeds → kept.stop < part.start ∧
      ∃ number, 1 ≤ number ∧ number < line ∧ kept = (source.lineSpan number).inside span) ∧
    (feeds + 2 ≤ others → part.stop < kept.start ∧
      ∃ number, line < number ∧ number ≤ source.lines.length ∧
        kept = (source.lineSpan number).inside span) := by
  intro clamped span line part kept feeds others
  have inside : clamped ≤ source.length := Nat.min_le_right ..
  obtain ⟨before, left, right, behind, placed⟩ := exists_placed source window inside
  have scanned : Location.ofCursor source clamped = Location.ofCursor source cursor :=
    Location.ofCursor_min source cursor
  have lineEq : line = before.count '\n' + feeds + 1 := by
    have := placed.line_eq inside
    rwa [scanned] at this
  have near : left.count '\n' = feeds → kept = part := by
    have := placed.isolated_eq_cursorLine inside
    rwa [scanned] at this
  have earlier : left.count '\n' < feeds → kept.stop < part.start := by
    have := placed.isolated_before_cursorLine inside
    rwa [scanned] at this
  have later : feeds < left.count '\n' → part.stop < kept.start := by
    have := placed.isolated_behind_cursorLine inside
    rwa [scanned] at this
  have ordered : kept.start ≤ kept.stop := Nat.le_add_right ..
  have balance : (((feeds : Int) - others).natAbs ≤ 1 ∧ left.count '\n' = feeds) ∨
      (others + 2 ≤ feeds ∧ left.count '\n' < feeds) ∨
        (feeds + 2 ≤ others ∧ feeds < left.count '\n') := placed.balance inside
  refine ⟨⟨?_, ?_⟩, ?_, ?_, ?_⟩
  · intro same
    rcases balance with ⟨close, -⟩ | ⟨-, fewer⟩ | ⟨-, more⟩
    · exact close
    · have := earlier fewer
      rw [← same] at this
      omega
    · have := later more
      rw [← same] at this
      omega
  · intro close
    exact near (placed.count_left_eq inside close)
  · intro close
    rw [extract_of_ne_nil nonempty, ← near (placed.count_left_eq inside close)]
    exact congrArg Text.trim placed.slice_isolated.symm
  · intro far
    exact ⟨earlier (by omega), _, Nat.le_add_left .., by omega, placed.isolated_eq_inside⟩
  · intro far
    exact ⟨later (by omega), _, by omega, placed.number_le, placed.isolated_eq_inside⟩

/-- With three line feeds before the cursor and none behind it, an earlier line is quoted. -/
theorem isolated_eq_line_iff_last_of_four :
    let source : Text := "a\nb\nc\nd".toList
    source ≠ [] ∧ feedsAhead source 6 {} + 2 ≤ feedsBehind source 6 {} ∧
      (isolated source 6 {}).stop < ((source.lineSpan 4).inside ⟨0, 7⟩).start ∧
      ∃ number, 1 ≤ number ∧ number < 4 ∧
        isolated source 6 {} = (source.lineSpan number).inside ⟨0, 7⟩ := by
  intro source
  have far : feedsAhead source 6 {} + 2 ≤ feedsBehind source 6 {} := by decide +kernel
  exact ⟨by decide, far, (isolated_eq_line_iff source 6 {} (by decide)).2.2.1 far⟩

end Pinpoint.Excerpt

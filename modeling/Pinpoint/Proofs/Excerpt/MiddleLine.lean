import Mathlib.Logic.Function.Iterate
import Pinpoint.Proofs.Excerpt.Focus
import Pinpoint.Proofs.Excerpt.Window

/-! # Isolation ends on the middle line

Isolating a line of a window goes in rounds, each of which takes the outer two line feeds away or
the only one left. So the number of rounds is known beforehand, and so is the line that is kept: the
middle one, or with an odd number of line feeds one of the two that meet at the middle line feed. Only
in that last round does the cursor count, and it has been moved by exactly what was dropped before it.
-/

namespace Pinpoint.Focus

/-- One round of isolating a line; without line feeds nothing happens. -/
def cutOnce (focus : Focus) : Focus := focus.cut?.elim focus focus.apply

/-- The kept text is the line of a window with the given index, at the offsets of that line. -/
structure KeepsLine (focus : Focus) (window : Text) (index : Nat) : Prop where
  text_eq : window.lines[index]? = some focus.text
  place : window.lineSpan (index + 1) = ⟨focus.dropped, focus.dropped + focus.text.length⟩

variable {focus : Focus} {left right window : Text} {cursor : Nat}

/-! ## One round -/

theorem count_cutOnce (focus : Focus) :
    focus.cutOnce.text.count '\n' = focus.text.count '\n' - 2 := by
  unfold cutOnce
  cases due : focus.cut? with
  | none =>
    rw [Option.elim_none, cut?_eq_none_iff_count.mp due]
  | some cut => exact count_apply due

theorem narrow_cutOnce (focus : Focus) : focus.cutOnce.narrow = focus.narrow := by
  unfold cutOnce
  cases due : focus.cut? with
  | none => rfl
  | some cut => exact (narrow_of_cut?_eq_some due).symm

/-- A round leaves a part of the same window. -/
theorem PartOf.cutOnce (part : focus.PartOf left right window cursor) :
    ∃ left right, focus.cutOnce.PartOf left right window cursor := by
  unfold Focus.cutOnce
  cases due : focus.cut? with
  | none => exact ⟨left, right, part⟩
  | some cut =>
    cases due_of_cut? due with
    | head front back text frontPlain backPlain near => exact ⟨_, _, part.keepBefore text⟩
    | tail front back text frontPlain backPlain far => exact ⟨_, _, part.dropThrough text⟩
    | middle front middle back text frontPlain backPlain =>
      exact ⟨_, _, (part.keepBefore text).dropThrough (text_keepBefore text)⟩

/-! ## Many rounds -/

theorem count_iterate_cutOnce (focus : Focus) (rounds : Nat) :
    (cutOnce^[rounds] focus).text.count '\n' = focus.text.count '\n' - 2 * rounds := by
  induction rounds with
  | zero => rfl
  | succ rounds ih =>
    rw [Function.iterate_succ_apply', count_cutOnce, ih]
    omega

theorem narrow_iterate_cutOnce (focus : Focus) (rounds : Nat) :
    (cutOnce^[rounds] focus).narrow = focus.narrow := by
  induction rounds with
  | zero => rfl
  | succ rounds ih => rw [Function.iterate_succ_apply', narrow_cutOnce, ih]

theorem PartOf.iterate_cutOnce (part : focus.PartOf left right window cursor) (rounds : Nat) :
    ∃ left right, (Focus.cutOnce^[rounds] focus).PartOf left right window cursor := by
  induction rounds with
  | zero => exact ⟨left, right, part⟩
  | succ rounds ih =>
    obtain ⟨_, _, inner⟩ := ih
    rw [Function.iterate_succ_apply']
    exact inner.cutOnce

/-! ## The kept line -/

theorem PartOf.slice_eq (part : focus.PartOf left right window cursor) :
    (Span.mk focus.dropped (focus.dropped + focus.text.length)).slice window = focus.text := by
  rw [part.whole, part.dropped]
  exact Span.slice_append_append ..

/-- The line feeds of a window stand on the two sides of any line of it. -/
theorem PartOf.count_add_count (part : focus.PartOf left right window cursor)
    (isLine : Text.IsLine left focus.text right) :
    left.count '\n' + right.count '\n' = window.count '\n' := by
  rw [part.whole, List.count_append, List.count_append,
    Text.count_eq_zero_of_plain isLine.plain, Nat.add_zero]

theorem PartOf.keepsLine (part : focus.PartOf left right window cursor)
    (isLine : Text.IsLine left focus.text right) : focus.KeepsLine window (left.count '\n') where
  text_eq := part.whole ▸ isLine.getElem?_lines
  place := by
    have span := isLine.lineSpan_eq
    rw [← part.whole, ← part.dropped] at span
    exact span

theorem KeepsLine.unique {other : Focus} {index : Nat} (keeps : focus.KeepsLine window index)
    (otherKeeps : other.KeepsLine window index) :
    other.text = focus.text ∧ other.dropped = focus.dropped :=
  ⟨Option.some.inj (otherKeeps.text_eq.symm.trans keeps.text_eq),
    congrArg Span.start (otherKeeps.place.symm.trans keeps.place)⟩

/-- The line feed before a line that isolation may end on, or the one behind it, is the middle one. -/
theorem Settled.exists_middle {line : Text} {m : Nat} (settled : Settled left line right cursor)
    (isLine : Text.IsLine left line right)
    (odd : left.count '\n' + right.count '\n' = 2 * m + 1) :
    ∃ middle, (left ++ line ++ right).lineFeeds[m]? = some middle ∧
      left.count '\n' = if cursor ≤ middle then m else m + 1 := by
  rcases settled with even | ⟨more, late⟩ | ⟨more, early⟩
  · omega
  · -- the left part holds the middle line feed as its last character
    have number : left.count '\n' = m + 1 := by omega
    rcases isLine.opens with rfl | ⟨front, rfl⟩
    · cases number
    · rw [List.count_append, List.count_singleton_self] at number
      have found := Text.getElem?_lineFeeds front (line ++ right)
      rw [Nat.add_right_cancel number] at found
      rw [List.length_append, List.length_singleton] at late
      refine ⟨front.length, ?_, ?_⟩
      · rw [← found]
        simp only [List.append_assoc, List.cons_append, List.nil_append]
      · rw [if_neg (by omega), List.count_append, List.count_singleton_self, number]
  · -- the right part starts with the middle line feed
    have number : left.count '\n' = m := by omega
    rcases isLine.closes with rfl | ⟨rest, rfl⟩
    · rw [List.count_nil] at more
      omega
    · have found := Text.getElem?_lineFeeds (left ++ line) rest
      rw [List.count_append, Text.count_eq_zero_of_plain isLine.plain, Nat.add_zero, number]
        at found
      refine ⟨(left ++ line).length, found, ?_⟩
      rw [if_pos (by rwa [List.length_append]), number]

theorem keepsLine_narrow_of_even {m : Nat} (even : window.count '\n' = 2 * m) (cursor : Nat) :
    (ofWindow window cursor).narrow.KeepsLine window m := by
  obtain ⟨left, right, part, isLine, settled⟩ := narrow_ofWindow window cursor
  have total := part.count_add_count isLine
  unfold Settled at settled
  have middle : left.count '\n' = m := by omega
  exact middle ▸ part.keepsLine isLine

theorem exists_keepsLine_narrow_of_odd {m : Nat} (odd : window.count '\n' = 2 * m + 1)
    (cursor : Nat) :
    ∃ middle, window.lineFeeds[m]? = some middle ∧
      (ofWindow window cursor).narrow.KeepsLine window (if cursor ≤ middle then m else m + 1) := by
  obtain ⟨left, right, part, isLine, settled⟩ := narrow_ofWindow window cursor
  have total := part.count_add_count isLine
  obtain ⟨middle, found, index⟩ := settled.exists_middle isLine (total.trans odd)
  rw [← part.whole] at found
  exact ⟨middle, found, index ▸ part.keepsLine isLine⟩

/-- Isolation needs one round for every two line feeds of the window. After any number of rounds the
kept text lies in the window where it says, and the cursor has been moved by the characters dropped
before it. With an even number of line feeds the middle line is kept, wherever the cursor is. With an
odd number it is the line before the middle line feed where the cursor is not behind that one, and
else the line after it. -/
theorem narrow_keepsLine_middle (window : Text) (cursor : Nat) :
    let feeds := window.lineFeeds
    let start := ofWindow window cursor
    window.lines.length = feeds.length + 1 ∧
    (∀ rounds,
      let focus := cutOnce^[rounds] start
      (focus.cut? = none ↔ feeds.length ≤ 2 * rounds) ∧
      (focus.cut? = none → start.narrow = focus) ∧
      (Span.mk focus.dropped (focus.dropped + focus.text.length)).slice window = focus.text ∧
      focus.cursor = (cursor : Int) - focus.dropped) ∧
    (∀ m, feeds.length = 2 * m →
      start.narrow.KeepsLine window m ∧
      ∀ other, (ofWindow window other).narrow.text = start.narrow.text ∧
        (ofWindow window other).narrow.dropped = start.narrow.dropped) ∧
    (∀ m, feeds.length = 2 * m + 1 →
      ∃ middle, feeds[m]? = some middle ∧
        start.narrow.KeepsLine window (if cursor ≤ middle then m else m + 1)) := by
  intro feeds start
  have number : feeds.length = window.count '\n' := window.length_lineFeeds
  refine ⟨?_, ?_, ?_, ?_⟩
  · rw [Text.length_lines, number]
  · intro rounds focus
    obtain ⟨left, right, part⟩ := (partOf_ofWindow window cursor).iterate_cutOnce rounds
    refine ⟨?_, ?_, part.slice_eq, ?_⟩
    · rw [cut?_eq_none_iff_count, count_iterate_cutOnce, number]
      exact Nat.sub_eq_zero_iff_le
    · intro done
      rw [← narrow_iterate_cutOnce start rounds]
      exact narrow_of_cut?_eq_none done
    · rw [part.cursor_eq, part.dropped]
  · intro m twice
    have keeps := keepsLine_narrow_of_even (number.symm.trans twice)
    exact ⟨keeps cursor, fun other => (keeps cursor).unique (keeps other)⟩
  · intro m odd
    exact exists_keepsLine_narrow_of_odd (number.symm.trans odd) cursor

/-- The line feed in the middle of three stands before the cursor; two line feeds have one line
between them. -/
theorem narrow_keepsLine_middle_four_lines :
    let window : Text := "a\nb\nc\nd".toList
    let start := ofWindow window 5
    let shorter : Text := "a\nb\nc".toList
    window.lineFeeds.length = 2 * 1 + 1 ∧ start.narrow.KeepsLine window 2 ∧
      (cutOnce^[2] start).cut? = none ∧ start.narrow = cutOnce^[2] start ∧
      shorter.lineFeeds.length = 2 * 1 ∧ (ofWindow shorter 0).narrow.KeepsLine shorter 1 := by
  intro window start shorter
  have odd : window.lineFeeds.length = 2 * 1 + 1 := by decide
  have even : shorter.lineFeeds.length = 2 * 1 := by decide
  have third : window.lineFeeds[1]? = some 3 := by decide
  obtain ⟨-, rounds, -, middle⟩ := narrow_keepsLine_middle window 5
  obtain ⟨feed, found, keeps⟩ := middle 1 odd
  obtain rfl : feed = 3 := Option.some.inj (found.symm.trans third)
  have done : (cutOnce^[2] start).cut? = none := (rounds 2).1.mpr (by rw [odd]; decide)
  exact ⟨odd, keeps, done, (rounds 2).2.1 done, even,
    ((narrow_keepsLine_middle shorter 0).2.2.1 1 even).1⟩

end Pinpoint.Focus

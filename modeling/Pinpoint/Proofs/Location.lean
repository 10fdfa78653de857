import Mathlib.Data.List.Induction
import Pinpoint.Location

/-! # What scanning a source finds

Scanning adds one line for every line feed that it passes, and a character makes the line and the
column together larger by at most one.
-/

namespace Pinpoint.Location

/-- A character moves a location on by nothing, by a line or by a column. -/
theorem advance_cases (location : Location) (c : Char) :
    (c = '\r' ∧ location.advance c = location) ∨
    (c = '\n' ∧ location.advance c = ⟨location.line + 1, 0⟩) ∨
    (c ≠ '\r' ∧ c ≠ '\n' ∧ location.advance c = ⟨location.line, location.column + 1⟩) := by
  by_cases returns : c = '\r'
  · exact .inl ⟨returns, if_pos returns⟩
  · by_cases feed : c = '\n'
    · exact .inr (.inl ⟨feed, (if_neg returns).trans (if_pos feed)⟩)
    · exact .inr (.inr ⟨returns, feed, (if_neg returns).trans (if_neg feed)⟩)

/-- Every line feed starts a line. -/
theorem line_foldl_advance (text : Text) (location : Location) :
    (text.foldl advance location).line = location.line + text.count '\n' := by
  induction text generalizing location with
  | nil => rfl
  | cons c text ih =>
    rw [List.foldl_cons, ih]
    rcases advance_cases location c with ⟨rfl, same⟩ | ⟨rfl, next⟩ | ⟨-, feed, further⟩
    · rw [same, List.count_cons_of_ne (by decide)]
    · rw [next, List.count_cons_self]
      simp only
      omega
    · rw [further, List.count_cons_of_ne feed]

/-- The line of a cursor is one more than the number of line feeds before it. -/
theorem line_ofCursor (source : Text) (cursor : Nat) :
    (ofCursor source cursor).line = (source.take cursor).count '\n' + 1 := by
  rw [ofCursor, line_foldl_advance, start, Nat.add_comm]

/-- A cursor past the end is at the end. -/
theorem ofCursor_min (source : Text) (cursor : Nat) :
    ofCursor source (min cursor source.length) = ofCursor source cursor := by
  rw [ofCursor, ofCursor, ← List.take_eq_take_min]

theorem line_add_column_advance_le (location : Location) (c : Char) :
    (location.advance c).line + (location.advance c).column ≤
      location.line + location.column + 1 := by
  rcases advance_cases location c with ⟨-, same⟩ | ⟨-, next⟩ | ⟨-, -, further⟩
  · rw [same]
    exact Nat.le_succ _
  · rw [next]
    simp only
    omega
  · rw [further]
    simp only
    omega

theorem line_add_column_foldl_advance_le (text : Text) (location : Location) :
    (text.foldl advance location).line + (text.foldl advance location).column ≤
      location.line + location.column + text.length := by
  induction text generalizing location with
  | nil => exact Nat.le_refl _
  | cons c text ih =>
    have first := line_add_column_advance_le location c
    have rest := ih (location.advance c)
    rw [List.foldl_cons, List.length_cons]
    omega

/-- The line and the column together exceed the number of scanned characters by at most two. -/
theorem line_add_column_ofCursor_le (source : Text) (cursor : Nat) :
    (ofCursor source cursor).line + (ofCursor source cursor).column ≤
      (source.take cursor).length + 2 := by
  have := line_add_column_foldl_advance_le (source.take cursor) start
  rw [ofCursor, Nat.add_comm _ 2]
  exact this

/-! ## The place of a location in its text

Scanning goes forward and starts a new count at every line feed. Looking back from the cursor gives
the same location: its line is counted by the line feeds before it, and its column by the characters
behind the last of them, carriage returns left out. Only the first line has one column more. So the
location of a cursor in the second of two texts is put together from the end of the first and the
location that the cursor has in the second alone.
-/

/-- Behind a text without line feeds the column has grown, and behind any other text it counts the
last line alone. -/
theorem column_foldl_advance (text : Text) (location : Location) :
    (text.foldl advance location).column =
      if '\n' ∈ text then text.lastLine.countP (· ≠ '\r')
      else location.column + text.countP (· ≠ '\r') := by
  induction text using List.reverseRecOn with
  | nil => rfl
  | append_singleton text c ih =>
    rw [List.foldl_append, List.foldl_cons, List.foldl_nil, List.countP_append]
    rcases advance_cases (text.foldl advance location) c with
      ⟨rfl, same⟩ | ⟨rfl, next⟩ | ⟨returns, feed, further⟩
    · rw [same, ih, Text.lastLine_concat (by decide), List.countP_append]
      simp
    · rw [next, Text.lastLine_concat_lineFeed]
      simp
    · have one : [c].countP (· ≠ '\r') = 1 := by simp [returns]
      have kept : '\n' ∈ text ++ [c] ↔ '\n' ∈ text := by simp [Ne.symm feed]
      rw [further, ih, Text.lastLine_concat feed, List.countP_append, one]
      simp only [kept]
      split
      · rfl
      · rw [Nat.add_assoc]

/-- The location behind two texts, from the location behind the first. -/
theorem foldl_advance_start (text : Text) (location : Location) :
    text.foldl advance location =
      if '\n' ∈ text then
        ⟨location.line + (text.foldl advance start).line - 1, (text.foldl advance start).column⟩
      else ⟨location.line, location.column + (text.foldl advance start).column - 1⟩ := by
  have lines := line_foldl_advance text location
  have columns := column_foldl_advance text location
  rw [line_foldl_advance text start, column_foldl_advance text start]
  generalize text.foldl advance location = behind at lines columns ⊢
  obtain ⟨line, column⟩ := behind
  simp only [start] at lines columns ⊢
  by_cases feed : '\n' ∈ text
  · simp only [if_pos feed, mk.injEq] at columns ⊢
    omega
  · have none : text.count '\n' = 0 := List.count_eq_zero.mpr feed
    simp only [if_neg feed, mk.injEq] at columns ⊢
    omega

/-- The line of a cursor is one more than the number of line feeds before it. Its column is the
number of characters behind the last of these, or, in the first line, one more than the number of
characters before the cursor, where carriage returns never count. Both together are at most two more
than the number of characters before the cursor. In a source made of two texts, a cursor that has a
line feed of the second text before it adds its lines there to those of the first text and keeps its
column, and any other cursor stays in the last line of the first text and adds its columns. -/
theorem ofCursor_eq_position (source : Text) (cursor : Nat) :
    let scanned : Text := source.take (min cursor source.length)
    let location := ofCursor source cursor
    location.line = 1 + scanned.count '\n' ∧
    location.column =
      (if '\n' ∈ scanned then scanned.lastLine.countP (· ≠ '\r')
        else 1 + scanned.countP (· ≠ '\r')) ∧
    location.line + location.column ≤ scanned.length + 2 ∧
    ∀ (first second : Text) (offset : Nat),
      let before := ofCursor first first.length
      let alone := ofCursor second offset
      ofCursor (first ++ second) (first.length + offset) =
        if '\n' ∈ second.take offset then ⟨before.line + alone.line - 1, alone.column⟩
        else ⟨before.line, before.column + alone.column - 1⟩ := by
  intro scanned location
  have clamped : location = ofCursor source (min cursor source.length) :=
    (ofCursor_min source cursor).symm
  rw [clamped]
  refine ⟨?_, column_foldl_advance scanned start, line_add_column_ofCursor_le .., ?_⟩
  · rw [line_ofCursor, Nat.add_comm]
  · intro first second offset before alone
    have ended : before = first.foldl advance start :=
      congrArg (·.foldl advance start) List.take_length
    rw [ofCursor, List.take_length_add_append, List.foldl_append, ← ended, foldl_advance_start]
    rfl

end Pinpoint.Location

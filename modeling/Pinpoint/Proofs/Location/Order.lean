import Pinpoint.Proofs.Excerpt.Window
import Pinpoint.Proofs.Location

/-! # Locations are in the order of their cursors

The column alone goes back at every line feed, and the lines do not count columns from the same
origin, yet no step of a scan leads to an earlier location: a line feed leads to a later line, and
any other character but a carriage return to a later column of the same line. So a cursor further on
has a later location, except where nothing but carriage returns lies in between.
-/

namespace Pinpoint.Location

variable {a b : Location}

theorem le_iff : a ≤ b ↔ a.line < b.line ∨ a.line = b.line ∧ a.column ≤ b.column := by
  change ((compare a.line b.line).then (compare a.column b.column)).isLE = true ↔ _
  rw [Ordering.isLE_then_iff_or, Nat.compare_eq_lt, Nat.compare_eq_eq, Nat.isLE_compare]

theorem lt_iff : a < b ↔ a.line < b.line ∨ a.line = b.line ∧ a.column < b.column := by
  change (compare a.line b.line).then (compare a.column b.column) = .lt ↔ _
  rw [Ordering.then_eq_lt, Nat.compare_eq_lt, Nat.compare_eq_lt, Nat.compare_eq_eq]

theorem lt_irrefl (a : Location) : ¬ a < a := by
  rw [lt_iff]
  omega

theorem le_of_lt (earlier : a < b) : a ≤ b := by
  rw [lt_iff] at earlier
  rw [le_iff]
  omega

theorem le_refl (a : Location) : a ≤ a := le_iff.mpr (.inr ⟨rfl, Nat.le_refl _⟩)

/-- A scan that passes carriage returns only stays where it is, and any other one leads to a later
location. -/
theorem foldl_advance_cases (text : Text) (location : Location) :
    ((∀ c ∈ text, c = '\r') ∧ text.foldl advance location = location) ∨
    ((∃ c ∈ text, c ≠ '\r') ∧ location < text.foldl advance location) := by
  have lines := line_foldl_advance text location
  have columns := column_foldl_advance text location
  by_cases feed : '\n' ∈ text
  · have passed : 0 < text.count '\n' := List.count_pos_iff.mpr feed
    exact .inr ⟨⟨'\n', feed, by decide⟩, lt_iff.mpr (.inl (by omega))⟩
  · rw [List.count_eq_zero.mpr feed, Nat.add_zero] at lines
    rw [if_neg feed] at columns
    by_cases others : ∃ c ∈ text, c ≠ '\r'
    · have passed : 0 < text.countP (· ≠ '\r') := by simpa [List.countP_pos_iff] using others
      exact .inr ⟨others, lt_iff.mpr (.inr ⟨lines.symm, by omega⟩)⟩
    · have returns : ∀ c ∈ text, c = '\r' := by simpa using others
      have none : text.countP (· ≠ '\r') = 0 := by simpa [List.countP_eq_zero] using returns
      rw [none, Nat.add_zero] at columns
      exact .inl ⟨returns, congr (congrArg mk lines) columns⟩

/-- The location of a later cursor is found by scanning on. -/
theorem ofCursor_of_le (source : Text) {first second : Nat} (order : first ≤ second) :
    ofCursor source second =
      ((Span.mk first second).slice source).foldl advance (ofCursor source first) := by
  have parts : source.take second = source.take first ++ (Span.mk first second).slice source := by
    rw [Span.slice, List.extract_eq_take_drop, ← List.take_add, Nat.add_sub_cancel' order]
  rw [ofCursor, parts, List.foldl_append, ofCursor]

/-- Without carriage returns, a cursor further on has another location. -/
theorem ofCursor_ne_of_lt {source : Text} (plain : '\r' ∉ source) {first second : Nat}
    (order : first < second) (inside : second ≤ source.length) :
    ofCursor source first ≠ ofCursor source second := by
  rw [ofCursor_of_le source (Nat.le_of_lt order)]
  rcases foldl_advance_cases ((Span.mk first second).slice source) (ofCursor source first) with
    ⟨returns, -⟩ | ⟨-, later⟩
  · have length : ((Span.mk first second).slice source).length = second - first :=
      Span.length_slice inside
    obtain ⟨c, member⟩ := List.exists_mem_of_length_pos (by rw [length]; omega)
    have found : c ∈ source := by
      rw [Span.slice, List.extract_eq_take_drop] at member
      exact List.mem_of_mem_drop (List.mem_of_mem_take member)
    exact absurd (returns c member ▸ found) plain
  · intro same
    rw [← same] at later
    exact lt_irrefl _ later

/-- The location of a cursor is not before that of an earlier one. The two are the same where only
carriage returns lie in between, and else the later cursor has the later location. A cursor past the
end is at the end. In a source without carriage returns no two cursors share a location. -/
theorem ofCursor_keeps_order (source : Text) :
    (∀ first second, first ≤ second → second ≤ source.length →
      let between := (Span.mk first second).slice source
      ofCursor source first ≤ ofCursor source second ∧
      (ofCursor source first = ofCursor source second ↔ ∀ c ∈ between, c = '\r') ∧
      (ofCursor source first < ofCursor source second ↔ ∃ c ∈ between, c ≠ '\r')) ∧
    (∀ cursor, source.length ≤ cursor → ofCursor source cursor = ofCursor source source.length) ∧
    ('\r' ∉ source → ∀ first second, first ≤ source.length → second ≤ source.length →
      ofCursor source first = ofCursor source second → first = second) := by
  refine ⟨?_, ?_, ?_⟩
  · intro first second order _ between
    rw [ofCursor_of_le source order]
    rcases foldl_advance_cases between (ofCursor source first) with ⟨returns, same⟩ | ⟨more, later⟩
    · have none : ¬ ∃ c ∈ between, c ≠ '\r' := by simpa using returns
      rw [same]
      exact ⟨le_refl _, iff_of_true rfl returns, iff_of_false (lt_irrefl _) none⟩
    · have some : ¬ ∀ c ∈ between, c = '\r' := by simpa using more
      have apart : ofCursor source first ≠ between.foldl advance (ofCursor source first) := by
        intro same
        rw [← same] at later
        exact lt_irrefl _ later
      exact ⟨le_of_lt later, iff_of_false apart some, iff_of_true later more⟩
  · intro cursor past
    rw [← ofCursor_min source cursor, Nat.min_eq_right past]
  · intro plain first second firstInside secondInside same
    rcases Nat.lt_trichotomy first second with order | equal | order
    · exact absurd same (ofCursor_ne_of_lt plain order secondInside)
    · exact equal
    · exact absurd same.symm (ofCursor_ne_of_lt plain order firstInside)

/-- Passing a carriage return leaves the location as it is, and passing the line feed behind it
leads to a later one. A cursor past the end is at the end, and where a line feed stands alone it has
a location of its own. -/
theorem ofCursor_keeps_order_line_end :
    let source : Text := "ab\r\ncd".toList
    let plain : Text := "ab\ncd".toList
    ofCursor source 2 = ofCursor source 3 ∧ ofCursor source 3 < ofCursor source 4 ∧
      ofCursor source 9 = ofCursor source 6 ∧ ofCursor plain 2 ≠ ofCursor plain 3 := by
  intro source plain
  obtain ⟨order, past, -⟩ := ofCursor_keeps_order source
  obtain ⟨-, -, apart⟩ := ofCursor_keeps_order plain
  obtain ⟨-, same, -⟩ := order 2 3 (by decide) (by decide)
  obtain ⟨-, -, later⟩ := order 3 4 (by decide) (by decide)
  have returns : (Span.mk 2 3).slice source = ['\r'] := by decide
  have feed : (Span.mk 3 4).slice source = ['\n'] := by decide
  refine ⟨same.mpr ?_, later.mpr ?_, past 9 (by decide), fun shared => ?_⟩
  · rw [returns]
    exact List.forall_mem_singleton.mpr rfl
  · rw [feed]
    exact ⟨'\n', List.mem_singleton_self _, by decide⟩
  · exact absurd (apart (by decide) 2 3 (by decide) (by decide) shared) (by decide)

end Pinpoint.Location

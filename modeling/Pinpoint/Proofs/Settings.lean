import Pinpoint.Proofs.Excerpt.Window
import Pinpoint.Settings

/-! # What usable settings show

Settings pass the check when their window keeps a character before or behind the cursor. That is
not enough to show one: a window that keeps nothing behind the cursor is empty at the start of the
source, where nothing stands before it. Everywhere else usable settings show a character, at the end
of the source too, where the window moves left.
-/

namespace Pinpoint

namespace Window

variable {window : Window} {cursor length : Nat}

/-- Where characters are kept behind the cursor, a window is empty in an empty buffer only: at the
end of the buffer it overruns, and its start moves left by as many. -/
theorem span_start_lt_stop_of_after (kept : 0 < window.after) (inside : cursor ≤ length)
    (short : length < maxOffset) (nonempty : 0 < length) :
    (window.span cursor length).start < (window.span cursor length).stop := by
  rw [span_stop]
  rcases window.span_start_cases cursor length with ⟨-, start⟩ | ⟨fits, start⟩
  · omega
  · rw [Bool.eq_false_iff, ne_eq, overruns_iff] at fits
    omega

/-- A window that keeps nothing behind the cursor stops there. -/
theorem span_stop_of_after_eq_zero (none : window.after = 0) (inside : cursor ≤ length) :
    (window.span cursor length).stop = cursor := by
  rw [span_stop, none, Nat.add_zero]
  exact Nat.min_eq_left inside

theorem span_start_of_after_eq_zero (none : window.after = 0) :
    (window.span cursor length).start = cursor - window.before := by
  rcases window.span_start_cases cursor length with ⟨-, start⟩ | ⟨-, start⟩
  · rw [start, none, Nat.sub_zero]
  · exact start

end Window

/-- The wording of an error says which one it is, and nothing of what the reader says is lost. -/
theorem SettingsError.message_eq_message_iff {problem other : Text} {first second : SettingsError} :
    first.message problem = second.message other ↔
      first = second ∧ (first = .unreadable → problem = other) := by
  have apart (problem other : Text) (violation : Violation) :
      unreadable.message problem ≠ (invalid violation).message other :=
    fun same => absurd (congrArg List.head? same) (by decide : some 'F' ≠ some 'I')
  have told (violation otherViolation : Violation) :
      (invalid violation).message [] = (invalid otherViolation).message [] →
        violation = otherViolation := by
    cases violation <;> cases otherViolation <;> decide
  cases first with
  | unreadable =>
    cases second with
    | unreadable =>
      exact ⟨fun same => ⟨rfl, fun _ => List.append_cancel_left same⟩,
        fun same => congrArg unreadable.message (same.2 rfl)⟩
    | invalid violation => exact iff_of_false (apart _ _ _) fun same => nomatch same.1
  | invalid violation =>
    cases second with
    | unreadable => exact iff_of_false (apart _ _ _).symm fun same => nomatch same.1
    | invalid otherViolation =>
      constructor
      · intro same
        exact ⟨congrArg invalid (told _ _ same), nofun⟩
      · rintro ⟨⟨⟩, -⟩
        rfl

namespace Settings

theorem check_eq_ok_iff (settings : Settings) :
    settings.check = .ok () ↔ settings.violation? = none := by
  unfold check
  cases settings.violation? <;> simp only [reduceCtorEq]

/-- The setting that is reported is the first one that breaks a rule. -/
theorem field_of_violation?_eq_some {settings : Settings} {violation : Violation}
    (broken : settings.violation? = some violation) :
    (violation.field = "window".toList ∧ settings.window.before + settings.window.after = 0) ∨
      (violation.field = "window.token_limit".toList ∧
        settings.window.before + settings.window.after ≠ 0 ∧ settings.window.tokenLimit = 0) ∨
      (violation.field = "placeholder".toList ∧
        settings.window.before + settings.window.after ≠ 0 ∧ settings.window.tokenLimit ≠ 0 ∧
        settings.placeholder = []) := by
  unfold violation? at broken
  split at broken
  · next room =>
    cases broken
    exact .inl ⟨rfl, room⟩
  next room =>
  split at broken
  · next limit =>
    cases broken
    exact .inr (.inl ⟨rfl, room, limit⟩)
  next limit =>
  split at broken
  · next quoted =>
    cases broken
    exact .inr (.inr ⟨rfl, room, limit, quoted⟩)
  · cases broken

/-- Usable settings show a character of every source that has one, unless the cursor is at the start
and nothing is kept behind it; then they show none. -/
theorem span_start_lt_stop_iff (settings : Settings) (usable : settings.check = .ok ())
    (source : Text) (nonempty : source ≠ []) (short : source.length < maxOffset) (cursor : Nat) :
    let clamped := min cursor source.length
    let span := settings.window.span clamped source.length
    span.start < span.stop ↔ 0 < clamped ∨ 0 < settings.window.after := by
  intro clamped span
  have inside : clamped ≤ source.length := Nat.min_le_right ..
  obtain ⟨room, -⟩ := settings.violation?_eq_none_iff.mp (settings.check_eq_ok_iff.mp usable)
  rcases Nat.eq_zero_or_pos settings.window.after with none | kept
  · have start : span.start = clamped - settings.window.before :=
      Window.span_start_of_after_eq_zero none
    have stop : span.stop = clamped := Window.span_stop_of_after_eq_zero none inside
    omega
  · have shown : span.start < span.stop :=
      Window.span_start_lt_stop_of_after kept inside short (List.length_pos_iff.mpr nonempty)
    exact ⟨fun _ => .inr kept, fun _ => shown⟩

/-- At the end of a source of one character the window moves left and shows it. -/
theorem span_start_lt_stop_iff_at_end :
    let settings : Settings := { window := { before := 0, after := 1 } }
    settings.check = .ok () ∧ ['a'] ≠ [] ∧ ['a'].length < maxOffset ∧
      (settings.window.span 1 1).start < (settings.window.span 1 1).stop := by
  intro settings
  have usable : settings.check = .ok () := rfl
  have short : ['a'].length < maxOffset := by decide
  exact ⟨usable, by decide, short,
    (span_start_lt_stop_iff settings usable ['a'] (by decide) short 1).mpr (.inr (by decide))⟩

/-- Settings that keep five characters before the cursor and none behind it are usable, and show
nothing of a source whose cursor is at the start. -/
theorem check_ok_and_span_empty :
    let settings : Settings := { window := { before := 5, after := 0 } }
    settings.check = .ok () ∧
      settings.window.span 0 ['a'].length = ⟨0, 0⟩ ∧
      Excerpt.extract (some ['a']) 0 settings.window = ⟨[], none⟩ :=
  ⟨rfl, by decide, by decide +kernel⟩

end Settings

end Pinpoint

import Pinpoint.Proofs.Checked.Excerpt

/-! # A window holds what was asked for

Machine offsets stop at zero and at the largest offset, and at the end of the buffer the start of a
window jumps to the left by the whole `after`. Neither loses a character that was asked for: a
window holds all of them that the buffer has, and a window that asks for more holds all that a
smaller one does.
-/

namespace Pinpoint

namespace Window

variable {window wider : Window} {cursor length : Nat}

/-- What is asked for, cut to the buffer, lies in the window, wherever that starts. -/
theorem requested_within_span (inside : cursor ≤ length) :
    (Span.mk (cursor - window.before) (min (cursor + window.after) length)).Within
      (window.span cursor length) where
  start_le := window.span_start_le_sub cursor length
  ordered := Nat.le_trans (Nat.sub_le ..) (window.le_span_stop inside)
  le_stop := Nat.le_refl _

/-! ## Wider windows -/

theorem overruns_mono (after : window.after ≤ wider.after)
    (overruns : window.overruns cursor length = true) : wider.overruns cursor length = true := by
  rw [overruns_iff] at overruns ⊢
  omega

/-- A start jumps to the left once the end of the buffer is passed, and the wider window passes it
first: if the narrower one has jumped, so has the wider one. -/
theorem span_start_anti (before : window.before ≤ wider.before) (after : window.after ≤ wider.after)
    (cursor length : Nat) :
    (wider.span cursor length).start ≤ (window.span cursor length).start := by
  have asked : (wider.span cursor length).start ≤ cursor - wider.before :=
    wider.span_start_le_sub cursor length
  rcases window.span_start_cases cursor length with ⟨overruns, start⟩ | ⟨-, start⟩
  · rcases wider.span_start_cases cursor length with ⟨-, wider_start⟩ | ⟨fits, -⟩
    · omega
    · exact absurd (overruns_mono after overruns) (Bool.eq_false_iff.mp fits)
  · omega

theorem span_stop_mono (after : window.after ≤ wider.after) (cursor length : Nat) :
    (window.span cursor length).stop ≤ (wider.span cursor length).stop := by
  rw [span_stop, span_stop]
  omega

theorem span_within_span (before : window.before ≤ wider.before)
    (after : window.after ≤ wider.after) (inside : cursor ≤ length) :
    (window.span cursor length).Within (wider.span cursor length) where
  start_le := span_start_anti before after cursor length
  ordered := (window.within_span inside).ordered
  le_stop := span_stop_mono after cursor length

end Window

namespace Checked

/-- Whatever the sizes of a window are, its machine offsets enclose the cursor and lie in the
buffer. The window stops at the exact end asked for, cut to the buffer, and starts no later than
asked for, so it holds everything asked for that the buffer has, and at most `after` characters
besides. A window that asks for more on either side, or on both, holds all of it. -/
theorem bounds_hold_request (window : Window) {cursor length : Nat} (inside : cursor ≤ length)
    (fits : length ≤ maxOffset) :
    let span := bounds window cursor length
    span = window.span cursor length ∧
      span.start ≤ cursor ∧ cursor ≤ span.stop ∧ span.stop ≤ length ∧
      span.stop = min (cursor + window.after) length ∧
      (span.start : Int) ≤ max ((cursor : Int) - window.before) 0 ∧
      (Span.mk (cursor - window.before) (min (cursor + window.after) length)).Within span ∧
      span.stop - span.start ≤ window.before + 2 * window.after ∧
      ∀ wider : Window, window.before ≤ wider.before → window.after ≤ wider.after →
        span.Within (bounds wider cursor length) := by
  intro span
  have exact_eq (window : Window) : bounds window cursor length = window.span cursor length :=
    bounds_eq window cursor fits
  have same : span = window.span cursor length := exact_eq window
  have size := window.span_stop_le_start_add cursor length
  have start := window.span_start_le_sub cursor length
  rw [same]
  refine ⟨rfl, window.span_start_le cursor length, window.le_span_stop inside,
    window.span_stop_le cursor length, rfl, ?_, Window.requested_within_span inside, ?_, ?_⟩
  · omega
  · omega
  · intro wider before after
    rw [exact_eq wider]
    exact Window.span_within_span before after inside

/-- One character before the end of a buffer that is nearly as long as offsets go, a window that
asks for one character more jumps to the left and still holds the smaller one. -/
theorem bounds_hold_request_across_jump :
    let length := maxOffset - 1
    let cursor := maxOffset - 2
    let window : Window := { before := 1, after := 1 }
    let wider : Window := { before := 1, after := 2 }
    cursor ≤ length ∧ length ≤ maxOffset ∧
      window.before ≤ wider.before ∧ window.after ≤ wider.after ∧
      bounds window cursor length = ⟨maxOffset - 3, maxOffset - 1⟩ ∧
      bounds wider cursor length = ⟨maxOffset - 5, maxOffset - 1⟩ ∧
      (bounds window cursor length).Within (bounds wider cursor length) := by
  intro length cursor window wider
  have inside : cursor ≤ length := by decide
  have fits : length ≤ maxOffset := by decide
  obtain ⟨-, -, -, -, -, -, -, -, grows⟩ := bounds_hold_request window inside fits
  exact ⟨inside, fits, by decide, by decide, by decide, by decide,
    grows wider (by decide) (by decide)⟩

end Checked

end Pinpoint

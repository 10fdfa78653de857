import Pinpoint.Excerpt

/-! # Where a window lies in its buffer

A window starts at or before the cursor, stops at or behind it, and does not leave the buffer. So a
source is the text before the window, the text of the window and the text behind it.
-/

namespace Pinpoint

namespace Span

variable {text : Text} {span : Span}

/-- A span divides a text into three parts. -/
theorem take_append_slice_append_drop (text : Text) (ordered : span.start ≤ span.stop) :
    text.take span.start ++ span.slice text ++ text.drop span.stop = text := by
  have joined : span.slice text ++ text.drop span.stop = text.drop span.start := by
    have rest : text.drop span.stop = (text.drop span.start).drop (span.stop - span.start) := by
      rw [List.drop_drop, Nat.add_sub_cancel' ordered]
    rw [slice, List.extract_eq_take_drop, rest, List.take_append_drop]
  rw [List.append_assoc, joined, List.take_append_drop]

theorem length_slice (inside : span.stop ≤ text.length) :
    (span.slice text).length = span.stop - span.start := by
  simp only [slice, List.extract_eq_take_drop, List.length_take, List.length_drop]
  omega

/-- The middle one of three parts is the slice of the span that it fills. -/
theorem slice_append_append (before middle behind : Text) :
    (Span.mk before.length (before.length + middle.length)).slice (before ++ middle ++ behind) =
      middle := by
  rw [slice, List.extract_eq_take_drop, Nat.add_sub_cancel_left, List.append_assoc,
    List.drop_left, List.take_left]

/-- A part that stands at an offset is the slice there. -/
theorem slice_of_prefix_drop {part : Text} {offset : Nat} (found : part <+: text.drop offset) :
    (Span.mk offset (offset + part.length)).slice text = part := by
  rw [slice, List.extract_eq_take_drop, Nat.add_sub_cancel_left]
  exact (List.prefix_iff_eq_take.mp found).symm

theorem Within.trans {inner middle outer : Span} (within : inner.Within middle)
    (next : middle.Within outer) : inner.Within outer where
  start_le := Nat.le_trans next.start_le within.start_le
  ordered := within.ordered
  le_stop := Nat.le_trans within.le_stop next.le_stop

end Span

namespace Window

variable (window : Window) (cursor length : Nat)

theorem overruns_iff :
    window.overruns cursor length = true ↔ length < min (cursor + window.after) maxOffset :=
  decide_eq_true_iff

/-- Where a window can start: where it was asked to, or further left by the whole `after`. -/
theorem span_start_cases :
    window.overruns cursor length = true ∧
        (window.span cursor length).start = cursor - window.before - window.after ∨
      window.overruns cursor length = false ∧
        (window.span cursor length).start = cursor - window.before := by
  cases overruns : window.overruns cursor length with
  | true => exact .inl ⟨rfl, if_pos overruns⟩
  | false => exact .inr ⟨rfl, if_neg (Bool.eq_false_iff.mp overruns)⟩

theorem span_stop : (window.span cursor length).stop = min (cursor + window.after) length := rfl

theorem span_start_le_sub : (window.span cursor length).start ≤ cursor - window.before := by
  rcases window.span_start_cases cursor length with ⟨-, start⟩ | ⟨-, start⟩
  · rw [start]
    exact Nat.sub_le ..
  · exact Nat.le_of_eq start

theorem span_start_le : (window.span cursor length).start ≤ cursor :=
  Nat.le_trans (window.span_start_le_sub cursor length) (Nat.sub_le ..)

variable {cursor length} in
theorem le_span_stop (inside : cursor ≤ length) : cursor ≤ (window.span cursor length).stop :=
  Nat.le_min.mpr ⟨Nat.le_add_right .., inside⟩

theorem span_stop_le : (window.span cursor length).stop ≤ length := Nat.min_le_right ..

/-- Only at the end of the buffer does a window hold more than was asked for. -/
theorem span_stop_le_start_add :
    (window.span cursor length).stop ≤
      (window.span cursor length).start + (window.before + 2 * window.after) := by
  rw [span_stop]
  rcases window.span_start_cases cursor length with ⟨-, start⟩ | ⟨-, start⟩
  · omega
  · omega

variable {cursor length} in
theorem within_span (inside : cursor ≤ length) : (window.span cursor length).Within ⟨0, length⟩ where
  start_le := Nat.zero_le _
  ordered := Nat.le_trans (window.span_start_le cursor length) (window.le_span_stop inside)
  le_stop := window.span_stop_le cursor length

end Window

end Pinpoint

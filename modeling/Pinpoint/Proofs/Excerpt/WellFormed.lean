import Pinpoint.Proofs.Excerpt.Caret

/-! # Every excerpt is well formed

Whatever the source, the cursor and the window are, an excerpt is a piece of the window: the window
is narrowed to a line, and blank characters are taken off the two ends of that line. What is left
neither holds a line feed nor starts or ends with a blank character. The caret is set exactly where
the token at the cursor occurs in it, and then at its first occurrence.
-/

namespace Pinpoint.Excerpt

/-- A quoted line is not longer than the window around it. -/
theorem length_text_ofSource_le_window (source : Text) (cursor : Nat) (window : Window) :
    (ofSource source cursor window).text.length ≤ window.before + 2 * window.after := by
  have shown := length_text_ofSource_le_span source cursor window
  have room := window.span_stop_le_start_add (min cursor source.length) source.length
  simp only at shown
  omega

/-- The quoted text is a piece of the isolated line, which is a piece of the window, and only blank
characters of the line are left out. It holds no line feed, neither starts nor ends with a blank
character, and is not longer than the window can be. The caret is set exactly where the token at the
cursor occurs in it, and there at the first occurrence. -/
theorem extract_wellFormed (source : Text) (cursor : Nat) (window : Window)
    (nonempty : source ≠ []) :
    let clamped := min cursor source.length
    let span := window.span clamped source.length
    let line := isolated source clamped window
    let place := quoted source clamped window
    let token := leadingToken (source.drop clamped) window.tokenLimit
    let excerpt := extract (some source) cursor window
    excerpt.text = place.slice source ∧ (focus source clamped window).text = line.slice source ∧
    place.Within line ∧ line.Within span ∧ span.Within ⟨0, source.length⟩ ∧
    '\n' ∉ excerpt.text ∧
    (∀ c ∈ excerpt.text.head?, Text.isBlank c = false) ∧
    (∀ c ∈ excerpt.text.getLast?, Text.isBlank c = false) ∧
    (∀ c ∈ (Span.mk line.start place.start).slice source, Text.isBlank c = true) ∧
    (∀ c ∈ (Span.mk place.stop line.stop).slice source, Text.isBlank c = true) ∧
    excerpt.text.length ≤ window.before + 2 * window.after ∧
    (∀ offset, excerpt.caret = some offset ↔
      token <+: excerpt.text.drop offset ∧
        ∀ earlier < offset, ¬ token <+: excerpt.text.drop earlier) ∧
    (excerpt.caret = none ↔ ¬ token <:+: excerpt.text) ∧
    (∀ offset ∈ excerpt.caret, offset + token.length ≤ excerpt.text.length) ∧
    excerpt.caretOffset ≤ excerpt.text.length ∧
    (excerpt.caret = none → excerpt.caretOffset = 0) := by
  intro clamped span line place token excerpt
  have inside : clamped ≤ source.length := Nat.min_le_right ..
  obtain ⟨before, left, right, behind, placed⟩ := exists_placed source window inside
  have quotes : excerpt = ofSource source cursor window := extract_of_ne_nil nonempty cursor window
  have text : excerpt.text = (focus source clamped window).text.trim := congrArg Excerpt.text quotes
  have search : excerpt.caret = excerpt.text.offsetOf? token := by rw [quotes]; rfl
  have trimmed := placed.trimmed
  refine ⟨?_, placed.slice_isolated.symm, trimmed.within, placed.isolated_within,
    window.within_span inside, ?_, ?_, ?_, trimmed.blank_before, trimmed.blank_behind, ?_, ?_, ?_, ?_,
    ?_, ?_⟩
  · rw [text]
    exact trimmed.slice_eq.symm
  · rw [quotes]
    exact lineFeed_not_mem_text_ofSource source cursor window
  · rw [text]
    exact Text.stops_trim _
  · intro c last
    rw [text] at last
    exact Text.not_isBlank_of_mem_getLast?_trim last
  · rw [quotes]
    exact length_text_ofSource_le_window source cursor window
  · intro offset
    rw [search]
    exact Text.offsetOf?_eq_some_iff
  · rw [search]
    exact Text.offsetOf?_eq_none_iff
  · intro offset found
    exact Text.add_length_le_of_offsetOf? (search.symm.trans found)
  · rw [quotes]
    exact caretOffset_ofSource_le_length source cursor window
  · intro unset
    rw [caretOffset, unset]
    rfl

/-- A token that reaches out of the window is not found, and the line is cut at the window. -/
theorem extract_wellFormed_cut_token :
    let source : Text := "a\n  see here\n".toList
    let window : Window := { before := 9, after := 2 }
    let excerpt := extract (some source) 8 window
    source ≠ [] ∧ excerpt.text = "see he".toList ∧ '\n' ∉ excerpt.text ∧
      excerpt.text.length ≤ 9 + 2 * 2 ∧ ¬ "here".toList <:+: excerpt.text ∧
      excerpt.caretOffset = 0 := by
  intro source window excerpt
  have nonempty : source ≠ [] := by decide
  obtain ⟨-, -, -, -, -, plain, -, -, -, -, short, -, missed, -, -, start⟩ :=
    extract_wellFormed source 8 window nonempty
  have unset : excerpt.caret = none := by decide +kernel
  exact ⟨nonempty, by decide +kernel, plain, short, missed.mp unset, start unset⟩

end Pinpoint.Excerpt

import Pinpoint.Proofs.Report
import Pinpoint.Proofs.Session.Provenance

/-! # The layout of a report

Whatever has been done to a diagnostic, its report has four lines, or three where the location is
hidden, as long as the message and the placeholder hold no line feed: a quoted source brings none.
The caret stands under the excerpt, and under the token where the excerpt shows the token.
-/

namespace Pinpoint

namespace Report

/-- Behind the opening of its line the excerpt starts, so the caret stands under its own offset. -/
theorem drop_excerptLine {text : Text} {caret : Nat} (inside : caret ≤ text.length) :
    (opening ++ text ++ closing).drop (opening.length + caret) = text.drop caret ++ closing := by
  rw [List.append_assoc, List.drop_length_add_append, List.drop_append_of_le_length inside]

end Report

namespace Session

/-- The report has one line each for the message, the excerpt and the caret, and one for the
location unless it is hidden. The caret is indented at least by the opening of the excerpt line and
at most up to the end of the excerpt. Where it is set, the text above it starts with the token at
the cursor; where it is not, it stands under the start of the excerpt. -/
theorem report_layout (origin : Origin) (steps : List Step)
    (message : '\n' ∉ (run origin.diagnostic steps).message)
    (placeholder : '\n' ∉ (run origin.diagnostic steps).settings.placeholder) :
    let diagnostic := run origin.diagnostic steps
    ∃ (excerpt : Excerpt) (report : Text) (indent : Nat),
      (Diagnostic.ask .excerpt diagnostic).1 = .excerpt excerpt ∧
      (Diagnostic.ask .report diagnostic).1 = .text report ∧
      report.lines =
        [Report.messageLine diagnostic.message,
          Report.opening ++ excerpt.text ++ Report.closing,
          Text.run ' ' indent ++ ['^']] ++
        (if diagnostic.hidden then []
          else [Report.locationLine diagnostic.position.line diagnostic.position.printedColumn]) ∧
      Report.opening.length ≤ indent ∧
      indent ≤ Report.opening.length + excerpt.text.length ∧
      (excerpt.caret = none → indent = Report.opening.length) ∧
      ∀ source, diagnostic.source = some source → source ≠ [] → excerpt.caret ≠ none →
        let clamped := min diagnostic.cursor source.length
        let token :=
          Excerpt.leadingToken (source.drop clamped) diagnostic.settings.window.tokenLimit
        (Span.mk clamped (clamped + token.length)).slice source = token ∧
          token <+: (Report.opening ++ excerpt.text ++ Report.closing).drop indent := by
  intro diagnostic
  have answers : ∀ query, (Diagnostic.ask query diagnostic).1 = diagnostic.answer query :=
    ask_run origin.coherent_diagnostic steps
  have inside := diagnostic.caretOffset_excerpt_le
  refine ⟨diagnostic.excerpt, diagnostic.report.render,
    Report.opening.length + diagnostic.excerpt.caretOffset, answers .excerpt,
    answers .report, ?_, Nat.le_add_right .., Nat.add_le_add_left inside _, ?_, ?_⟩
  · rw [diagnostic.report.lines_render message (Finding.lineFeed_not_mem_excerpt placeholder)]
    simp only [Finding.report, Finding.shownLocation]
    cases diagnostic.hidden <;> rfl
  · intro unset
    rw [Excerpt.caretOffset, unset]
    rfl
  · intro source given nonempty set clamped token
    have run : token <+: source.drop clamped := Excerpt.leadingToken_isPrefix ..
    have above := Finding.leadingToken_isPrefix_drop_caretOffset given nonempty set
    refine ⟨Span.slice_of_prefix_drop run, ?_⟩
    rw [Report.drop_excerptLine inside]
    exact above.trans (List.prefix_append ..)

/-- On the second line of a source, the caret stands under the second word. -/
theorem report_layout_second_word :
    let origin := Origin.inSource "bad".toList "ab cd\nef gh".toList 9
    let steps : List Step :=
      [.ask .report, .change (.configure { window := { before := 4, after := 3 } })]
    let diagnostic := run origin.diagnostic steps
    '\n' ∉ diagnostic.message ∧ '\n' ∉ diagnostic.settings.placeholder ∧
      ∃ excerpt report indent,
        (Diagnostic.ask .excerpt diagnostic).1 = .excerpt excerpt ∧
        (Diagnostic.ask .report diagnostic).1 = .text report ∧ report.lines.length = 4 ∧
        report.lines[2]? = some (Text.run ' ' indent ++ ['^']) ∧
        "gh".toList <+: (Report.opening ++ excerpt.text ++ Report.closing).drop indent := by
  intro origin steps diagnostic
  have message : '\n' ∉ diagnostic.message := by decide
  have placeholder : '\n' ∉ diagnostic.settings.placeholder := by decide
  obtain ⟨excerpt, report, indent, quoted, rendered, lines, -, -, -, above⟩ :=
    report_layout origin steps message placeholder
  refine ⟨message, placeholder, excerpt, report, indent, quoted, rendered, ?_, ?_, ?_⟩
  · rw [lines]
    rfl
  · rw [lines]
    rfl
  · have shown : (Diagnostic.ask .excerpt diagnostic).1 = .excerpt ⟨"ef gh".toList, some 3⟩ := by
      decide +kernel
    have same : excerpt = ⟨"ef gh".toList, some 3⟩ := Answer.excerpt.inj (quoted.symm.trans shown)
    have set : excerpt.caret ≠ none := by
      rw [same]
      exact Option.some_ne_none 3
    exact (above _ rfl (by decide) set).2

end Session

end Pinpoint

import Pinpoint.Proofs.Excerpt.LineEnds
import Pinpoint.Proofs.Session.Provenance

/-! # Line ends and reports

A diagnostic on a source with carriage returns before its line feeds reports what the diagnostic on
the source without them reports, the cursor being at the same character, as long as the window
covers the source.
-/

namespace Pinpoint

theorem Location.scanned_of_ne_nil {source : Text} (nonempty : source ≠ []) (cursor : Nat) :
    scanned (some source) cursor = ofCursor source cursor := by
  cases source with
  | nil => exact absurd rfl nonempty
  | cons c rest => rfl

namespace Finding

variable {finding : Finding} {source : Text}

/-- The finding with carriage returns put into its source, and the cursor at the same character. -/
def returned (finding : Finding) (source : Text) : Finding :=
  { finding with
    source := some source.returned
    cursor := source.returnedOffset finding.cursor }

theorem sourceLocation_returned (given : finding.source = some source)
    (inside : finding.cursor ≤ source.length) :
    (finding.returned source).sourceLocation = finding.sourceLocation := by
  rw [sourceLocation_eq_scanned, sourceLocation_eq_scanned, given]
  by_cases empty : source = []
  · subst empty
    rfl
  · have filled : source.returned ≠ [] := mt Text.returned_eq_nil_iff.mp empty
    rw [Location.scanned_of_ne_nil empty, ← Location.ofCursor_returned source inside]
    exact Location.scanned_of_ne_nil filled _

theorem excerpt_returned (given : finding.source = some source)
    (inside : finding.cursor ≤ source.length)
    (covers : finding.settings.window.Covers source.returned.length) :
    (finding.returned source).excerpt = finding.excerpt := by
  by_cases empty : source = []
  · subst empty
    rw [excerpt_of_presentSource_eq_none (presentSource_eq_none (.inr given))]
    rfl
  · have filled : source.returned ≠ [] := mt Text.returned_eq_nil_iff.mp empty
    rw [excerpt_of_presentSource_eq_some (presentSource_eq_some given empty),
      excerpt_of_presentSource_eq_some (presentSource_eq_some rfl filled)]
    exact Excerpt.ofSource_returned inside covers

theorem report_returned (given : finding.source = some source)
    (inside : finding.cursor ≤ source.length)
    (covers : finding.settings.window.Covers source.returned.length) :
    (finding.returned source).report = finding.report := by
  have location : (finding.returned source).shownLocation = finding.shownLocation := by
    simp only [shownLocation, position, sourceLocation_returned given inside]
    rfl
  rw [report, report, excerpt_returned given inside covers, location]
  rfl

end Finding

namespace Session

/-- Putting a carriage return before every line feed of a source changes nothing that is reported of
the same character of it: not the location, not the excerpt of a window that covers the source, and
not the report and the summary of a diagnostic with such a window, whatever else has been done
to it. -/
theorem reports_same_of_returned (source : Text) (cursor : Nat) (inside : cursor ≤ source.length) :
    let returned := source.returned
    let moved := cursor + (source.take cursor).count '\n'
    Location.ofCursor returned moved = Location.ofCursor source cursor ∧
    ∀ window : Window, returned.length ≤ window.before → returned.length ≤ window.after →
      Excerpt.extract (some returned) moved window = Excerpt.extract (some source) cursor window ∧
      ∀ (origin otherOrigin : Origin) (steps otherSteps : List Step),
        let first := run origin.diagnostic steps
        let second := run otherOrigin.diagnostic otherSteps
        first.settings.window = window → first.source = some source → first.cursor = cursor →
        second.fresh = { first.fresh with source := some returned, cursor := moved } →
          (Diagnostic.ask .report second).1 = (Diagnostic.ask .report first).1 ∧
          (Diagnostic.ask .summary second).1 = (Diagnostic.ask .summary first).1 := by
  intro returned moved
  refine ⟨Location.ofCursor_returned source inside, fun window before after => ?_⟩
  have covers : window.Covers returned.length := ⟨before, after⟩
  refine ⟨Excerpt.extract_returned inside covers, ?_⟩
  intro origin otherOrigin steps otherSteps first second quotes given placed alike
  have finding : second.fresh.toFinding = first.fresh.toFinding.returned source := by
    obtain rfl := placed
    exact congrArg Diagnostic.toFinding alike
  have report : second.toFinding.report = first.toFinding.report := by
    calc second.toFinding.report
        = second.fresh.toFinding.report := rfl
      _ = first.fresh.toFinding.report := by
        rw [finding]
        exact Finding.report_returned given (placed ▸ inside) (quotes ▸ covers)
      _ = first.toFinding.report := rfl
  have details : second.details = first.details := by
    change second.fresh.toFinding.details = first.fresh.toFinding.details
    rw [finding]
    rfl
  have answers : ∀ query, (Diagnostic.ask query first).1 = first.answer query :=
    ask_run origin.coherent_diagnostic steps
  have otherAnswers : ∀ query, (Diagnostic.ask query second).1 = second.answer query :=
    ask_run otherOrigin.coherent_diagnostic otherSteps
  constructor
  · rw [answers .report, otherAnswers .report]
    rw [Diagnostic.answer, Diagnostic.answer, report]
  · rw [answers .summary, otherAnswers .summary]
    rw [Diagnostic.answer, Diagnostic.answer, report, details]

/-- The second of three lines, with a carriage return at its end in one source and none in the
other; the one diagnostic has been read before and the other one has not. -/
theorem reports_same_of_returned_second_line :
    let source : Text := "ab\ncd \r\ne".toList
    let settings : Settings := { window := { before := 20, after := 20 } }
    let steps : List Step := [.change (.configure settings), .ask .report]
    let first := run (Origin.inSource ['m'] source 4).diagnostic steps
    let second := run (Origin.inSource ['m'] "ab\r\ncd \r\r\ne".toList 5).diagnostic
      [.change (.configure settings)]
    4 ≤ source.length ∧ source.returned.length ≤ 20 ∧
      first.settings.window = settings.window ∧ first.source = some source ∧ first.cursor = 4 ∧
      second.fresh =
        { first.fresh with source := some source.returned, cursor := 5 } ∧
      (Diagnostic.ask .report second).1 = (Diagnostic.ask .report first).1 := by
  intro source settings steps first second
  have inside : 4 ≤ source.length := by decide
  have short : source.returned.length ≤ 20 := by decide
  have alike : second.fresh =
      { first.fresh with source := some source.returned, cursor := 5 } := by decide +kernel
  exact ⟨inside, short, rfl, rfl, rfl, alike,
    (((reports_same_of_returned source 4 inside).2 settings.window short short).2
      _ _ _ _ rfl rfl rfl alike).1⟩

end Session

end Pinpoint

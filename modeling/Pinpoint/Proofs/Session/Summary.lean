import Pinpoint.Proofs.Json.Records
import Pinpoint.Proofs.Session.Provenance

/-! # The summary and the report of a run

Whatever has been done to a diagnostic, and whatever characters its texts hold, its summary can be
read again and says what the answers to the questions say. Its report is the template filled in from
what was read.
-/

namespace Pinpoint

open Json (Field)

/-! ## Details -/

/-- A detail is read back from its value, whose keys stand in another order than its fields. -/
theorem Detail.ofText_summary (detail : Detail) (row : detail.row ≤ maxOffset)
    (col : detail.col ≤ maxOffset) : shape.ofText detail.summary.render = .ok detail := by
  obtain ⟨row, col, message⟩ := detail
  cases message with
  | none =>
    exact shape.ofText_render_of_gathers
      (.cons rfl (Field.takes_offset _ _ col _) <| .cons rfl (Field.takes_offset _ _ row _) <|
        .nil _) rfl
  | some message =>
    exact shape.ofText_render_of_gathers
      (.cons rfl (Field.takes_offset _ _ col _) <|
        .cons rfl (Field.takes_optionalText _ _ message _) <|
        .cons rfl (Field.takes_offset _ _ row _) <| .nil _) rfl

theorem Detail.member?_message_summary (detail : Detail) :
    detail.summary.member? "message".toList = detail.message.map Json.string := by
  obtain ⟨row, col, message⟩ := detail
  cases message <;> rfl

theorem Detail.map_ofText_summary {details : List Detail}
    (offsets : ∀ detail ∈ details, detail.row ≤ maxOffset ∧ detail.col ≤ maxOffset) :
    (details.map summary).map (fun item => shape.ofText item.render) = details.map .ok := by
  rw [List.map_map]
  refine List.map_congr_left fun detail member => ?_
  obtain ⟨row, col⟩ := offsets detail member
  exact detail.ofText_summary row col

theorem Detail.map_member?_summary (details : List Detail) :
    (details.map summary).map (fun item => (item.member? "message".toList).isSome) =
      details.map (·.message.isSome) := by
  rw [List.map_map]
  refine List.map_congr_left fun detail _ => ?_
  rw [Function.comp_apply, member?_message_summary, Option.isSome_map]

/-! ## Reports -/

namespace Report

/-- What the summary of a report says. -/
def said (report : Report) (details : List Detail) : Summary where
  message := report.message
  near := report.excerpt.text
  caret := report.excerpt.caretOffset
  errors := details.map Detail.summary
  location := report.location.map fun location => (location.line, location.printedColumn)

theorem ofJson?_summary (report : Report) (details : List Detail) :
    Summary.ofJson? (report.summary details) = some (report.said details) := by
  obtain ⟨message, excerpt, location⟩ := report
  cases location <;> rfl

/-- The template filled in from the summary of a report is the text of the report. -/
theorem report_said (report : Report) (details : List Detail) :
    (report.said details).report = report.render := by
  obtain ⟨message, excerpt, location⟩ := report
  have first : "]\n[Near : \x7b... ".toList = "]".toList ++ '\n' :: opening := rfl
  have second : " ....\x7d]\n".toList = closing ++ ['\n'] := rfl
  have third : "\n[Line: ".toList = '\n' :: "[Line: ".toList := rfl
  have caret : "^".toList = ['^'] := rfl
  have indent : 13 = opening.length := rfl
  unfold Summary.report render said messageLine excerptLine caretLine
  rw [first, second, indent, caret]
  cases location with
  | none =>
    simp only [Option.map_none, List.append_nil, List.append_assoc, List.cons_append,
      List.nil_append]
  | some location =>
    unfold locationLine
    rw [third]
    simp only [Option.map_some, List.append_assoc, List.cons_append, List.nil_append]

end Report

/-! ## Runs -/

namespace Session

/-- The text of the summary is read as a value that says the message, the excerpt with its caret,
the details in their order and, unless it is hidden, the location with the column raised by one.
Each detail is read back from its own value, its row and its column being offsets. Filling the
template of a report from what was read gives the text of the report. -/
theorem summary_agrees_with_report (origin : Origin) (steps : List Step)
    (offsets : ∀ detail ∈ (run origin.diagnostic steps).details,
      detail.row ≤ maxOffset ∧ detail.col ≤ maxOffset) :
    let diagnostic := run origin.diagnostic steps
    ∃ (text : Text) (value : Json) (summary : Summary) (excerpt : Excerpt) (details : List Detail)
        (line column : Nat) (hidden : Bool),
      (Diagnostic.ask .summary diagnostic).1 = .text text ∧
      Json.read text = .ok value ∧ Summary.ofJson? value = some summary ∧
      (Diagnostic.ask .message diagnostic).1 = .text summary.message ∧
      (Diagnostic.ask .excerpt diagnostic).1 = .excerpt excerpt ∧
      summary.near = excerpt.text ∧ summary.caret = excerpt.caretOffset ∧
      (Diagnostic.ask .details diagnostic).1 = .details details ∧
      summary.errors.map (fun item => Detail.shape.ofText item.render) = details.map .ok ∧
      summary.errors.map (fun item => (item.member? "message".toList).isSome) =
        details.map (·.message.isSome) ∧
      (Diagnostic.ask .line diagnostic).1 = .number line ∧
      (Diagnostic.ask .column diagnostic).1 = .number column ∧
      (Diagnostic.ask .hidden diagnostic).1 = .flag hidden ∧
      summary.location = (if hidden then none else some (line, column + 1)) ∧
      (Diagnostic.ask .report diagnostic).1 = .text summary.report := by
  intro diagnostic
  have answers : ∀ query, (Diagnostic.ask query diagnostic).1 = diagnostic.answer query :=
    ask_run origin.coherent_diagnostic steps
  have report : (Diagnostic.ask .report diagnostic).1 =
      .text (diagnostic.report.said diagnostic.details).report := by
    rw [Report.report_said]
    exact answers .report
  refine ⟨_, _, diagnostic.report.said diagnostic.details, diagnostic.excerpt, diagnostic.details,
    diagnostic.position.line, diagnostic.position.column, diagnostic.hidden,
    answers .summary, Json.read_render _, Report.ofJson?_summary ..,
    answers .message, answers .excerpt, rfl, rfl,
    answers .details, Detail.map_ofText_summary offsets, Detail.map_member?_summary _,
    answers .line, answers .column, answers .hidden, ?_, report⟩
  simp only [Report.said, Finding.report, Finding.shownLocation]
  cases diagnostic.hidden <;> rfl

/-- Quotation marks, control characters and the largest offset are read again, and the line that
was pinned last is. -/
theorem summary_agrees_with_report_quoted :
    let details : List Detail :=
      [⟨2, 0, some "\"é\"\n\\".toList⟩, ⟨3, maxOffset, none⟩]
    let origin := Origin.reported "no \"x\"\x01".toList details "ab\ncd".toList 4
    let steps : List Step := [.ask .summary, .change (.pinLine 7)]
    let diagnostic := run origin.diagnostic steps
    (∀ detail ∈ diagnostic.details, detail.row ≤ maxOffset ∧ detail.col ≤ maxOffset) ∧
      ∃ text value summary,
        (Diagnostic.ask .summary diagnostic).1 = .text text ∧
        Json.read text = .ok value ∧ Summary.ofJson? value = some summary ∧
        summary.message = "no \"x\"\x01".toList ∧
        summary.errors.map (fun item => Detail.shape.ofText item.render) = details.map .ok ∧
        summary.location = some (7, 1) ∧
        (Diagnostic.ask .report diagnostic).1 = .text summary.report := by
  intro details origin steps diagnostic
  have offsets : ∀ detail ∈ diagnostic.details,
      detail.row ≤ maxOffset ∧ detail.col ≤ maxOffset := by decide
  obtain ⟨text, value, summary, excerpt, listed, line, column, hidden, written, read, said, message,
    -, -, -, kept, errors, -, lineAnswer, columnAnswer, hiddenAnswer, location, report⟩ :=
    summary_agrees_with_report origin steps offsets
  cases kept
  cases lineAnswer
  cases columnAnswer
  cases hiddenAnswer
  exact ⟨offsets, text, value, summary, written, read, said, (Answer.text.inj message).symm, errors,
    location, report⟩

end Session

end Pinpoint

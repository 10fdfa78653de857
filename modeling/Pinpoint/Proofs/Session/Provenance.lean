import Pinpoint.Proofs.Session.Run

/-! # Where a location comes from

Whatever is asked in between, the line of a diagnostic is the one that the history pins last, else
the row of the first reported position, else that of a scan of the present source. The column
follows the same rule on its own, and the location is hidden once a step has hidden it.
-/

namespace Pinpoint

namespace Session

/-! ## The last value written -/

section

variable {α : Type} {writes : Change → Option α}

theorem lastWritten_cons (writes : Change → Option α) (first : Change) (changes : List Change) :
    lastWritten writes (first :: changes) = (lastWritten writes changes).or (writes first) := by
  cases written : writes first with
  | none => rw [lastWritten, List.filterMap_cons_none written, lastWritten, Option.or_none]
  | some value =>
    rw [lastWritten, List.filterMap_cons_some written, List.getLast?_cons, lastWritten,
      Option.or_some]

/-- An optional field that a change either fills or leaves alone holds the last value written. -/
theorem foldl_apply_or (observe : Diagnostic → Option α)
    (each : ∀ diagnostic change,
      observe (diagnostic.apply change) = (writes change).or (observe diagnostic))
    (diagnostic : Diagnostic) (changes : List Change) :
    observe (changes.foldl Diagnostic.apply diagnostic) =
      (lastWritten writes changes).or (observe diagnostic) := by
  induction changes generalizing diagnostic with
  | nil => rfl
  | cons first changes ih =>
    rw [List.foldl_cons, ih, each, lastWritten_cons, Option.or_assoc]

theorem foldl_apply_getD (observe : Diagnostic → α)
    (each : ∀ diagnostic change,
      observe (diagnostic.apply change) = (writes change).getD (observe diagnostic))
    (diagnostic : Diagnostic) (changes : List Change) :
    observe (changes.foldl Diagnostic.apply diagnostic) =
      (lastWritten writes changes).getD (observe diagnostic) := by
  have filled := foldl_apply_or (some ∘ observe)
    (fun diagnostic change => by
      rw [Function.comp_apply, each, Function.comp_apply, Option.or_some])
    diagnostic changes
  rw [Function.comp_apply, Function.comp_apply, Option.or_some] at filled
  exact Option.some.inj filled

end

/-! ## What has been hidden stays hidden -/

theorem hidden_apply (diagnostic : Diagnostic) (change : Change) :
    (diagnostic.apply change).hidden = true ↔
      .hideLocation = change ∨ diagnostic.hidden = true := by
  cases change <;> simp [Diagnostic.apply, Finding.apply]

theorem hidden_foldl_apply (diagnostic : Diagnostic) (changes : List Change) :
    (changes.foldl Diagnostic.apply diagnostic).hidden = true ↔
      .hideLocation ∈ changes ∨ diagnostic.hidden = true := by
  induction changes generalizing diagnostic with
  | nil => simp only [List.foldl_nil, List.not_mem_nil, false_or]
  | cons first changes ih =>
    rw [List.foldl_cons, ih, hidden_apply, List.mem_cons, or_left_comm, or_assoc]

/-- Only new settings can get into a history without being a change of the session. -/
theorem mem_history_iff {made : Change} (other : ∀ settings, made ≠ .configure settings)
    {steps : List Step} : made ∈ history steps ↔ .change made ∈ steps := by
  rw [history, List.mem_filterMap]
  constructor
  · rintro ⟨next, member, makes⟩
    cases next with
    | change inner =>
      cases makes
      exact member
    | load document =>
      obtain ⟨settings, _, configured⟩ := Option.map_eq_some_iff.mp makes
      exact absurd configured.symm (other settings)
    | ask query => cases makes
  · intro member
    exact ⟨.change made, member, rfl⟩

/-! ## The fields of a diagnostic after a run -/

section

variable {diagnostic : Diagnostic} (coherent : diagnostic.toFinding.Coherent) (steps : List Step)

include coherent

/-- What does not look at the stored scan sees the diagnostic that the history alone makes. -/
theorem observe_run {α : Type} (observe : Diagnostic → α)
    (blind : ∀ diagnostic : Diagnostic, observe diagnostic.fresh = observe diagnostic) :
    observe (run diagnostic steps) =
      observe ((history steps).foldl Diagnostic.apply diagnostic.fresh) := by
  rw [← blind, fresh_run coherent]

theorem source_run :
    (run diagnostic steps).source =
      (lastWritten Change.source? (history steps)).getD diagnostic.source := by
  rw [observe_run coherent steps (·.source) fun _ => rfl]
  exact foldl_apply_getD (·.source) (fun _ change => by cases change <;> rfl) _ _

theorem cursor_run :
    (run diagnostic steps).cursor =
      (lastWritten Change.cursor? (history steps)).getD diagnostic.cursor := by
  rw [observe_run coherent steps (·.cursor) fun _ => rfl]
  exact foldl_apply_getD (·.cursor) (fun _ change => by cases change <;> rfl) _ _

theorem pinnedLine_run :
    (run diagnostic steps).pinnedLine =
      (lastWritten Change.line? (history steps)).or diagnostic.pinnedLine := by
  rw [observe_run coherent steps (·.pinnedLine) fun _ => rfl]
  exact foldl_apply_or (·.pinnedLine) (fun _ change => by cases change <;> rfl) _ _

theorem pinnedColumn_run :
    (run diagnostic steps).pinnedColumn =
      (lastWritten Change.column? (history steps)).or diagnostic.pinnedColumn := by
  rw [observe_run coherent steps (·.pinnedColumn) fun _ => rfl]
  exact foldl_apply_or (·.pinnedColumn) (fun _ change => by cases change <;> rfl) _ _

theorem hidden_run :
    (run diagnostic steps).hidden = true ↔
      .hideLocation ∈ history steps ∨ diagnostic.hidden = true := by
  rw [observe_run coherent steps (·.hidden) fun _ => rfl]
  exact hidden_foldl_apply _ _

end

end Session

/-! ## From the origin on -/

namespace Origin

theorem coherent_diagnostic (origin : Origin) : origin.diagnostic.toFinding.Coherent := by
  cases origin <;> exact Finding.Coherent.of_scan_eq_none rfl

theorem source_diagnostic (origin : Origin) : origin.diagnostic.source = origin.source? := by
  cases origin <;> rfl

theorem cursor_diagnostic (origin : Origin) : origin.diagnostic.cursor = origin.cursor := by
  cases origin <;> rfl

theorem pinnedLine_diagnostic (origin : Origin) :
    origin.diagnostic.pinnedLine = origin.firstDetail?.map Detail.row := by
  cases origin <;> rfl

theorem pinnedColumn_diagnostic (origin : Origin) :
    origin.diagnostic.pinnedColumn = origin.firstDetail?.map Detail.col := by
  cases origin <;> rfl

theorem hidden_diagnostic (origin : Origin) : origin.diagnostic.hidden = false := by
  cases origin <;> rfl

end Origin

theorem Finding.sourceLocation_eq_scanned (finding : Finding) :
    finding.sourceLocation = .scanned finding.source finding.cursor := by
  rw [sourceLocation, presentSource]
  cases finding.source with
  | none => rfl
  | some source =>
    cases source with
    | nil => rfl
    | cons first rest => rfl

namespace Session

/-- After any run the line is the one that was pinned last, else that of the first reported position,
else that of a scan of the present source up to the present cursor. The column follows the same rule
on its own, and the location is the two of them unless a step has hidden it. -/
theorem position_provenance (origin : Origin) (steps : List Step) :
    let diagnostic := run origin.diagnostic steps
    let source := (lastWritten Change.source? (history steps)).getD origin.source?
    let cursor := (lastWritten Change.cursor? (history steps)).getD origin.cursor
    let scanned := Location.scanned source cursor
    let line := ((lastWritten Change.line? (history steps)).or
      (origin.firstDetail?.map Detail.row)).getD scanned.line
    let column := ((lastWritten Change.column? (history steps)).or
      (origin.firstDetail?.map Detail.col)).getD scanned.column
    (Diagnostic.ask .sourceText diagnostic).1 = .source source ∧
      (Diagnostic.ask .cursor diagnostic).1 = .number cursor ∧
      (Diagnostic.ask .line diagnostic).1 = .number line ∧
      (Diagnostic.ask .column diagnostic).1 = .number column ∧
      (Diagnostic.ask .location diagnostic).1 =
        .location (if .change .hideLocation ∈ steps then none else some ⟨line, column⟩) := by
  intro diagnostic source cursor scanned line column
  have source_eq : diagnostic.source = source := by
    rw [source_run origin.coherent_diagnostic, origin.source_diagnostic]
  have cursor_eq : diagnostic.cursor = cursor := by
    rw [cursor_run origin.coherent_diagnostic, origin.cursor_diagnostic]
  have scanned_eq : diagnostic.sourceLocation = scanned := by
    rw [Finding.sourceLocation_eq_scanned, source_eq, cursor_eq]
  have position_eq : diagnostic.position = ⟨line, column⟩ := by
    rw [Finding.position, scanned_eq, pinnedLine_run origin.coherent_diagnostic,
      origin.pinnedLine_diagnostic, pinnedColumn_run origin.coherent_diagnostic,
      origin.pinnedColumn_diagnostic]
  have hidden_iff : diagnostic.hidden = true ↔ .change .hideLocation ∈ steps := by
    rw [hidden_run origin.coherent_diagnostic, origin.hidden_diagnostic,
      mem_history_iff fun _ => Change.noConfusion]
    simp only [Bool.false_eq_true, or_false]
  have answers : ∀ query, (Diagnostic.ask query diagnostic).1 = diagnostic.answer query :=
    ask_run origin.coherent_diagnostic steps
  refine ⟨?_, ?_, ?_, ?_, ?_⟩
  · rw [answers .sourceText, ← source_eq]
    rfl
  · rw [answers .cursor, ← cursor_eq]
    rfl
  · rw [answers .line, Diagnostic.answer, position_eq]
  · rw [answers .column, Diagnostic.answer, position_eq]
  · rw [answers .location, Diagnostic.answer, Finding.shownLocation, position_eq]
    simp only [hidden_iff]

end Session

end Pinpoint

import Pinpoint.Proofs.Session.Provenance

/-! # An empty source is as good as none

A diagnostic with an empty source and one without a source give the same entries for the same steps,
but for the source itself, and for that only until a step writes it. Both are the same once what does
not count is left out: the stored scan and a source without characters. Every change keeps them the
same in that sense, and no answer but the source looks at what is left out.
-/

namespace Pinpoint

namespace Finding

/-- The finding without its stored scan, and without a source that has no characters. -/
def bare (finding : Finding) : Finding := { finding.fresh with source := finding.presentSource }

variable {finding : Finding}

theorem presentSource_bare (finding : Finding) :
    finding.bare.presentSource = finding.presentSource := by
  have twice := Option.filter_filter (q := (· ≠ ([] : Text))) (p := (· ≠ [])) (o := finding.source)
  simp only [Bool.and_self] at twice
  exact twice

theorem sourceLocation_bare (finding : Finding) :
    finding.bare.sourceLocation = finding.sourceLocation := by
  rw [sourceLocation, presentSource_bare, sourceLocation]
  rfl

theorem excerpt_bare (finding : Finding) : finding.bare.excerpt = finding.excerpt := by
  rw [excerpt, presentSource_bare, excerpt]
  rfl

theorem position_bare (finding : Finding) : finding.bare.position = finding.position := by
  rw [position, sourceLocation_bare]
  rfl

theorem shownLocation_bare (finding : Finding) :
    finding.bare.shownLocation = finding.shownLocation := by
  rw [shownLocation, position_bare]
  rfl

theorem report_bare (finding : Finding) : finding.bare.report = finding.report := by
  rw [report, excerpt_bare, shownLocation_bare]
  rfl

theorem snapshot_bare (finding : Finding) :
    finding.bare.snapshot = { finding.snapshot with source := finding.presentSource } := by
  rw [snapshot, position_bare, excerpt_bare, shownLocation_bare, report_bare]
  rfl

theorem bare_bare (finding : Finding) : finding.bare.bare = finding.bare :=
  congrArg (fun source => { finding.fresh with source }) finding.presentSource_bare

/-- What a change makes of a finding is, up to what does not count, what it makes of the bare one. -/
theorem bare_apply (finding : Finding) (change : Change) :
    (finding.apply change).bare = (finding.bare.apply change).bare := by
  cases change with
  | giveSource source => rfl
  | dropSource => rfl
  -- the other changes leave the source alone, so only the second look at it is to be dropped
  | moveCursor | pinLine | pinColumn | tellLineStart | replaceDetails | hideLocation | configure =>
    exact (bare_bare (finding.apply _)).symm

theorem sourceLocation_of_absent (absent : finding.presentSource = none) :
    finding.sourceLocation = .unresolved := by
  rw [sourceLocation, absent]

end Finding

namespace Diagnostic

variable {diagnostic : Diagnostic} {query : Query}

/-- The diagnostic without its stored scan, and without a source that has no characters. -/
def bare (diagnostic : Diagnostic) : Diagnostic :=
  { diagnostic with toFinding := diagnostic.toFinding.bare }

theorem bare_apply (diagnostic : Diagnostic) (change : Change) :
    (diagnostic.apply change).bare = (diagnostic.bare.apply change).bare :=
  congrArg (Diagnostic.mk · diagnostic.cause) (diagnostic.toFinding.bare_apply change)

/-- No answer but the source shows what the bare diagnostic leaves out. -/
theorem answer_bare (other : query ∉ [.sourceText, .snapshot]) :
    diagnostic.bare.answer query = diagnostic.answer query := by
  have position := diagnostic.toFinding.position_bare
  have report := diagnostic.toFinding.report_bare
  cases query with
  | sourceText | snapshot => exact absurd (by decide) other
  | message | cursor | details | settings | lineStart | hidden | causes => rfl
  | line => exact congrArg (fun place => Answer.number place.line) position
  | column => exact congrArg (fun place => Answer.number place.column) position
  | location => exact congrArg Answer.location diagnostic.toFinding.shownLocation_bare
  | excerpt => exact congrArg Answer.excerpt diagnostic.toFinding.excerpt_bare
  | report => exact congrArg (fun report => Answer.text report.render) report
  | summary =>
    exact congrArg (fun report => Answer.text (report.summary diagnostic.details).render) report

end Diagnostic

namespace Session

variable {first second : Diagnostic}

/-- Changes keep two diagnostics the same up to what does not count. -/
theorem bare_foldl_apply (same : first.bare = second.bare) (changes : List Change) :
    (changes.foldl Diagnostic.apply first).bare = (changes.foldl Diagnostic.apply second).bare := by
  induction changes generalizing first second with
  | nil => exact same
  | cons change changes ih =>
    apply ih
    rw [Diagnostic.bare_apply, same, ← Diagnostic.bare_apply]

theorem bare_run (same : first.bare = second.bare) (coherent : first.toFinding.Coherent)
    (otherCoherent : second.toFinding.Coherent) (steps : List Step) :
    (run first steps).bare = (run second steps).bare := by
  have fresh : first.fresh.bare = second.fresh.bare := same
  calc (run first steps).bare
      = ((history steps).foldl Diagnostic.apply first.fresh).bare := by
        rw [← fresh_run coherent]
        rfl
    _ = ((history steps).foldl Diagnostic.apply second.fresh).bare := bare_foldl_apply fresh _
    _ = (run second steps).bare := by
        rw [← fresh_run otherCoherent]
        rfl

/-- What is the same up to what does not count gives the same answers. -/
theorem ask_eq_of_bare_eq (same : first.bare = second.bare) (coherent : first.toFinding.Coherent)
    (otherCoherent : second.toFinding.Coherent) {query : Query}
    (other : query ∉ [.sourceText, .snapshot]) :
    (Diagnostic.ask query first).1 = (Diagnostic.ask query second).1 := by
  rw [(Diagnostic.answers_ask coherent query).answer_eq,
    (Diagnostic.answers_ask otherCoherent query).answer_eq, ← Diagnostic.answer_bare other, same,
    Diagnostic.answer_bare other]

/-- Where nothing can be scanned, the placeholder is quoted and nothing is resolved. -/
theorem ask_of_missing {diagnostic : Diagnostic} (coherent : diagnostic.toFinding.Coherent)
    (missing : diagnostic.source = none ∨ diagnostic.source = some []) :
    (Diagnostic.ask .excerpt diagnostic).1 = .excerpt ⟨diagnostic.settings.placeholder, some 0⟩ ∧
      (Diagnostic.ask .line diagnostic).1 =
        .number (diagnostic.pinnedLine.getD Location.unresolved.line) ∧
      (Diagnostic.ask .column diagnostic).1 =
        .number (diagnostic.pinnedColumn.getD Location.unresolved.column) := by
  have absent := Finding.presentSource_eq_none missing
  have answers := Diagnostic.answers_ask coherent
  refine ⟨?_, ?_, ?_⟩
  · rw [(answers .excerpt).answer_eq, Diagnostic.answer,
      Finding.excerpt_of_presentSource_eq_none absent]
    rfl
  · rw [(answers .line).answer_eq, Diagnostic.answer, Finding.position,
      Finding.sourceLocation_of_absent absent]
  · rw [(answers .column).answer_eq, Diagnostic.answer, Finding.position,
      Finding.sourceLocation_of_absent absent]

/-- A diagnostic without a source and one with an empty source, with a stored scan or without one,
give the same entry for every step of any later session, but for the source itself. That differs
until a step writes it. As long as a source is missing or empty, the placeholder of the settings is
quoted, with the caret at its start, and what is not pinned of the position is that of the unresolved
location. -/
theorem emptySource_like_none (first second : Diagnostic) (absent : first.source = none)
    (alike : second.fresh = { first.fresh with source := some [] })
    (coherent : first.toFinding.Coherent) (otherCoherent : second.toFinding.Coherent)
    (steps : List Step) :
    let one := run first steps
    let other := run second steps
    let given := lastWritten Change.source? (history steps)
    (∀ next, next ∉ [.ask .sourceText, .ask .snapshot] → (step next one).1 = (step next other).1) ∧
    (Diagnostic.ask .sourceText one).1 = .source (given.getD none) ∧
    (Diagnostic.ask .sourceText other).1 = .source (given.getD (some [])) ∧
    (∃ state : Snapshot,
      (Diagnostic.ask .snapshot one).1 = .snapshot { state with source := given.getD none } ∧
      (Diagnostic.ask .snapshot other).1 =
        .snapshot { state with source := given.getD (some []) }) ∧
    ∀ diagnostic ∈ [one, other], diagnostic.source = none ∨ diagnostic.source = some [] →
      (Diagnostic.ask .excerpt diagnostic).1 = .excerpt ⟨diagnostic.settings.placeholder, some 0⟩ ∧
      (Diagnostic.ask .line diagnostic).1 =
        .number (diagnostic.pinnedLine.getD Location.unresolved.line) ∧
      (Diagnostic.ask .column diagnostic).1 =
        .number (diagnostic.pinnedColumn.getD Location.unresolved.column) := by
  intro one other given
  have empty : second.source = some [] := congrArg (·.source) alike
  have start : first.bare = second.bare := by
    have left : first.bare = { first.fresh with source := none } := by
      simp only [Diagnostic.bare, Finding.bare, Finding.presentSource, absent]
      rfl
    have right : second.bare = { second.fresh with source := none } := by
      simp only [Diagnostic.bare, Finding.bare, Finding.presentSource, empty]
      rfl
    rw [left, right, alike]
  have same : one.bare = other.bare := bare_run start coherent otherCoherent steps
  have oneCoherent : one.toFinding.Coherent := coherent_run coherent steps
  have stillCoherent : other.toFinding.Coherent := coherent_run otherCoherent steps
  have source : one.source = given.getD none := by rw [source_run coherent, absent]
  have otherSource : other.source = given.getD (some []) := by rw [source_run otherCoherent, empty]
  refine ⟨?_, ?_, ?_, ⟨one.snapshot, ?_, ?_⟩, ?_⟩
  · intro next counts
    apply entry_eq_of_answers
    rintro query rfl
    refine ask_eq_of_bare_eq same oneCoherent stillCoherent fun hidden => counts ?_
    exact List.mem_map_of_mem (f := Step.ask) hidden
  · rw [(Diagnostic.answers_ask oneCoherent .sourceText).answer_eq, ← source]
    rfl
  · rw [(Diagnostic.answers_ask stillCoherent .sourceText).answer_eq, ← otherSource]
    rfl
  · rw [(Diagnostic.answers_ask oneCoherent .snapshot).answer_eq, ← source]
    rfl
  · have states : one.bare.snapshot = other.bare.snapshot := by rw [same]
    have left : one.bare.snapshot = { one.snapshot with source := one.presentSource } :=
      Finding.snapshot_bare _
    have right : other.bare.snapshot = { other.snapshot with source := other.presentSource } :=
      Finding.snapshot_bare _
    rw [left, right] at states
    rw [(Diagnostic.answers_ask stillCoherent .snapshot).answer_eq, ← otherSource]
    exact congrArg (fun state => Answer.snapshot { state with source := other.source }) states.symm
  · intro diagnostic member missing
    have still : diagnostic.toFinding.Coherent := by
      rcases List.mem_cons.mp member with rfl | last
      · exact oneCoherent
      · exact List.mem_singleton.mp last ▸ stillCoherent
    exact ask_of_missing still missing

/-- The one has no source, and the other an empty one and a stored scan of it. -/
theorem emptySource_like_none_after_read :
    let first := (Origin.sourceless ['m'] 5).diagnostic
    let second := run (Origin.inSource ['m'] [] 5).diagnostic [.ask .line]
    let steps : List Step :=
      [.change (.pinLine 3), .ask .report, .change (.configure { placeholder := "?".toList })]
    first.source = none ∧ second.fresh = { first.fresh with source := some [] } ∧
      second.scan = some .unresolved ∧ first.scan = none ∧
      (step (.ask .report) (run first steps)).1 = (step (.ask .report) (run second steps)).1 ∧
      (Diagnostic.ask .excerpt (run second steps)).1 = .excerpt ⟨"?".toList, some 0⟩ ∧
      (Diagnostic.ask .column (run second steps)).1 = .number 0 := by
  intro first second steps
  have coherent : first.toFinding.Coherent := Origin.coherent_diagnostic _
  have otherCoherent : second.toFinding.Coherent :=
    coherent_run (Origin.coherent_diagnostic _) [.ask .line]
  have other : Step.ask .report ∉ [.ask .sourceText, .ask .snapshot] := by decide
  obtain ⟨entries, -, -, -, missing⟩ :=
    emptySource_like_none first second rfl rfl coherent otherCoherent steps
  have last := missing (run second steps) (List.mem_cons_of_mem _ (List.mem_singleton_self _))
    (.inr rfl)
  exact ⟨rfl, rfl, rfl, rfl, entries _ other, last.1, last.2.2⟩

end Session

end Pinpoint

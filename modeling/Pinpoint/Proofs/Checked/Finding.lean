import Pinpoint.Checked.Finding
import Pinpoint.Proofs.Checked.Excerpt
import Pinpoint.Proofs.Session.Provenance

/-! # Reading a finding does not fault

The line and the column of a scan together exceed the scanned characters by at most two, and the
caret stands inside its source, so with a source shorter than the bound of the signed offsets every
sum on the way to a report is an offset. Only the printed column depends on what was pinned. Under
these conditions every checked read gives what the plain one gives and leaves the same finding.
-/

namespace Pinpoint.Checked

/-! ## Locations -/

theorem advance_ok {location : Location} (fits : location.line + location.column < maxOffset)
    (c : Char) : advance location c = .ok (location.advance c) := by
  unfold advance Location.advance
  split
  · rfl
  · split
    · rw [add_ok (by omega)]
      rfl
    · rw [add_ok (by omega)]
      rfl

/-- The counters of a scan grow by at most one with every character. -/
theorem foldlM_scanNext_ok {text : Text} {scanned : Nat} {location : Location}
    (count : scanned + text.length ≤ maxOffset)
    (fits : location.line + location.column + text.length ≤ maxOffset) :
    text.foldlM scanNext (scanned, location) =
      .ok (scanned + text.length, text.foldl Location.advance location) := by
  induction text generalizing scanned location with
  | nil => rfl
  | cons c text ih =>
    rw [List.length_cons] at count fits
    have step := Location.line_add_column_advance_le location c
    have counted : add scanned 1 = .ok (scanned + 1) := add_ok (by omega)
    have advanced : advance location c = .ok (location.advance c) := advance_ok (by omega) c
    have next : scanNext (scanned, location) c = .ok (scanned + 1, location.advance c) := by
      simp only [scanNext, counted, advanced, ok_bind]
      rfl
    rw [List.foldlM_cons, next, ok_bind, ih (by omega) (by omega), List.length_cons,
      List.foldl_cons, Nat.add_assoc, Nat.add_comm 1]

theorem ofCursor_ok {source : Text} (short : source.length < signedBound) (cursor : Nat) :
    ofCursor source cursor = .ok (.ofCursor source cursor) := by
  have taken := (List.take_prefix cursor source).length_le
  have room : signedBound + 2 ≤ maxOffset := by decide
  have start : Location.start.line + Location.start.column = 2 := rfl
  rw [ofCursor, foldlM_scanNext_ok (by omega) (by omega)]
  rfl

/-! ## Reports -/

/-- The caret and the column of a report can be printed. -/
structure Printable (report : Report) : Prop where
  caret : report.excerpt.caretOffset < signedBound
  column : ∀ location, report.location = some location → location.column < maxOffset

theorem caretLine_ok {caretOffset : Nat} (caret : caretOffset < signedBound) :
    caretLine caretOffset = .ok (Report.caretLine caretOffset) := by
  have room : Report.opening.length + signedBound ≤ maxOffset := by decide
  rw [caretLine, add_ok (by omega)]
  rfl

theorem Printable.render_ok {report : Report} (printable : Printable report) :
    render report = .ok report.render := by
  obtain ⟨message, excerpt, location⟩ := report
  rw [render, caretLine_ok printable.caret, ok_bind, Report.render]
  cases location with
  | none => rfl
  | some location =>
    have column := printable.column location rfl
    simp only [locationLine, printedColumn]
    rw [add_ok column]
    rfl

theorem Printable.summary_ok {report : Report} (printable : Printable report)
    (details : List Detail) : summary report details = .ok (report.summary details) := by
  obtain ⟨message, excerpt, location⟩ := report
  rw [summary, Report.summary]
  cases location with
  | none => rfl
  | some location =>
    have column := printable.column location rfl
    simp only [locationMember, printedColumn]
    rw [add_ok column]
    rfl

/-! ## Findings -/

/-- The stored scan is coherent, the source is short enough for signed offsets, and one more than a
pinned column is a column. -/
structure Fits (finding : Finding) : Prop where
  coherent : finding.Coherent
  short : ∀ source, finding.source = some source → source.length < signedBound
  column : ∀ column, finding.pinnedColumn = some column → column < maxOffset

variable {finding : Finding}

theorem Fits.of_fresh_eq (fits : Fits finding) {stored : Finding} (coherent : stored.Coherent)
    (same : stored.fresh = finding.fresh) : Fits stored where
  coherent := coherent
  short := by
    rw [Finding.eq_of_fresh_eq Finding.source (fun _ => rfl) same]
    exact fits.short
  column := by
    rw [Finding.eq_of_fresh_eq Finding.pinnedColumn (fun _ => rfl) same]
    exact fits.column

theorem Fits.present (fits : Fits finding) {source : Text}
    (present : finding.presentSource = some source) : source.length < signedBound :=
  fits.short source (Option.filter_eq_some_iff.mp present).1

theorem Fits.sourceLocation_ok (fits : Fits finding) :
    sourceLocation finding = .ok finding.sourceLocation := by
  unfold sourceLocation Finding.sourceLocation
  cases present : finding.presentSource with
  | none => rfl
  | some source => exact ofCursor_ok (fits.present present) finding.cursor

theorem Fits.excerpt_ok (fits : Fits finding) : excerpt finding = .ok finding.excerpt := by
  unfold excerpt Finding.excerpt
  cases present : finding.presentSource with
  | none => rfl
  | some source =>
    simp only [Excerpt.extract_of_ne_nil (Finding.ne_nil_of_presentSource present)]
    exact ofSource_ok (fits.present present) finding.cursor finding.settings.window

theorem Fits.caretOffset_lt (fits : Fits finding) : finding.excerpt.caretOffset < signedBound := by
  unfold Finding.excerpt
  cases present : finding.presentSource with
  | none => exact (by decide : 0 < signedBound)
  | some source =>
    simp only [Excerpt.extract_of_ne_nil (Finding.ne_nil_of_presentSource present)]
    exact Nat.lt_of_le_of_lt (Excerpt.caretOffset_ofSource_le ..) (fits.present present)

theorem Fits.column_lt (fits : Fits finding) : finding.position.column < maxOffset := by
  unfold Finding.position
  cases pinned : finding.pinnedColumn with
  | some column => exact fits.column column pinned
  | none =>
    have room : signedBound + 1 < maxOffset := by decide
    unfold Finding.sourceLocation
    cases present : finding.presentSource with
    | none => exact (by decide : 0 < maxOffset)
    | some source =>
      have short := fits.present present
      have taken := (List.take_prefix finding.cursor source).length_le
      have scanned := Location.line_add_column_ofCursor_le source finding.cursor
      simp only [Option.getD_none]
      omega

theorem Fits.printable (fits : Fits finding) : Printable finding.report where
  caret := fits.caretOffset_lt
  column := by
    intro location shown
    obtain ⟨-, same⟩ := Option.ite_none_left_eq_some.mp shown
    cases same
    exact fits.column_lt

/-! ## Reads -/

/-- A checked read gives what a plain one gives, and leaves the same finding. -/
def Agrees {α : Type} (checked : Read α) (plain : Finding.Read α) (finding : Finding) : Prop :=
  checked finding = .ok (plain finding)

section

variable {α β : Type} {checked : Read α} {plain : Finding.Read α} {next : α → Read β}
  {plainNext : α → Finding.Read β}

theorem Agrees.bind (first : Agrees checked plain finding)
    (rest : Agrees (next (plain finding).1) (plainNext (plain finding).1) (plain finding).2) :
    Agrees (checked >>= next) (plain >>= plainNext) finding := by
  have run : (checked >>= next) finding =
      (checked finding >>= fun result => next result.1 result.2) := rfl
  rw [Agrees, run, first]
  exact rest

theorem Agrees.of_pure (value : α) : Agrees (pure value) (pure value) finding := rfl

theorem Agrees.of_get {next : Finding → Read β} {plainNext : Finding → Finding.Read β}
    (rest : Agrees (next finding) (plainNext finding) finding) :
    Agrees (get >>= next) (get >>= plainNext) finding := rest

/-- A computation that has a result is read without a fault. -/
theorem Agrees.of_ok {computation : Checked α} {value : α} (result : computation = .ok value) :
    Agrees (do return ← computation) (pure value) finding := by
  rw [result]
  rfl

end

theorem Fits.readScan_agrees (fits : Fits finding) :
    Agrees readScan Finding.readScan finding := by
  unfold Agrees readScan Finding.readScan
  cases finding.scan with
  | some location => rfl
  | none =>
    simp only
    rw [fits.sourceLocation_ok]
    rfl

theorem Fits.readPosition_agrees (fits : Fits finding) :
    Agrees readPosition Finding.readPosition finding := by
  apply Agrees.of_get
  cases finding.pinnedLine with
  | none => exact fits.readScan_agrees.bind (.of_pure _)
  | some line =>
    cases finding.pinnedColumn with
    | none => exact fits.readScan_agrees.bind (.of_pure _)
    | some column => exact .of_pure _

theorem Fits.readLine_agrees (fits : Fits finding) : Agrees readLine Finding.readLine finding :=
  fits.readPosition_agrees.bind (.of_pure _)

theorem Fits.readColumn_agrees (fits : Fits finding) :
    Agrees readColumn Finding.readColumn finding :=
  fits.readPosition_agrees.bind (.of_pure _)

theorem Fits.readLocation_agrees (fits : Fits finding) :
    Agrees readLocation Finding.readLocation finding := by
  apply Agrees.of_get
  cases finding.hidden with
  | true => exact .of_pure _
  | false => exact fits.readPosition_agrees.bind (.of_pure _)

theorem Fits.readExcerpt_ok (fits : Fits finding) :
    readExcerpt finding = .ok (finding.excerpt, finding) := by
  have quoted : Agrees readExcerpt (pure finding.excerpt) finding := .of_ok fits.excerpt_ok
  exact quoted

theorem Fits.readReport_agrees (fits : Fits finding) :
    Agrees readReport Finding.readReport finding := by
  have located := Finding.yields_readLocation fits.coherent
  have stored := fits.of_fresh_eq located.coherent located.fresh_eq
  refine fits.readLocation_agrees.bind ?_
  change (readExcerpt (Finding.readLocation finding).2 >>= _) = _
  rw [stored.readExcerpt_ok]
  rfl

theorem Fits.readReportText_agrees (fits : Fits finding) :
    Agrees readReportText Finding.readReportText finding := by
  refine fits.readReport_agrees.bind ?_
  rw [(Finding.yields_readReport fits.coherent).value_eq]
  exact .of_ok fits.printable.render_ok

theorem Fits.readSummary_agrees (fits : Fits finding) :
    Agrees readSummary Finding.readSummary finding := by
  refine fits.readReport_agrees.bind (.of_get ?_)
  rw [(Finding.yields_readReport fits.coherent).value_eq]
  exact .of_ok (fits.printable.summary_ok _)

/-! ## After any run -/

/-- After any run every read is made without a fault: all slices lie in their texts, all numbers in
their ranges, and the loop that isolates a line ends. It is enough that the present source is
shorter than the bound of the signed offsets and that one more than a pinned column is a column. -/
theorem reads_ok_run (origin : Origin) (steps : List Step)
    (short : ∀ source, (Session.run origin.diagnostic steps).source = some source →
      source.length < signedBound)
    (column : ∀ column, (Session.run origin.diagnostic steps).pinnedColumn = some column →
      column < maxOffset) :
    let finding := (Session.run origin.diagnostic steps).toFinding
    readLine finding = .ok (Finding.readLine finding) ∧
      readColumn finding = .ok (Finding.readColumn finding) ∧
      readLocation finding = .ok (Finding.readLocation finding) ∧
      readExcerpt finding = .ok (finding.excerpt, finding) ∧
      readReportText finding = .ok (Finding.readReportText finding) ∧
      readSummary finding = .ok (Finding.readSummary finding) := by
  intro finding
  have coherent : finding.Coherent :=
    Session.coherent_run origin.coherent_diagnostic steps
  have fits : Fits finding := ⟨coherent, short, column⟩
  exact ⟨fits.readLine_agrees, fits.readColumn_agrees, fits.readLocation_agrees,
    fits.readExcerpt_ok, fits.readReportText_agrees, fits.readSummary_agrees⟩

theorem reads_ok_run_past_end :
    let origin := Origin.inSource ['m'] ['a', '\n', 'b', '\n'] 0
    let steps : List Step :=
      [.ask .line, .change (.moveCursor maxOffset), .change (.pinColumn 7), .ask .report,
        .change (.configure { window := ⟨maxOffset, maxOffset, maxOffset⟩ })]
    let finding := (Session.run origin.diagnostic steps).toFinding
    (∀ source, finding.source = some source → source.length < signedBound) ∧
      (∀ column, finding.pinnedColumn = some column → column < maxOffset) ∧
      readReportText finding = .ok (Finding.readReportText finding) := by
  intro origin steps finding
  have short : ∀ source, finding.source = some source → source.length < signedBound := by
    rintro _ ⟨⟩
    decide
  have column : ∀ column, finding.pinnedColumn = some column → column < maxOffset := by
    rintro _ ⟨⟩
    decide
  exact ⟨short, column, (reads_ok_run origin steps short column).2.2.2.2.1⟩

/-- The largest column cannot be printed. -/
example :
    readReportText { Finding.inSource ['m'] ['a'] 0 with pinnedColumn := some maxOffset } =
      .error .overflow := rfl

end Pinpoint.Checked

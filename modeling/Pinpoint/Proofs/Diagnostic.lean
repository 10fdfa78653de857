import Pinpoint.Diagnostic
import Pinpoint.Proofs.Excerpt.Caret

/-! # What reading a finding finds

A stored scan is always the scan that would be made now, so reading gives what a finding without any
stored scan gives. Reading may store a scan and changes nothing else.
-/

namespace Pinpoint.Finding

/-- A stored scan is the one of the present source and cursor. -/
def Coherent (finding : Finding) : Prop :=
  ∀ location, finding.scan = some location → location = finding.sourceLocation

/-- The finding without its stored scan. -/
def fresh (finding : Finding) : Finding := { finding with scan := none }

/-- The line and the column, each pinned or that of a scan made now. -/
def position (finding : Finding) : Location where
  line := finding.pinnedLine.getD finding.sourceLocation.line
  column := finding.pinnedColumn.getD finding.sourceLocation.column

/-- The position, unless it is hidden. -/
def shownLocation (finding : Finding) : Option Location :=
  if finding.hidden then none else some finding.position

/-- What a report says, without looking at the stored scan. -/
def report (finding : Finding) : Report where
  message := finding.message
  excerpt := finding.excerpt
  location := finding.shownLocation

/-- Whatever does not look at the stored scan is the same for findings that differ only in it. -/
theorem eq_of_fresh_eq {α : Type} {first second : Finding} (observe : Finding → α)
    (blind : ∀ finding : Finding, observe finding.fresh = observe finding)
    (same : first.fresh = second.fresh) : observe first = observe second := by
  rw [← blind first, same, blind second]

theorem ne_nil_of_presentSource {finding : Finding} {source : Text}
    (present : finding.presentSource = some source) : source ≠ [] :=
  of_decide_eq_true (Option.filter_eq_some_iff.mp present).2

theorem Coherent.of_scan_eq_none {finding : Finding} (empty : finding.scan = none) :
    finding.Coherent := by
  intro location stored
  rw [empty] at stored
  cases stored

/-- A change that makes the scan void leaves none, and the others leave the source alone. -/
theorem Coherent.apply {finding : Finding} (coherent : finding.Coherent) (change : Change) :
    (finding.apply change).Coherent := by
  cases change with
  | giveSource source => exact of_scan_eq_none rfl
  | dropSource => exact of_scan_eq_none rfl
  | moveCursor cursor => exact of_scan_eq_none rfl
  | pinLine line => exact coherent
  | pinColumn column => exact coherent
  | tellLineStart offset => exact coherent
  | replaceDetails details => exact coherent
  | hideLocation => exact coherent
  | configure settings => exact coherent

/-! ## One read -/

/-- A read gives a value and changes nothing but the stored scan, which it leaves coherent. -/
structure Yields {α : Type} (reading : Read α) (finding : Finding) (value : α) : Prop where
  value_eq : (reading finding).1 = value
  fresh_eq : (reading finding).2.fresh = finding.fresh
  coherent : (reading finding).2.Coherent

section

variable {α β : Type} {reading : Read α} {next : α → Read β} {finding : Finding} {value : α}
  {result : β}

theorem Yields.of_pure (coherent : finding.Coherent) (value : α) :
    Yields (pure value) finding value :=
  ⟨rfl, rfl, coherent⟩

theorem Yields.of_get {next : Finding → Read β} (rest : Yields (next finding) finding result) :
    Yields (get >>= next) finding result :=
  ⟨rest.value_eq, rest.fresh_eq, rest.coherent⟩

theorem Yields.bind (first : Yields reading finding value)
    (rest : ∀ stored : Finding, stored.fresh = finding.fresh → stored.Coherent →
      Yields (next value) stored result) :
    Yields (reading >>= next) finding result := by
  have second := rest (reading finding).2 first.fresh_eq first.coherent
  rw [← first.value_eq] at second
  exact ⟨second.value_eq, second.fresh_eq.trans first.fresh_eq, second.coherent⟩

end

/-! ## The reads of a finding -/

section

variable {finding : Finding}

theorem yields_readScan (coherent : finding.Coherent) :
    Yields readScan finding finding.sourceLocation := by
  cases stored : finding.scan with
  | none =>
    have run : readScan finding =
        (finding.sourceLocation, { finding with scan := some finding.sourceLocation }) := by
      simp only [readScan, stored]
    exact ⟨by rw [run], by rw [run]; rfl, by rw [run]; rintro _ ⟨⟩; rfl⟩
  | some location =>
    have run : readScan finding = (location, finding) := by simp only [readScan, stored]
    exact ⟨by rw [run]; exact coherent location stored, by rw [run], by rw [run]; exact coherent⟩

theorem yields_readPosition (coherent : finding.Coherent) :
    Yields readPosition finding finding.position := by
  apply Yields.of_get
  split
  · next line column pinnedLine pinnedColumn =>
    have pinned : finding.position = ⟨line, column⟩ := by
      simp only [position, pinnedLine, pinnedColumn, Option.getD_some]
    rw [pinned]
    exact .of_pure coherent _
  · exact (yields_readScan coherent).bind fun _ _ coherent => .of_pure coherent _

theorem yields_readLine (coherent : finding.Coherent) :
    Yields readLine finding finding.position.line :=
  (yields_readPosition coherent).bind fun _ _ coherent => .of_pure coherent _

theorem yields_readColumn (coherent : finding.Coherent) :
    Yields readColumn finding finding.position.column :=
  (yields_readPosition coherent).bind fun _ _ coherent => .of_pure coherent _

theorem yields_readLocation (coherent : finding.Coherent) :
    Yields readLocation finding finding.shownLocation := by
  apply Yields.of_get
  cases hidden : finding.hidden with
  | true =>
    simp only [shownLocation, hidden, ↓reduceIte]
    exact .of_pure coherent _
  | false =>
    simp only [shownLocation, hidden, Bool.false_eq_true, ↓reduceIte]
    exact (yields_readPosition coherent).bind fun _ _ coherent => .of_pure coherent _

theorem yields_readReport (coherent : finding.Coherent) :
    Yields readReport finding finding.report := by
  refine (yields_readLocation coherent).bind fun stored same coherent => .of_get ?_
  have report : finding.report = ⟨stored.message, stored.excerpt, finding.shownLocation⟩ := by
    have message : stored.message = finding.message :=
      eq_of_fresh_eq Finding.message (fun _ => rfl) same
    have excerpt : stored.excerpt = finding.excerpt :=
      eq_of_fresh_eq Finding.excerpt (fun _ => rfl) same
    rw [message, excerpt, Finding.report]
  rw [report]
  exact .of_pure coherent _

theorem yields_readReportText (coherent : finding.Coherent) :
    Yields readReportText finding finding.report.render :=
  (yields_readReport coherent).bind fun _ _ coherent => .of_pure coherent _

theorem yields_readSummary (coherent : finding.Coherent) :
    Yields readSummary finding (finding.report.summary finding.details) := by
  refine (yields_readReport coherent).bind fun stored same coherent => .of_get ?_
  have details : stored.details = finding.details :=
    eq_of_fresh_eq Finding.details (fun _ => rfl) same
  rw [← details]
  exact .of_pure coherent _

end

/-! ## What a finding quotes

A finding quotes its source where that has characters, and the placeholder of its settings where it
has none. Either way the caret is not behind the quoted text.
-/

variable {finding : Finding} {source : Text}

theorem presentSource_eq_some (given : finding.source = some source) (nonempty : source ≠ []) :
    finding.presentSource = some source := by
  rw [presentSource, given]
  exact Option.filter_eq_some_iff.mpr ⟨rfl, decide_eq_true nonempty⟩

theorem presentSource_eq_none (missing : finding.source = none ∨ finding.source = some []) :
    finding.presentSource = none := by
  rcases missing with absent | empty
  · rw [presentSource, absent]
    rfl
  · rw [presentSource, empty]
    rfl

theorem excerpt_of_presentSource_eq_some (present : finding.presentSource = some source) :
    finding.excerpt = .ofSource source finding.cursor finding.settings.window := by
  simp only [excerpt, present]
  exact Excerpt.extract_of_ne_nil (ne_nil_of_presentSource present) ..

theorem excerpt_of_presentSource_eq_none (absent : finding.presentSource = none) :
    finding.excerpt = .placeholder finding.settings.placeholder := by
  simp only [excerpt, absent]

/-- Only the placeholder can bring a line feed into the quoted text. -/
theorem lineFeed_not_mem_excerpt (placeholder : '\n' ∉ finding.settings.placeholder) :
    '\n' ∉ finding.excerpt.text := by
  cases present : finding.presentSource with
  | none =>
    rw [excerpt_of_presentSource_eq_none present]
    exact placeholder
  | some source =>
    rw [excerpt_of_presentSource_eq_some present]
    exact Excerpt.lineFeed_not_mem_text_ofSource source finding.cursor finding.settings.window

theorem caretOffset_excerpt_le (finding : Finding) :
    finding.excerpt.caretOffset ≤ finding.excerpt.text.length := by
  cases present : finding.presentSource with
  | none =>
    rw [excerpt_of_presentSource_eq_none present]
    exact Nat.zero_le _
  | some source =>
    rw [excerpt_of_presentSource_eq_some present]
    exact Excerpt.caretOffset_ofSource_le_length ..

/-- Where the caret is set, the token at the cursor stands in the quoted text from the caret on. -/
theorem leadingToken_isPrefix_drop_caretOffset (given : finding.source = some source)
    (nonempty : source ≠ []) (set : finding.excerpt.caret ≠ none) :
    Excerpt.leadingToken (source.drop (min finding.cursor source.length))
        finding.settings.window.tokenLimit <+:
      finding.excerpt.text.drop finding.excerpt.caretOffset := by
  obtain ⟨caret, found⟩ := Option.ne_none_iff_exists'.mp set
  rw [Excerpt.caretOffset, found, Option.getD_some]
  rw [excerpt_of_presentSource_eq_some (presentSource_eq_some given nonempty)] at found ⊢
  exact Excerpt.leadingToken_isPrefix_drop_caret found

end Pinpoint.Finding

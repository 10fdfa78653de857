import Pinpoint.Proofs.Diagnostic
import Pinpoint.Session.Run

/-! # What a run comes to

Up to the stored scan, a run does to a diagnostic what the changes of its history do to it, one
after another: questions are answered from everything but the stored scan and leave everything else
alone. A field of the diagnostic then holds the last value that the history writes to it.
-/

namespace Pinpoint

/-- The state of a finding, without looking at the stored scan. -/
def Finding.snapshot (finding : Finding) : Snapshot where
  source := finding.source
  cursor := finding.cursor
  line := finding.position.line
  column := finding.position.column
  location := finding.shownLocation
  hidden := finding.hidden
  lineStart := finding.lineStart
  details := finding.details
  excerpt := finding.excerpt
  description := finding.report.render

open Finding in
theorem Finding.yields_readSnapshot {finding : Finding} (coherent : finding.Coherent) :
    Yields readSnapshot finding finding.snapshot := by
  refine (yields_readLine coherent).bind fun first firstSame coherent => ?_
  refine (yields_readColumn coherent).bind fun second secondSame coherent => ?_
  refine (yields_readLocation coherent).bind fun third thirdSame coherent => ?_
  refine (yields_readReportText coherent).bind fun fourth fourthSame coherent => .of_get ?_
  have secondSame := secondSame.trans firstSame
  have thirdSame := thirdSame.trans secondSame
  have fourthSame := fourthSame.trans thirdSame
  have column : first.position.column = finding.position.column :=
    eq_of_fresh_eq (·.position.column) (fun _ => rfl) firstSame
  have location : second.shownLocation = finding.shownLocation :=
    eq_of_fresh_eq shownLocation (fun _ => rfl) secondSame
  have report : third.report = finding.report := eq_of_fresh_eq report (fun _ => rfl) thirdSame
  rw [column, location, report]
  have state : fourth.snapshot = finding.snapshot := eq_of_fresh_eq snapshot (fun _ => rfl) fourthSame
  have value : { fourth.snapshot with
      line := finding.position.line, column := finding.position.column,
      location := finding.shownLocation, description := finding.report.render } =
      finding.snapshot := by
    rw [state]
    rfl
  rw [← value]
  exact .of_pure coherent _

namespace Diagnostic

/-- The diagnostic without its stored scan. -/
def fresh (diagnostic : Diagnostic) : Diagnostic :=
  { diagnostic with toFinding := diagnostic.toFinding.fresh }

/-- The answer to a question, without looking at the stored scan. -/
def answer (diagnostic : Diagnostic) : Query → Answer
  | .message => .text diagnostic.message
  | .sourceText => .source diagnostic.source
  | .cursor => .number diagnostic.cursor
  | .details => .details diagnostic.details
  | .settings => .settings diagnostic.settings
  | .lineStart => .number diagnostic.lineStart
  | .line => .number diagnostic.position.line
  | .column => .number diagnostic.position.column
  | .location => .location diagnostic.shownLocation
  | .hidden => .flag diagnostic.hidden
  | .excerpt => .excerpt diagnostic.excerpt
  | .report => .text diagnostic.toFinding.report.render
  | .summary => .text (diagnostic.toFinding.report.summary diagnostic.details).render
  | .causes => .texts diagnostic.cause.texts
  | .snapshot => .snapshot diagnostic.snapshot

/-- Asking gives an answer and changes nothing but the stored scan, which it leaves coherent. -/
structure Answers (asking : StateM Diagnostic Answer) (diagnostic : Diagnostic)
    (answer : Answer) : Prop where
  answer_eq : (asking diagnostic).1 = answer
  fresh_eq : (asking diagnostic).2.fresh = diagnostic.fresh
  coherent : (asking diagnostic).2.toFinding.Coherent

theorem Answers.of_get {diagnostic : Diagnostic} (coherent : diagnostic.toFinding.Coherent)
    (value : Diagnostic → Answer) :
    Answers (do return value (← get)) diagnostic (value diagnostic) :=
  ⟨rfl, rfl, coherent⟩

theorem Answers.of_read {diagnostic : Diagnostic} {α : Type} {reading : Finding.Read α} {value : α}
    (yields : Finding.Yields reading diagnostic.toFinding value) (wrap : α → Answer) :
    Answers (do return wrap (← read reading)) diagnostic (wrap value) where
  answer_eq := congrArg wrap yields.value_eq
  fresh_eq := congrArg (Diagnostic.mk · diagnostic.cause) yields.fresh_eq
  coherent := yields.coherent

theorem answers_ask {diagnostic : Diagnostic} (coherent : diagnostic.toFinding.Coherent)
    (query : Query) : Answers (ask query) diagnostic (diagnostic.answer query) := by
  cases query with
  | message => exact .of_get coherent _
  | sourceText => exact .of_get coherent _
  | cursor => exact .of_get coherent _
  | details => exact .of_get coherent _
  | settings => exact .of_get coherent _
  | lineStart => exact .of_get coherent _
  | line => exact .of_read (Finding.yields_readLine coherent) _
  | column => exact .of_read (Finding.yields_readColumn coherent) _
  | location => exact .of_read (Finding.yields_readLocation coherent) _
  | hidden => exact .of_get coherent _
  | excerpt => exact .of_get coherent _
  | report => exact .of_read (Finding.yields_readReportText coherent) _
  | summary => exact .of_read (Finding.yields_readSummary coherent) _
  | causes => exact .of_get coherent _
  | snapshot => exact .of_read (Finding.yields_readSnapshot coherent) _

theorem fresh_apply (diagnostic : Diagnostic) (change : Change) :
    (diagnostic.apply change).fresh = diagnostic.fresh.apply change := by
  cases change <;> rfl

end Diagnostic

namespace Session

variable {diagnostic : Diagnostic}

/-! ## One step -/

theorem coherent_advance (coherent : diagnostic.toFinding.Coherent) (next : Step) :
    (advance diagnostic next).toFinding.Coherent := by
  cases next with
  | change made => exact coherent.apply made
  | load document =>
    cases loaded : Settings.ofDocument document with
    | ok settings =>
      simp only [advance, step, loaded]
      exact coherent.apply (.configure settings)
    | error problem =>
      simp only [advance, step, loaded]
      exact coherent
  | ask query => exact (Diagnostic.answers_ask coherent query).coherent

/-- Up to the stored scan, a step does what its change does. -/
theorem fresh_advance (coherent : diagnostic.toFinding.Coherent) (next : Step) :
    (advance diagnostic next).fresh = next.change?.elim diagnostic.fresh diagnostic.fresh.apply := by
  cases next with
  | change made => exact diagnostic.fresh_apply made
  | load document =>
    cases loaded : Settings.ofDocument document with
    | ok settings =>
      simp only [advance, step, Step.change?, loaded]
      exact diagnostic.fresh_apply (.configure settings)
    | error problem =>
      simp only [advance, step, Step.change?, loaded]
      rfl
  | ask query => exact (Diagnostic.answers_ask coherent query).fresh_eq

/-- Apart from answers, the entry of a step does not depend on the diagnostic. -/
theorem entry_eq_of_answers {first second : Diagnostic} {next : Step}
    (answers : ∀ query, next = .ask query →
      (Diagnostic.ask query first).1 = (Diagnostic.ask query second).1) :
    (step next first).1 = (step next second).1 := by
  cases next with
  | change made => rfl
  | load document =>
    simp only [step]
    cases Settings.ofDocument document <;> rfl
  | ask query => exact congrArg Entry.answered (answers query rfl)

/-! ## A whole run -/

theorem coherent_run (coherent : diagnostic.toFinding.Coherent) (steps : List Step) :
    (run diagnostic steps).toFinding.Coherent := by
  induction steps generalizing diagnostic with
  | nil => exact coherent
  | cons next steps ih => exact ih (coherent_advance coherent next)

/-- After a run, a question is answered without looking at the stored scan. -/
theorem ask_run (coherent : diagnostic.toFinding.Coherent) (steps : List Step) (query : Query) :
    (Diagnostic.ask query (run diagnostic steps)).1 = (run diagnostic steps).answer query :=
  (Diagnostic.answers_ask (coherent_run coherent steps) query).answer_eq

/-- Up to the stored scan, a run does what the changes of its history do. -/
theorem fresh_run (coherent : diagnostic.toFinding.Coherent) (steps : List Step) :
    (run diagnostic steps).fresh = (history steps).foldl Diagnostic.apply diagnostic.fresh := by
  induction steps generalizing diagnostic with
  | nil => rfl
  | cons next steps ih =>
    have rest := ih (coherent_advance coherent next)
    rw [fresh_advance coherent next] at rest
    cases made : next.change? with
    | none =>
      rw [made] at rest
      rw [history, List.filterMap_cons_none made]
      exact rest
    | some change =>
      rw [made] at rest
      rw [history, List.filterMap_cons_some made]
      exact rest

/-- What commutes with every change commutes with a run, up to the stored scan. -/
theorem fresh_run_hom (alter : Diagnostic → Diagnostic)
    (fresh : ∀ diagnostic : Diagnostic, (alter diagnostic).fresh = alter diagnostic.fresh)
    (commutes : ∀ (diagnostic : Diagnostic) (change : Change),
      (alter diagnostic).apply change = alter (diagnostic.apply change))
    (coherent : diagnostic.toFinding.Coherent)
    (altered : (alter diagnostic).toFinding.Coherent) (steps : List Step) :
    (run (alter diagnostic) steps).fresh = (alter (run diagnostic steps)).fresh := by
  rw [fresh, fresh_run coherent, fresh_run altered, fresh]
  exact List.foldl_hom alter commutes

/-- Without a state after every change, a transcript leaves the diagnostic as the run does. -/
theorem transcript_quiet (diagnostic : Diagnostic) (steps : List Step) :
    (transcript true steps diagnostic).2 = run diagnostic steps := by
  have each (diagnostic : Diagnostic) :
      ((steps.mapM step : StateM Diagnostic (List Entry)) diagnostic).2 =
        run diagnostic steps := by
    induction steps generalizing diagnostic with
    | nil => rfl
    | cons next steps ih =>
      rw [List.mapM_cons]
      exact ih (advance diagnostic next)
  exact each diagnostic

end Session

end Pinpoint

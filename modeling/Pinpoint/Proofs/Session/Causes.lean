import Pinpoint.Proofs.Session.LastChange

/-! # The chain of causes

A diagnostic that is made around another one keeps it as its cause for good, as it was then: every
change and every read concerns the outer finding only. So the texts of the causes are the reports of
the diagnostics beneath, each with its own source and settings, and nothing but these texts tells a
diagnostic from the same failure made without a cause.
-/

namespace Pinpoint

open Session (run)

/-! ## What lies beneath -/

namespace Origin

/-- What the diagnostic is made around. -/
def cause : Origin → Cause
  | .causedBy _ _ _ cause => cause
  | .inSource .. | .sourceless .. | .reported .. => .unknown

/-- The same failure, made without a cause. -/
def alone : Origin → Origin
  | .causedBy message source cursor _ => .inSource message source cursor
  | origin => origin

theorem cause_diagnostic (origin : Origin) : origin.diagnostic.cause = origin.cause := by
  cases origin <;> rfl

end Origin

/-- What is met on the way down from a cause: diagnostics, each of them made around the next one and
then taken through steps of its own, and below the last one nothing or a plain error. -/
inductive Cause.Chain : Cause → List Diagnostic → Option Text → Prop where
  | unknown : Chain .unknown [] none
  | plain (text : Text) : Chain (.plain text) [] (some text)
  | diagnostic (origin : Origin) (steps : List Step) {beneath : List Diagnostic}
      {last : Option Text} (chain : Chain origin.cause beneath last) :
      Chain (run origin.diagnostic steps).asCause (run origin.diagnostic steps :: beneath) last

namespace Session

/-- No step of a run touches the cause. -/
theorem cause_run (origin : Origin) (steps : List Step) :
    (run origin.diagnostic steps).cause = origin.cause := by
  have kept := observe_fresh_run origin.coherent_diagnostic (·.cause) (fun _ _ => rfl) steps
  exact kept.trans origin.cause_diagnostic

end Session

namespace Cause.Chain

variable {cause : Cause} {errors : List Diagnostic} {last : Option Text}

theorem coherent (chain : cause.Chain errors last) :
    ∀ error ∈ errors, error.toFinding.Coherent := by
  induction chain with
  | unknown => exact List.forall_mem_nil _
  | plain text => exact List.forall_mem_nil _
  | diagnostic origin steps chain ih =>
    exact List.forall_mem_cons.mpr
      ⟨Session.coherent_run origin.coherent_diagnostic steps, ih⟩

theorem texts_eq (chain : cause.Chain errors last) :
    cause.texts = errors.map (·.toFinding.report.render) ++ last.toList := by
  -- On the chain; a diagnostic adds its report, and what it was made around is still its cause.
  induction chain with
  | unknown => rfl
  | plain text => rfl
  | diagnostic origin steps chain ih =>
    have coherent := Session.coherent_run origin.coherent_diagnostic steps
    rw [Diagnostic.asCause, texts, Session.cause_run, ih,
      (Finding.yields_readReportText coherent).value_eq]
    rfl

end Cause.Chain

/-! ## Without the cause -/

namespace Diagnostic

/-- The diagnostic without its cause. -/
def alone (diagnostic : Diagnostic) : Diagnostic := { diagnostic with cause := .unknown }

theorem answer_alone (diagnostic : Diagnostic) {query : Query} (other : query ≠ .causes) :
    diagnostic.alone.answer query = diagnostic.answer query := by
  cases query with
  | causes => exact absurd rfl other
  | message | sourceText | cursor | details | settings | lineStart | hidden => rfl
  | line | column | location | excerpt | report | summary | snapshot => rfl

end Diagnostic

theorem Origin.diagnostic_alone (origin : Origin) :
    origin.alone.diagnostic = origin.diagnostic.alone := by
  cases origin <;> rfl

namespace Session

theorem ask_run_alone (origin : Origin) (steps : List Step) {query : Query}
    (other : query ≠ .causes) :
    (Diagnostic.ask query (run origin.alone.diagnostic steps)).1 =
      (Diagnostic.ask query (run origin.diagnostic steps)).1 := by
  have coherent := origin.coherent_diagnostic
  have same : (run origin.diagnostic.alone steps).fresh =
      (run origin.diagnostic steps).alone.fresh :=
    fresh_run_hom Diagnostic.alone (fun _ => rfl) (fun _ _ => rfl) coherent coherent steps
  rw [ask_run coherent, ask_run origin.alone.coherent_diagnostic, origin.diagnostic_alone,
    ← answer_fresh, same, answer_fresh, Diagnostic.answer_alone _ other]

/-- Questions alone leave a diagnostic as it was but for its stored scan. -/
theorem fresh_run_asks {diagnostic : Diagnostic} (coherent : diagnostic.toFinding.Coherent)
    (queries : List Query) : (run diagnostic (queries.map .ask)).fresh = diagnostic.fresh := by
  have nothing : history (queries.map .ask) = [] := by
    rw [history, List.filterMap_map]
    exact List.filterMap_eq_nil_iff.mpr fun _ _ => rfl
  rw [fresh_run coherent, nothing, List.foldl_nil]

/-- Whatever has been done to a diagnostic since it was made, its causes are the reports of all the
diagnostics beneath it, the nearest first, and then the text of the plain error, if there is one.
The report of each of these is that of its own message, source, cursor and settings, whatever is
asked of it. Every other question about the outer diagnostic is answered as for the same failure
made without a cause. -/
theorem causes_complete_and_frozen (origin : Origin) {errors : List Diagnostic}
    {last : Option Text} (chain : origin.cause.Chain errors last) (steps : List Step) :
    let outer := run origin.diagnostic steps
    (Diagnostic.ask .causes outer).1 =
        .texts (errors.map (·.toFinding.report.render) ++ last.toList) ∧
      (∀ error ∈ errors, ∀ queries : List Query,
        (Diagnostic.ask .report (run error (queries.map .ask))).1 =
          .text error.toFinding.report.render) ∧
      ∀ query, query ≠ .causes →
        (Diagnostic.ask query outer).1 =
          (Diagnostic.ask query (run origin.alone.diagnostic steps)).1 := by
  intro outer
  refine ⟨?_, ?_, ?_⟩
  · rw [ask_run origin.coherent_diagnostic, Diagnostic.answer, cause_run, chain.texts_eq]
  · intro error member queries
    have coherent := chain.coherent error member
    rw [ask_run coherent, ← answer_fresh, fresh_run_asks coherent, answer_fresh]
    rfl
  · intro query other
    exact (ask_run_alone origin steps other).symm

/-- Two diagnostics and a plain error lie beneath. The nearer one quotes a single character, as its
own settings say; the outer one has lost its source and quotes a placeholder of its own. -/
theorem causes_complete_and_frozen_three_deep :
    let inner := run (Origin.causedBy "io".toList "a\nb c".toList 4
      (.plain "disk on fire".toList)).diagnostic [.ask .line]
    let middle := run (Origin.causedBy "m".toList "let y".toList 4 inner.asCause).diagnostic
      [.change (.configure { window := { before := 0, after := 1 } })]
    let origin := Origin.causedBy "o".toList "x".toList 0 middle.asCause
    let steps : List Step :=
      [.change .dropSource, .ask .causes, .change (.configure { placeholder := "?".toList })]
    let outer := run origin.diagnostic steps
    origin.cause.Chain [middle, inner] (some "disk on fire".toList) ∧
      (Diagnostic.ask .causes outer).1 = .texts [
        "[Error: m]\n[Near : \x7b... y ....\x7d]\n             ^\n[Line: 1, Column: 6]".toList,
        "[Error: io]\n[Near : \x7b... b c ....\x7d]\n               ^\n[Line: 2, Column: 3]".toList,
        "disk on fire".toList] ∧
      inner ∈ [middle, inner] ∧
      (Diagnostic.ask .report (run inner [.ask .column])).1 = .text inner.toFinding.report.render ∧
      Query.report ≠ .causes ∧
      (Diagnostic.ask .report outer).1 =
        (Diagnostic.ask .report (run origin.alone.diagnostic steps)).1 := by
  intro inner middle origin steps outer
  have chain : origin.cause.Chain [middle, inner] (some "disk on fire".toList) :=
    .diagnostic _ _ (.diagnostic _ _ (.plain _))
  have member : inner ∈ [middle, inner] := List.mem_cons_of_mem _ (List.mem_singleton_self _)
  obtain ⟨causes, reports, rest⟩ := causes_complete_and_frozen origin chain steps
  exact ⟨chain, causes.trans (by decide +kernel), member, reports inner member [.column],
    by decide, rest .report (by decide)⟩

end Session

end Pinpoint

import Pinpoint.Proofs.Session.LastChange

/-! # Hiding the location hides nothing else

A session in which the location is hidden at some moment is compared with the same session without
that step. Hiding commutes with every other change, so it may as well come last, and then every
answer but those that show the location is the same. The two sessions may fill the stored scan at
different moments, which no answer depends on.
-/

namespace Pinpoint

namespace Report

theorem render_location (message : Text) (excerpt : Excerpt) (location : Location) :
    (Report.mk message excerpt (some location)).render =
      (Report.mk message excerpt none).render ++ "\n[Line: ".toList ++ Text.ofNat location.line ++
        ", Column: ".toList ++ Text.ofNat location.printedColumn ++ "]".toList := by
  have opening : "\n[Line: ".toList = '\n' :: "[Line: ".toList := rfl
  unfold render locationLine
  rw [opening]
  simp only [List.append_nil, List.append_assoc, List.cons_append]

/-- The members of a summary are those of the summary with a location and no others. -/
theorem exists_members_summary (message : Text) (excerpt : Excerpt) (location : Location)
    (details : List Detail) :
    ∃ members,
      (Report.mk message excerpt (some location)).summary details = .object members ∧
      (Json.object members).member? "location".toList = some location.summary ∧
      (Report.mk message excerpt none).summary details =
        .object (members.filter (·.1 ≠ "location".toList)) :=
  ⟨_, rfl, rfl, rfl⟩

end Report

namespace Diagnostic

variable {diagnostic : Diagnostic} {query : Query}

theorem apply_hideLocation_comm (diagnostic : Diagnostic) (change : Change) :
    (diagnostic.apply .hideLocation).apply change =
      (diagnostic.apply change).apply .hideLocation := by
  cases change <;> rfl

/-- Only what shows the location is answered otherwise once it is hidden. -/
theorem answer_hideLocation (other : query ∉ [.location, .hidden, .report, .summary, .snapshot]) :
    (diagnostic.apply .hideLocation).answer query = diagnostic.answer query := by
  cases query with
  | location | hidden | report | summary | snapshot => exact absurd (by decide) other
  | message | sourceText | cursor | details | settings | lineStart => rfl
  | line | column | excerpt | causes => rfl

end Diagnostic

namespace Session

variable {diagnostic : Diagnostic}

/-- Wherever in a session the location is hidden, hiding it at the end comes to the same. -/
theorem fresh_run_hideLocation (coherent : diagnostic.toFinding.Coherent) (front back : List Step) :
    (run diagnostic (front ++ .change .hideLocation :: back)).fresh =
      ((run diagnostic (front ++ back)).apply .hideLocation).fresh := by
  have inserted : run diagnostic (front ++ .change .hideLocation :: back) =
      run ((run diagnostic front).apply .hideLocation) back := List.foldl_append
  have joined : run diagnostic (front ++ back) = run (run diagnostic front) back :=
    List.foldl_append
  have coherent : (run diagnostic front).toFinding.Coherent := coherent_run coherent front
  rw [inserted, joined]
  exact fresh_run_hom (·.apply .hideLocation) (·.fresh_apply .hideLocation)
    Diagnostic.apply_hideLocation_comm coherent (coherent.apply .hideLocation) back

theorem ask_run_hideLocation (coherent : diagnostic.toFinding.Coherent) (front back : List Step)
    (query : Query) :
    (Diagnostic.ask query (run diagnostic (front ++ .change .hideLocation :: back))).1 =
      ((run diagnostic (front ++ back)).apply .hideLocation).answer query := by
  rw [ask_run coherent, ← answer_fresh, fresh_run_hideLocation coherent, answer_fresh]

/-- Hiding the location at any moment of a session leaves it hidden to the end, and every question
that does not show the location is answered as without that step. Where no other step hides it, the
report without that step is the report with it and the line of the location, and the summary without
that step has one member more, the location. -/
theorem hideLocation_hides_nothing_else (origin : Origin) (front back : List Step) :
    let shown := run origin.diagnostic (front ++ back)
    let hidden := run origin.diagnostic (front ++ .change .hideLocation :: back)
    (Diagnostic.ask .location hidden).1 = .location none ∧
    (Diagnostic.ask .hidden hidden).1 = .flag true ∧
    (∀ query, query ∉ [.location, .hidden, .report, .summary, .snapshot] →
      (Diagnostic.ask query hidden).1 = (Diagnostic.ask query shown).1) ∧
    (.change .hideLocation ∉ front ++ back →
      ∃ (line column : Nat) (report : Text) (members : List (Text × Json)),
        (Diagnostic.ask .hidden shown).1 = .flag false ∧
        (Diagnostic.ask .line shown).1 = .number line ∧
        (Diagnostic.ask .column shown).1 = .number column ∧
        (Diagnostic.ask .location shown).1 = .location (some ⟨line, column⟩) ∧
        (Diagnostic.ask .report hidden).1 = .text report ∧
        (Diagnostic.ask .report shown).1 =
          .text (report ++ "\n[Line: ".toList ++ Text.ofNat line ++ ", Column: ".toList ++
            Text.ofNat (column + 1) ++ "]".toList) ∧
        (Diagnostic.ask .summary shown).1 = .text (Json.object members).render ∧
        (Json.object members).member? "location".toList =
          some (.object [("column".toList, .ofNat (column + 1)), ("line".toList, .ofNat line)]) ∧
        (Diagnostic.ask .summary hidden).1 =
          .text (Json.object (members.filter (·.1 ≠ "location".toList))).render) := by
  intro shown hidden
  have coherent := origin.coherent_diagnostic
  have answers : ∀ query, (Diagnostic.ask query shown).1 = shown.answer query :=
    ask_run coherent (front ++ back)
  have hiddenAnswers := ask_run_hideLocation coherent front back
  refine ⟨hiddenAnswers .location, hiddenAnswers .hidden, ?_, ?_⟩
  · intro query other
    rw [hiddenAnswers query, Diagnostic.answer_hideLocation other, answers query]
  · intro never
    have visible : shown.hidden = false := by
      rw [Bool.eq_false_iff, ne_eq, hidden_run coherent, origin.hidden_diagnostic,
        mem_history_iff fun _ => Change.noConfusion]
      simp only [never, Bool.false_eq_true, or_self, not_false_eq_true]
    have location : shown.shownLocation = some shown.position := by
      rw [Finding.shownLocation, visible]
      rfl
    have report : shown.toFinding.report = ⟨shown.message, shown.excerpt, some shown.position⟩ := by
      rw [Finding.report, location]
    obtain ⟨members, full, member, rest⟩ :=
      Report.exists_members_summary shown.message shown.excerpt shown.position shown.details
    refine ⟨shown.position.line, shown.position.column, _, members, ?_, answers .line,
      answers .column, ?_, hiddenAnswers .report, ?_, ?_, member, ?_⟩
    · rw [answers .hidden, Diagnostic.answer, visible]
    · rw [answers .location, Diagnostic.answer, location]
    · rw [answers .report, Diagnostic.answer, report, Report.render_location]
      rfl
    · rw [answers .summary, Diagnostic.answer, report, full]
    · rw [hiddenAnswers .summary, ← rest]
      rfl

/-- Neither a new source and cursor nor new pins bring the location back. -/
theorem hideLocation_hides_nothing_else_pinned :
    let origin := Origin.reported ['m'] [⟨4, 7, none⟩] "ab\ncd".toList 1
    let front : List Step := [.ask .line]
    let back : List Step :=
      [.change (.moveCursor 4), .change (.pinColumn 8), .ask .report, .change (.configure {})]
    let shown := run origin.diagnostic (front ++ back)
    let hidden := run origin.diagnostic (front ++ .change .hideLocation :: back)
    .change .hideLocation ∉ front ++ back ∧ Query.excerpt ∉ [.location, .hidden, .report, .summary,
      .snapshot] ∧ (Diagnostic.ask .location hidden).1 = .location none ∧
      (Diagnostic.ask .excerpt hidden).1 = (Diagnostic.ask .excerpt shown).1 ∧
      ∃ report, (Diagnostic.ask .report hidden).1 = .text report ∧
        (Diagnostic.ask .report shown).1 = .text (report ++ "\n[Line: 4, Column: 9]".toList) := by
  intro origin front back shown hidden
  have never : .change .hideLocation ∉ front ++ back := by decide
  have other : Query.excerpt ∉ [.location, .hidden, .report, .summary, .snapshot] := by decide
  obtain ⟨none, -, same, rest⟩ := hideLocation_hides_nothing_else origin front back
  obtain ⟨line, column, report, -, -, lineAnswer, columnAnswer, -, short, long, -⟩ := rest never
  cases lineAnswer
  cases columnAnswer
  refine ⟨never, other, none, same .excerpt other, report, short, ?_⟩
  rw [long]
  simp only [List.append_assoc]
  rfl

end Session

end Pinpoint

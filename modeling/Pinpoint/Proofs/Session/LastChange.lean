import Mathlib.Data.List.Induction
import Pinpoint.Proofs.Session.Provenance

/-! # The last change to each field decides

Two sessions on one diagnostic whose last change to each field is the same leave diagnostics that no
later session can tell apart. The two may differ in the stored scan: what the one has asked and the
other has not may have filled it. So they are related by being the same without it, and coherent,
and every step keeps that relation and gives the same entry for both.
-/

namespace Pinpoint

/-! ## One field at a time -/

namespace Diagnostic

/-- Two diagnostics hold the same in a field. -/
def AgreeOn (slot : Slot) (first second : Diagnostic) : Prop :=
  match slot with
  | .source => first.source = second.source
  | .cursor => first.cursor = second.cursor
  | .line => first.pinnedLine = second.pinnedLine
  | .column => first.pinnedColumn = second.pinnedColumn
  | .details => first.details = second.details
  | .hidden => first.hidden = second.hidden
  | .settings => first.settings = second.settings
  | .lineStart => first.lineStart = second.lineStart

variable {slot : Slot} {first second third : Diagnostic} {change : Change}

theorem AgreeOn.refl (diagnostic : Diagnostic) : diagnostic.AgreeOn slot diagnostic := by
  cases slot <;> rfl

theorem AgreeOn.symm (agree : first.AgreeOn slot second) : second.AgreeOn slot first := by
  cases slot <;> exact Eq.symm agree

theorem AgreeOn.trans (agree : first.AgreeOn slot second) (next : second.AgreeOn slot third) :
    first.AgreeOn slot third := by
  cases slot <;> exact Eq.trans agree next

/-- Whatever was in the field before, a change to it leaves the same there. -/
theorem agreeOn_apply_apply (first second : Diagnostic) (change : Change) :
    (first.apply change).AgreeOn change.slot (second.apply change) := by
  cases change <;> rfl

/-- A change leaves the other fields alone. -/
theorem agreeOn_apply_of_ne (diagnostic : Diagnostic) (other : change.slot ≠ slot) :
    (diagnostic.apply change).AgreeOn slot diagnostic := by
  revert other
  cases change <;> cases slot <;> simp [Change.slot, AgreeOn, Diagnostic.apply, Finding.apply]

/-- No other field is written, so a diagnostic is what it holds in its fields and was made with. -/
theorem eq_of_agreeOn (agree : ∀ slot, first.AgreeOn slot second)
    (message : first.message = second.message) (cause : first.cause = second.cause)
    (scan : first.scan = second.scan) : first = second := by
  obtain ⟨⟨_, source, cursor, line, column, hidden, _, details, lineStart, settings⟩, _⟩ := first
  obtain rfl : source = second.source := agree .source
  obtain rfl : cursor = second.cursor := agree .cursor
  obtain rfl : line = second.pinnedLine := agree .line
  obtain rfl : column = second.pinnedColumn := agree .column
  obtain rfl : hidden = second.hidden := agree .hidden
  obtain rfl : details = second.details := agree .details
  obtain rfl : lineStart = second.lineStart := agree .lineStart
  obtain rfl : settings = second.settings := agree .settings
  cases message
  cases cause
  cases scan
  rfl

end Diagnostic

namespace Session

section

variable {slot : Slot} {change : Change}

theorem lastChange_concat_of_eq (changes : List Change) (writes : change.slot = slot) :
    lastChange slot (changes ++ [change]) = some change := by
  simp only [lastChange, List.filter_append, List.filter_cons, writes, decide_true, ↓reduceIte,
    List.filter_nil, List.getLast?_concat]

theorem lastChange_concat_of_ne (changes : List Change) (other : change.slot ≠ slot) :
    lastChange slot (changes ++ [change]) = lastChange slot changes := by
  simp only [lastChange, List.filter_append, List.filter_cons, other, decide_false,
    Bool.false_eq_true, ↓reduceIte, List.filter_nil, List.append_nil]

/-- In each field, changes come to what the last one of them to the field does alone. -/
theorem agreeOn_foldl_apply (slot : Slot) (diagnostic : Diagnostic) (changes : List Change) :
    (changes.foldl Diagnostic.apply diagnostic).AgreeOn slot
      ((lastChange slot changes).elim diagnostic diagnostic.apply) := by
  induction changes using List.reverseRecOn with
  | nil => exact .refl diagnostic
  | append_singleton changes change ih =>
    rw [List.foldl_append, List.foldl_cons, List.foldl_nil]
    by_cases writes : change.slot = slot
    · rw [lastChange_concat_of_eq changes writes]
      subst writes
      exact Diagnostic.agreeOn_apply_apply ..
    · rw [lastChange_concat_of_ne changes writes]
      exact (Diagnostic.agreeOn_apply_of_ne _ writes).trans ih

/-- What no change writes stays. -/
theorem foldl_apply_eq {α : Type} (observe : Diagnostic → α)
    (each : ∀ diagnostic change, observe (diagnostic.apply change) = observe diagnostic)
    (diagnostic : Diagnostic) (changes : List Change) :
    observe (changes.foldl Diagnostic.apply diagnostic) = observe diagnostic := by
  induction changes generalizing diagnostic with
  | nil => rfl
  | cons change changes ih => rw [List.foldl_cons, ih, each]

end

/-! ## Diagnostics that differ in the stored scan -/

/-- Two diagnostics are the same but for the stored scan, and what each of them has stored is
right. -/
structure Alike (first second : Diagnostic) : Prop where
  fresh_eq : first.fresh = second.fresh
  coherent_left : first.toFinding.Coherent
  coherent_right : second.toFinding.Coherent

/-- A computation gives one value for related diagnostics and leaves them related. -/
def Respects {α : Type} (related : Diagnostic → Diagnostic → Prop)
    (computation : StateM Diagnostic α) : Prop :=
  ∀ first second, related first second →
    (computation first).1 = (computation second).1 ∧
      related (computation first).2 (computation second).2

section

variable {α β : Type} {related : Diagnostic → Diagnostic → Prop}
  {computation : StateM Diagnostic α} {next : α → StateM Diagnostic β}

theorem Respects.of_pure (value : α) : Respects related (pure value : StateM Diagnostic α) :=
  fun _ _ holds => ⟨rfl, holds⟩

theorem Respects.bind (respects : Respects related computation)
    (rest : ∀ value, Respects related (next value)) : Respects related (computation >>= next) := by
  intro first second holds
  obtain ⟨same, after⟩ := respects first second holds
  have second_eq : (computation >>= next) second =
      next (computation first).1 (computation second).2 := by
    rw [same]
    rfl
  rw [second_eq]
  exact rest (computation first).1 _ _ after

theorem Respects.mapM {γ : Type} {each : γ → StateM Diagnostic α}
    (respects : ∀ item, Respects related (each item)) (items : List γ) :
    Respects related (items.mapM each) := by
  induction items with
  | nil => exact .of_pure []
  | cons item items ih =>
    rw [List.mapM_cons]
    exact (respects item).bind fun value => ih.bind fun values => .of_pure (value :: values)

end

theorem answer_fresh (diagnostic : Diagnostic) (query : Query) :
    diagnostic.fresh.answer query = diagnostic.answer query := by
  cases query <;> rfl

theorem respects_ask (query : Query) : Respects Alike (Diagnostic.ask query) := by
  intro first second alike
  have left := Diagnostic.answers_ask alike.coherent_left query
  have right := Diagnostic.answers_ask alike.coherent_right query
  refine ⟨?_, ?_, left.coherent, right.coherent⟩
  · rw [left.answer_eq, right.answer_eq, ← answer_fresh, alike.fresh_eq, answer_fresh]
  · rw [left.fresh_eq, right.fresh_eq, alike.fresh_eq]

theorem respects_step (next : Step) : Respects Alike (step next) := by
  intro first second alike
  refine ⟨?_, ?_, coherent_advance alike.coherent_left next,
    coherent_advance alike.coherent_right next⟩
  · exact entry_eq_of_answers fun query _ => (respects_ask query first second alike).1
  · have left := fresh_advance alike.coherent_left next
    have right := fresh_advance alike.coherent_right next
    rw [advance] at left right
    rw [left, right, alike.fresh_eq]

theorem respects_reveal (entry : Entry) : Respects Alike (reveal entry) := by
  cases entry with
  | changed => exact (respects_ask .snapshot).bind fun _ => .of_pure _
  | rejected problem => exact .of_pure _
  | answered answer => exact .of_pure _

/-- No session tells apart what differs in the stored scan only. -/
theorem Alike.indistinguishable {first second : Diagnostic} (alike : Alike first second) :
    Indistinguishable first second := by
  intro quiet steps
  have finishes (entry : Entry) : Respects Alike ((if quiet then pure else reveal) entry) := by
    cases quiet with
    | true => exact .of_pure entry
    | false => exact respects_reveal entry
  have entries : Respects Alike (transcript quiet steps) :=
    (finishes .changed).bind fun opening =>
      (Respects.mapM (fun next => (respects_step next).bind finishes) steps).bind fun others =>
        .of_pure (opening :: others)
  exact (entries first second alike).1

/-! ## Two sessions on one diagnostic -/

/-- What no change writes is after a run as it was before. -/
theorem observe_fresh_run {α : Type} {diagnostic : Diagnostic}
    (coherent : diagnostic.toFinding.Coherent) (observe : Diagnostic → α)
    (each : ∀ diagnostic change, observe (diagnostic.apply change) = observe diagnostic)
    (steps : List Step) : observe (run diagnostic steps).fresh = observe diagnostic.fresh := by
  rw [fresh_run coherent]
  exact foldl_apply_eq observe each _ _

theorem alike_run {diagnostic : Diagnostic} (coherent : diagnostic.toFinding.Coherent)
    {first second : List Step}
    (same : ∀ slot, lastChange slot (history first) = lastChange slot (history second)) :
    Alike (run diagnostic first) (run diagnostic second) where
  fresh_eq := by
    have message (diagnostic : Diagnostic) (change : Change) :
        (diagnostic.apply change).message = diagnostic.message := by cases change <;> rfl
    have messages := observe_fresh_run coherent (·.message) message
    have causes := observe_fresh_run coherent (·.cause) fun _ _ => rfl
    refine Diagnostic.eq_of_agreeOn (fun slot => ?_) ((messages first).trans (messages second).symm)
      ((causes first).trans (causes second).symm) rfl
    have left := agreeOn_foldl_apply slot diagnostic.fresh (history first)
    have right := agreeOn_foldl_apply slot diagnostic.fresh (history second)
    rw [← fresh_run coherent] at left right
    rw [same slot] at left
    exact left.trans right.symm
  coherent_left := coherent_run coherent first
  coherent_right := coherent_run coherent second

theorem lastChange_history_append (slot : Slot) (first second : List Step) :
    lastChange slot (history (first ++ second)) =
      (lastChange slot (history second)).or (lastChange slot (history first)) := by
  rw [lastChange, history, List.filterMap_append, List.filter_append, List.getLast?_append]
  rfl

theorem lastChange_history_singleton {slot : Slot} {next : Step} (other : slot ∉ next.slot?) :
    lastChange slot (history [next]) = none := by
  cases made : next.change? with
  | none => rw [history, List.filterMap_cons_none made]; rfl
  | some change =>
    have differs : ¬ change.slot = slot := by
      intro writes
      apply other
      rw [Step.slot?, made, Option.map_some, writes]
      rfl
    rw [history, List.filterMap_cons_some made, List.filterMap_nil]
    exact lastChange_concat_of_ne [] differs

/-- What has the same last changes comes to the same between any other steps. -/
theorem alike_run_between {diagnostic : Diagnostic} (coherent : diagnostic.toFinding.Coherent)
    {first second : List Step}
    (same : ∀ slot, lastChange slot (history first) = lastChange slot (history second))
    (front back : List Step) :
    Alike (run diagnostic (front ++ first ++ back)) (run diagnostic (front ++ second ++ back)) := by
  refine alike_run coherent fun slot => ?_
  simp only [lastChange_history_append, same slot]

theorem lastChange_history_swap {one other : Step} (apart : ∀ slot ∈ one.slot?, slot ∉ other.slot?)
    (slot : Slot) :
    lastChange slot (history [one, other]) = lastChange slot (history [other, one]) := by
  have forwards := lastChange_history_append slot [one] [other]
  have backwards := lastChange_history_append slot [other] [one]
  rw [List.singleton_append] at forwards backwards
  rw [forwards, backwards]
  by_cases writes : slot ∈ one.slot?
  · rw [lastChange_history_singleton (apart slot writes), Option.or_none, Option.none_or]
  · rw [lastChange_history_singleton writes, Option.or_none, Option.none_or]

/-- Two sessions on one diagnostic that agree, for every field, on the last change to it leave
diagnostics that no later session tells apart. So steps that write different fields may be taken in
either order, and a question or a document that cannot be used may be left out anywhere. -/
theorem last_change_decides (origin : Origin) :
    (∀ first second,
      (∀ slot, lastChange slot (history first) = lastChange slot (history second)) →
      Indistinguishable (run origin.diagnostic first) (run origin.diagnostic second)) ∧
    (∀ front one other back, (∀ slot ∈ one.slot?, slot ∉ other.slot?) →
      Indistinguishable (run origin.diagnostic (front ++ [one, other] ++ back))
        (run origin.diagnostic (front ++ [other, one] ++ back))) ∧
    (∀ front query back,
      Indistinguishable (run origin.diagnostic (front ++ [.ask query] ++ back))
        (run origin.diagnostic (front ++ back))) ∧
    (∀ front document problem back, Settings.ofDocument document = .error problem →
      Indistinguishable (run origin.diagnostic (front ++ [.load document] ++ back))
        (run origin.diagnostic (front ++ back))) := by
  have coherent := origin.coherent_diagnostic
  have leftOut {next : Step} (changes : next.change? = none) (front back : List Step) :
      Indistinguishable (run origin.diagnostic (front ++ [next] ++ back))
        (run origin.diagnostic (front ++ back)) := by
    have nothing : history [next] = history [] := List.filterMap_cons_none changes
    have dropped := alike_run_between coherent (fun slot => congrArg (lastChange slot) nothing)
      front back
    rw [List.append_nil] at dropped
    exact dropped.indistinguishable
  refine ⟨?_, ?_, ?_, ?_⟩
  · intro first second same
    exact (alike_run coherent same).indistinguishable
  · intro front one other back apart
    exact (alike_run_between coherent (lastChange_history_swap apart) front back).indistinguishable
  · intro front query back
    exact leftOut rfl front back
  · intro front document problem back rejected
    have unusable : Step.change? (.load document) = none := by
      rw [Step.change?, rejected]
      rfl
    exact leftOut unusable front back

/-- Reading in between, writing a field twice and loading a document that has an empty window leave
no trace. -/
theorem last_change_decides_after_reads :
    let origin := Origin.reported ['m'] [⟨2, 1, none⟩] "a\nb".toList 0
    let document := "[window]\nbefore = 0\nafter = 0".toList
    let first : List Step :=
      [.change (.moveCursor 1), .ask .report, .load document, .change (.moveCursor 2),
        .change (.pinLine 7)]
    let second : List Step := [.change (.pinLine 7), .ask .line, .change (.moveCursor 2)]
    (∀ slot, lastChange slot (history first) = lastChange slot (history second)) ∧
      Indistinguishable (run origin.diagnostic first) (run origin.diagnostic second) ∧
      (∀ slot ∈ (Step.change (.moveCursor 2)).slot?, slot ∉ (Step.change (.pinLine 7)).slot?) ∧
      Indistinguishable
        (run origin.diagnostic ([] ++ [.change (.moveCursor 2), .change (.pinLine 7)] ++ []))
        (run origin.diagnostic ([] ++ [.change (.pinLine 7), .change (.moveCursor 2)] ++ [])) ∧
      Settings.ofDocument document = .error (.invalid .emptyWindow) ∧
      Indistinguishable (run origin.diagnostic ([] ++ [.load document] ++ []))
        (run origin.diagnostic ([] ++ [])) := by
  intro origin document first second
  have made : history first = [.moveCursor 1, .moveCursor 2, .pinLine 7] := by decide +kernel
  have same : ∀ slot, lastChange slot (history first) = lastChange slot (history second) := by
    intro slot
    rw [made]
    cases slot <;> rfl
  have apart : ∀ slot ∈ (Step.change (.moveCursor 2)).slot?,
      slot ∉ (Step.change (.pinLine 7)).slot? := by
    rintro _ ⟨⟩
    decide
  have rejected : Settings.ofDocument document = .error (.invalid .emptyWindow) := by
    decide +kernel
  obtain ⟨decided, swapped, -, ignored⟩ := last_change_decides origin
  exact ⟨same, decided first second same, apart, swapped [] _ _ [] apart, rejected,
    ignored [] document _ [] rejected⟩

end Session

end Pinpoint

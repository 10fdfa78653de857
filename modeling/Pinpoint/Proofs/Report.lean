import Mathlib.Data.List.Basic
import Pinpoint.Proofs.Excerpt.Caret
import Pinpoint.Report

/-! # The lines of a report

A report is its body and, where it shows a location, the end that names it. A report whose message
and excerpt hold no line feed has a line for each of them, one for the caret and, where there is a
location, one for that.
-/

namespace Pinpoint

namespace Report

/-- The lines of a report but the one of its location. -/
def body (report : Report) : Text :=
  messageLine report.message ++ '\n' :: excerptLine report.excerpt.text ++
    '\n' :: caretLine report.excerpt.caretOffset

/-- The line of a location, where there is one, behind the line feed that starts it. -/
def locationEnd : Option Location → Text
  | none => []
  | some location => '\n' :: locationLine location.line location.printedColumn

theorem render_eq_body_append (report : Report) :
    report.render = report.body ++ locationEnd report.location := by
  obtain ⟨message, excerpt, location⟩ := report
  cases location <;> rfl

section

variable {message text : Text}

theorem lineFeed_not_mem_messageLine (plain : '\n' ∉ message) : '\n' ∉ messageLine message := by
  unfold messageLine
  simp only [List.mem_append, plain, or_false]
  decide

theorem lineFeed_not_mem_excerptLine (plain : '\n' ∉ text) : '\n' ∉ excerptLine text := by
  unfold excerptLine
  simp only [List.mem_append, plain, or_false]
  decide

theorem lineFeed_not_mem_caretLine (caretOffset : Nat) : '\n' ∉ caretLine caretOffset := by
  unfold caretLine Text.run
  simp only [List.mem_append, List.mem_replicate, List.mem_singleton, Char.reduceEq, and_false,
    or_self, not_false_eq_true]

theorem lineFeed_not_mem_locationLine (line printedColumn : Nat) :
    '\n' ∉ locationLine line printedColumn := by
  unfold locationLine
  simp only [List.mem_append, Text.lineFeed_not_mem_ofNat, or_false]
  decide

/-- What stands in a report behind the line of the excerpt. -/
private theorem lines_caretLine (caretOffset : Nat) (location : Option Location) :
    (caretLine caretOffset ++ locationEnd location).lines =
      caretLine caretOffset ::
        (location.map fun location =>
          locationLine location.line location.printedColumn).toList := by
  have caret := Text.lines_of_plain (lineFeed_not_mem_caretLine caretOffset)
  cases location with
  | none =>
    rw [locationEnd, List.append_nil, caret]
    rfl
  | some location =>
    have last := Text.lines_of_plain
      (lineFeed_not_mem_locationLine location.line location.printedColumn)
    rw [locationEnd, Text.lines_append_cons, caret, last]
    rfl

/-- The lines of a report are its parts, in their order. -/
theorem lines_render (report : Report) (message : '\n' ∉ report.message)
    (text : '\n' ∉ report.excerpt.text) :
    report.render.lines =
      messageLine report.message :: excerptLine report.excerpt.text ::
        caretLine report.excerpt.caretOffset ::
          (report.location.map fun location =>
            locationLine location.line location.printedColumn).toList := by
  have first := Text.lines_of_plain (lineFeed_not_mem_messageLine message)
  have second := Text.lines_of_plain (lineFeed_not_mem_excerptLine text)
  calc report.render.lines
      = (messageLine report.message ++ '\n' :: (excerptLine report.excerpt.text ++
          '\n' :: (caretLine report.excerpt.caretOffset ++ locationEnd report.location))).lines := by
        rw [render_eq_body_append, body]
        simp only [List.append_assoc, List.cons_append]
    _ = _ := by
        rw [Text.lines_append_cons, first, Text.lines_append_cons, second, lines_caretLine]
        rfl

end

end Report

/-! ## Reports are unambiguous

Nothing in a report is escaped, and a message may hold whole lines that look like those of a report.
The parts can be told all the same, from the end of the text: the last character says whether there
is a line for the location, that line and the one of the caret hold no line feed, and neither does
the line of the excerpt, so whatever stands before these lines is the line of the message.
-/

/-- Whatever is quoted by an excerpt, it is one line. -/
theorem Excerpt.lineFeed_not_mem_text_extract (source : Option Text) (cursor : Nat)
    (window : Window) : '\n' ∉ (extract source cursor window).text := by
  match source with
  | none | some [] => exact (by decide : '\n' ∉ noSource)
  | some (c :: rest) => exact lineFeed_not_mem_text_ofSource (c :: rest) cursor window

namespace Report

/-! ### One line -/

theorem messageLine_injective {first second : Text}
    (same : messageLine first = messageLine second) :
    first = second :=
  List.append_cancel_left (List.append_cancel_right same)

theorem excerptLine_injective {first second : Text}
    (same : excerptLine first = excerptLine second) :
    first = second :=
  List.append_cancel_left (List.append_cancel_right same)

theorem caretLine_injective {first second : Nat} (same : caretLine first = caretLine second) :
    first = second := by
  have lengths := congrArg List.length same
  simp only [caretLine, List.length_append, Text.length_run] at lengths
  omega

/-- The comma behind the line is the only one, so the two numbers are told apart. -/
theorem locationLine_injective {line column otherLine otherColumn : Nat}
    (same : locationLine line column = locationLine otherLine otherColumn) :
    line = otherLine ∧ column = otherColumn := by
  have parts (line column : Nat) : locationLine line column =
      "[Line: ".toList ++ (Text.ofNat line ++
        ',' :: (" Column: ".toList ++ (Text.ofNat column ++ "]".toList))) := by
    have separator : ", Column: ".toList = ',' :: " Column: ".toList := rfl
    unfold locationLine
    rw [separator]
    simp only [List.append_assoc, List.cons_append]
  have comma (n : Nat) : ',' ∉ Text.ofNat n := Text.not_mem_ofNat (by decide)
  rw [parts, parts] at same
  have alone : ',' ∉ " Column: ".toList ++ (Text.ofNat otherColumn ++ "]".toList) := by
    simp only [List.mem_append, comma, false_or]
    decide
  obtain ⟨lines, -, rest⟩ := (List.append_cons_inj_of_notMem (comma otherLine) alone).mp
    (List.append_cancel_left same).symm
  have columns := List.append_cancel_right (List.append_cancel_left rest)
  exact ⟨(Text.ofNat_injective lines).symm, (Text.ofNat_injective columns).symm⟩

/-! ### All lines -/

theorem body_injective {first second : Report} (plain : '\n' ∉ first.excerpt.text)
    (otherPlain : '\n' ∉ second.excerpt.text) (same : first.body = second.body) :
    first.message = second.message ∧ first.excerpt.text = second.excerpt.text ∧
      first.excerpt.caretOffset = second.excerpt.caretOffset := by
  obtain ⟨above, carets⟩ := Text.append_lineFeed_inj (lineFeed_not_mem_caretLine _)
    (lineFeed_not_mem_caretLine _) same
  obtain ⟨messages, excerpts⟩ := Text.append_lineFeed_inj (lineFeed_not_mem_excerptLine plain)
    (lineFeed_not_mem_excerptLine otherPlain) above
  exact ⟨messageLine_injective messages, excerptLine_injective excerpts,
    caretLine_injective carets⟩

theorem getLast?_body (report : Report) : report.body.getLast? = some '^' := by
  rw [body, caretLine, ← List.cons_append, ← List.append_assoc, List.getLast?_concat]

theorem getLast?_append_locationEnd (front : Text) (location : Location) :
    (front ++ locationEnd (some location)).getLast? = some ']' := by
  obtain ⟨start, ends⟩ : ∃ start,
      locationLine location.line location.printedColumn = start ++ [']'] := ⟨_, rfl⟩
  rw [locationEnd, ends, ← List.cons_append, ← List.append_assoc, List.getLast?_concat]

/-- The report of a hidden location ends with the caret, and the others with a bracket. -/
theorem body_ne_append_locationEnd (report : Report) (front : Text) (location : Location) :
    report.body ≠ front ++ locationEnd (some location) := by
  intro same
  have last := getLast?_append_locationEnd front location
  rw [← same, getLast?_body] at last
  cases last

theorem append_locationEnd_inj {front otherFront : Text} {location otherLocation : Location}
    (same : front ++ locationEnd (some location) =
      otherFront ++ locationEnd (some otherLocation)) :
    front = otherFront ∧ location = otherLocation := by
  obtain ⟨fronts, lasts⟩ := Text.append_lineFeed_inj (lineFeed_not_mem_locationLine _ _)
    (lineFeed_not_mem_locationLine _ _) same
  obtain ⟨lines, columns⟩ := locationLine_injective lasts
  refine ⟨fronts, ?_⟩
  obtain ⟨line, column⟩ := location
  obtain ⟨otherLine, otherColumn⟩ := otherLocation
  cases lines
  cases columns
  rfl

/-- Two texts of reports are the same only if the messages, the excerpts, the places of the carets
and the locations are, whatever the messages hold. Each excerpt must be one line, as all excerpts
of a source are. -/
theorem render_eq_render_iff (first second : Report) (plain : '\n' ∉ first.excerpt.text)
    (otherPlain : '\n' ∉ second.excerpt.text) :
    (first.render = second.render ↔
      first.message = second.message ∧ first.excerpt.text = second.excerpt.text ∧
        first.excerpt.caretOffset = second.excerpt.caretOffset ∧
        first.location = second.location) ∧
    ∀ source cursor window, '\n' ∉ (Excerpt.extract source cursor window).text := by
  refine ⟨⟨?_, ?_⟩, Excerpt.lineFeed_not_mem_text_extract⟩
  · intro same
    rw [render_eq_body_append, render_eq_body_append] at same
    cases shown : first.location with
    | none =>
      cases otherShown : second.location with
      | none =>
        rw [shown, otherShown] at same
        obtain ⟨messages, excerpts, carets⟩ :=
          body_injective plain otherPlain (List.append_cancel_right same)
        exact ⟨messages, excerpts, carets, rfl⟩
      | some otherLocation =>
        rw [shown, otherShown, locationEnd, List.append_nil] at same
        exact absurd same (first.body_ne_append_locationEnd _ _)
    | some location =>
      cases otherShown : second.location with
      | none =>
        rw [shown, otherShown, locationEnd, List.append_nil] at same
        exact absurd same.symm (second.body_ne_append_locationEnd _ _)
      | some otherLocation =>
        rw [shown, otherShown] at same
        obtain ⟨bodies, locations⟩ := append_locationEnd_inj same
        obtain ⟨messages, excerpts, carets⟩ := body_injective plain otherPlain bodies
        exact ⟨messages, excerpts, carets, congrArg some locations⟩
  · rintro ⟨messages, excerpts, carets, locations⟩
    simp only [render, messages, excerpts, carets, locations]

/-- A message that holds all lines of another report, up to the last bracket, does not pass for
it. -/
theorem render_eq_render_iff_imitation :
    let first : Report := ⟨['m'], ⟨['x'], some 0⟩, some ⟨1, 1⟩⟩
    let second : Report :=
      ⟨"m]\n[Near : \x7b... x ....\x7d]\n             ^\n[Line: 1, Column: 2".toList,
        ⟨['x'], some 0⟩, none⟩
    '\n' ∉ first.excerpt.text ∧ '\n' ∉ second.excerpt.text ∧
      first.render <+: second.render ∧ first.render ≠ second.render := by
  intro first second
  have plain : '\n' ∉ first.excerpt.text := by decide
  have otherPlain : '\n' ∉ second.excerpt.text := by decide
  refine ⟨plain, otherPlain, by decide, fun same => ?_⟩
  obtain ⟨messages, -⟩ := (render_eq_render_iff first second plain otherPlain).1.mp same
  exact absurd messages (by decide)

end Report

end Pinpoint

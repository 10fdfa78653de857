import Pinpoint.Checked.Excerpt
import Pinpoint.Diagnostic

/-! # Checked reads of a finding

Every read of a finding again, from checked excerpts and with checked lines, columns and indents.
-/

namespace Pinpoint.Checked

/-! ## Locations -/

def advance (location : Location) (c : Char) : Checked Location := do
  if c = '\r' then return location
  else if c = '\n' then return ⟨← add location.line 1, 0⟩
  else return ⟨location.line, ← add location.column 1⟩

/-- The number of characters scanned and the location after them, after one more character. -/
def scanNext (progress : Nat × Location) (c : Char) : Checked (Nat × Location) := do
  return (← add progress.1 1, ← advance progress.2 c)

def ofCursor (source : Text) (cursor : Nat) : Checked Location := do
  return (← (source.take cursor).foldlM scanNext (0, Location.start)).2

def printedColumn (location : Location) : Checked Nat := add location.column 1

/-! ## Reports -/

def caretLine (caretOffset : Nat) : Checked Text := do
  return Text.run ' ' (← add Report.opening.length caretOffset) ++ ['^']

/-- The line of a location, behind the line feed that it follows. -/
def locationLine : Option Location → Checked Text
  | none => return []
  | some location =>
    return '\n' :: Report.locationLine location.line (← printedColumn location)

def render (report : Report) : Checked Text := do
  let caret ← caretLine report.excerpt.caretOffset
  let location ← locationLine report.location
  return Report.messageLine report.message ++
    '\n' :: Report.excerptLine report.excerpt.text ++ '\n' :: caret ++ location

/-- The member of a summary that says the location. -/
def locationMember : Option Location → Checked (List (Text × Json))
  | none => return []
  | some location => do
    let column ← printedColumn location
    return [("location".toList,
      .object [("column".toList, .ofNat column), ("line".toList, .ofNat location.line)])]

def summary (report : Report) (details : List Detail) : Checked Json := do
  let location ← locationMember report.location
  return .object <|
    [("caret".toList, .ofNat report.excerpt.caretOffset),
      ("errors".toList, .array (details.map Detail.summary))] ++ location ++
    [("message".toList, .string report.message), ("near".toList, .string report.excerpt.text)]

/-! ## Reads -/

abbrev Read (α : Type) := StateT Finding (Except Fault) α

def sourceLocation (finding : Finding) : Checked Location :=
  match finding.presentSource with
  | none => return .unresolved
  | some source => ofCursor source finding.cursor

def excerpt (finding : Finding) : Checked Excerpt :=
  match finding.presentSource with
  | none => return .placeholder finding.settings.placeholder
  | some source => ofSource source finding.cursor finding.settings.window

def readScan : Read Location := fun finding =>
  match finding.scan with
  | some location => return (location, finding)
  | none => do
    let location ← sourceLocation finding
    return (location, { finding with scan := some location })

def readPosition : Read Location := do
  let finding ← get
  match finding.pinnedLine, finding.pinnedColumn with
  | some line, some column => return ⟨line, column⟩
  | line, column =>
    let scan ← readScan
    return ⟨line.getD scan.line, column.getD scan.column⟩

def readLine : Read Nat := return (← readPosition).line

def readColumn : Read Nat := return (← readPosition).column

def readLocation : Read (Option Location) := do
  if (← get).hidden then return none
  else return some (← readPosition)

def readExcerpt : Read Excerpt := do return ← excerpt (← get)

def readReport : Read Report := do
  let location ← readLocation
  let excerpt ← readExcerpt
  return { message := (← get).message, excerpt, location }

def readReportText : Read Text := do return ← render (← readReport)

def readSummary : Read Json := do
  let report ← readReport
  return ← summary report (← get).details

end Pinpoint.Checked

import Pinpoint.Report
import Pinpoint.Settings

/-! # Findings

A finding is what a diagnostic says of one failure: a message, the source with a cursor in it, and
how they are to be shown. The line and the column of a finding come from one of three places, each
on its own: a pinned value, else the scan of the source up to the cursor, else the unresolved
location. The scan is kept for later reads until the source or the cursor changes, so reading a
finding may store a scan in it and changes nothing else.
-/

namespace Pinpoint

/-- One failure, anchored at a cursor. -/
structure Finding where
  message : Text
  source : Option Text
  /-- The offset of the failure, which may lie past the end of the source. -/
  cursor : Nat
  pinnedLine : Option Nat := none
  pinnedColumn : Option Nat := none
  hidden : Bool := false
  /-- The scan of the present source and cursor, once it has been needed. -/
  scan : Option Location := none
  details : List Detail := []
  /-- Where the last line starts, as told; nothing depends on it. -/
  lineStart : Nat := 0
  settings : Settings := {}
  deriving DecidableEq, Repr

/-- A change to a finding. Details that are replaced leave the location as it is. -/
inductive Change where
  | giveSource (source : Text)
  | dropSource
  | moveCursor (cursor : Nat)
  | pinLine (line : Nat)
  | pinColumn (column : Nat)
  | tellLineStart (offset : Nat)
  | replaceDetails (details : List Detail)
  | hideLocation
  | configure (settings : Settings)
  deriving DecidableEq, Repr

namespace Finding

def inSource (message source : Text) (cursor : Nat) : Finding :=
  { message, source := some source, cursor }

def sourceless (message : Text) (cursor : Nat) : Finding :=
  { message, source := none, cursor }

/-- A failure that a parser reported; the first detail pins the line and the column. -/
def reported (message : Text) (details : List Detail) (source : Text) (cursor : Nat) : Finding :=
  { inSource message source cursor with
    pinnedLine := details.head?.map Detail.row
    pinnedColumn := details.head?.map Detail.col
    details }

/-- The finding after a change; a new source or cursor makes the stored scan void. -/
def apply (finding : Finding) : Change → Finding
  | .giveSource source => { finding with source := some source, scan := none }
  | .dropSource => { finding with source := none, scan := none }
  | .moveCursor cursor => { finding with cursor, scan := none }
  | .pinLine line => { finding with pinnedLine := some line }
  | .pinColumn column => { finding with pinnedColumn := some column }
  | .tellLineStart lineStart => { finding with lineStart }
  | .replaceDetails details => { finding with details }
  | .hideLocation => { finding with hidden := true }
  | .configure settings => { finding with settings }

/-- The source where it has characters; an empty source is as good as none. -/
def presentSource (finding : Finding) : Option Text := finding.source.filter (· ≠ [])

/-- The location that a scan of the present source and cursor finds. -/
def sourceLocation (finding : Finding) : Location :=
  match finding.presentSource with
  | none => .unresolved
  | some source => .ofCursor source finding.cursor

/-- The excerpt at the cursor, or the placeholder of the settings where there is no source. -/
def excerpt (finding : Finding) : Excerpt :=
  match finding.presentSource with
  | none => .placeholder finding.settings.placeholder
  | some source => .extract (some source) finding.cursor finding.settings.window

/-- A read of a finding, which may store the scan in it. -/
abbrev Read (α : Type) := StateM Finding α

/-- The stored scan; where none is stored, the source is scanned and the scan is stored. -/
def readScan : Read Location := fun finding =>
  match finding.scan with
  | some location => (location, finding)
  | none => (finding.sourceLocation, { finding with scan := some finding.sourceLocation })

/-- The line and the column, each pinned or scanned; nothing is scanned where both are pinned. -/
def readPosition : Read Location := do
  let finding ← get
  match finding.pinnedLine, finding.pinnedColumn with
  | some line, some column => return ⟨line, column⟩
  | line, column =>
    let scan ← readScan
    return ⟨line.getD scan.line, column.getD scan.column⟩

def readLine : Read Nat := return (← readPosition).line

/-- The column of the finding, as stored. -/
def readColumn : Read Nat := return (← readPosition).column

/-- The location that a report shows. -/
def readLocation : Read (Option Location) := do
  if (← get).hidden then return none
  else return some (← readPosition)

def readReport : Read Report := do
  let location ← readLocation
  let finding ← get
  return { message := finding.message, excerpt := finding.excerpt, location }

def readReportText : Read Text := return (← readReport).render

end Finding

end Pinpoint

import Pinpoint.Diagnostic
import Pinpoint.Settings.Document

/-! # Sessions

A session is a sequence of steps on one diagnostic: changes, settings loaded from a document, and
questions. A document that cannot be used leaves the diagnostic as it is. The transcript of a
session has an entry for the diagnostic as it starts and one for every step.
-/

namespace Pinpoint

/-- What can be asked of a diagnostic, a part at a time or, by a snapshot, all at once. -/
inductive Query where
  | message
  | sourceText
  | cursor
  | details
  | settings
  | lineStart
  | line
  | column
  | location
  | hidden
  | excerpt
  | report
  | summary
  | causes
  | snapshot
  deriving DecidableEq, Repr

/-- What a diagnostic shows of itself at one moment. -/
structure Snapshot where
  source : Option Text
  cursor : Nat
  line : Nat
  column : Nat
  location : Option Location
  hidden : Bool
  lineStart : Nat
  details : List Detail
  excerpt : Excerpt
  description : Text
  deriving DecidableEq, Repr

inductive Answer where
  | text (text : Text)
  | source (source : Option Text)
  | number (n : Nat)
  | details (details : List Detail)
  | settings (settings : Settings)
  | location (location : Option Location)
  | flag (value : Bool)
  | excerpt (excerpt : Excerpt)
  | texts (texts : List Text)
  | snapshot (snapshot : Snapshot)
  deriving DecidableEq, Repr

namespace Finding

def readSnapshot : Read Snapshot := do
  let line ← readLine
  let column ← readColumn
  let location ← readLocation
  let description ← readReportText
  let finding ← get
  return {
    source := finding.source
    cursor := finding.cursor
    line, column, location
    hidden := finding.hidden
    lineStart := finding.lineStart
    details := finding.details
    excerpt := finding.excerpt
    description }

end Finding

namespace Diagnostic

def ask : Query → StateM Diagnostic Answer
  | .message => return .text (← get).message
  | .sourceText => return .source (← get).source
  | .cursor => return .number (← get).cursor
  | .details => return .details (← get).details
  | .settings => return .settings (← get).settings
  | .lineStart => return .number (← get).lineStart
  | .line => return .number (← read Finding.readLine)
  | .column => return .number (← read Finding.readColumn)
  | .location => return .location (← read Finding.readLocation)
  | .hidden => return .flag (← get).hidden
  | .excerpt => return .excerpt (← get).excerpt
  | .report => return .text (← read Finding.readReportText)
  | .summary => return .text (← read Finding.readSummary).render
  | .causes => return .texts (← get).cause.texts
  | .snapshot => return .snapshot (← read Finding.readSnapshot)

end Diagnostic

/-- A step of a session: a change, settings loaded from a document, or a question. -/
inductive Step where
  | change (change : Change)
  | load (document : Text)
  | ask (query : Query)
  deriving DecidableEq, Repr

/-- What a step comes to: a change that was made, a document that cannot be used, or an answer. -/
inductive Entry where
  | changed
  | rejected (problem : SettingsError)
  | answered (answer : Answer)
  deriving DecidableEq, Repr

namespace Session

def step : Step → StateM Diagnostic Entry
  | .change change => do
    modify (·.apply change)
    return .changed
  | .load document =>
    match Settings.ofDocument document with
    | .ok settings => do
      modify (·.apply (.configure settings))
      return .changed
    | .error problem => return .rejected problem
  | .ask query => return .answered (← Diagnostic.ask query)

/-- Puts the state of the diagnostic in the place of an entry that only says that it has changed. -/
def reveal (entry : Entry) : StateM Diagnostic Entry :=
  match entry with
  | .changed => return .answered (← Diagnostic.ask .snapshot)
  | entry => return entry

/-- The entries of a session; unless it is quiet, the state is shown at the start and after every
change. -/
def transcript (quiet : Bool) (steps : List Step) : StateM Diagnostic (List Entry) := do
  let finish := if quiet then pure else reveal
  let first ← finish .changed
  let others ← steps.mapM fun next => do finish (← step next)
  return first :: others

end Session

end Pinpoint

import Pinpoint.Session

/-! # Runs and their histories

A run takes a diagnostic that has just been made through the steps of a session. Its history is the
list of the changes that these steps make: questions make none, and a document makes one only when
it can be used. For a field of the diagnostic the history holds the values written to it in turn.
-/

namespace Pinpoint

/-- How a diagnostic is made: at a cursor of a source, at a cursor of an unknown source, from the
details that a parser reported, or with a cause. -/
inductive Origin where
  | inSource (message source : Text) (cursor : Nat)
  | sourceless (message : Text) (cursor : Nat)
  | reported (message : Text) (details : List Detail) (source : Text) (cursor : Nat)
  | causedBy (message source : Text) (cursor : Nat) (cause : Cause)
  deriving DecidableEq, Repr

namespace Origin

def diagnostic : Origin → Diagnostic
  | .inSource message source cursor => { Finding.inSource message source cursor with }
  | .sourceless message cursor => { Finding.sourceless message cursor with }
  | .reported message details source cursor =>
    { Finding.reported message details source cursor with }
  | .causedBy message source cursor cause => .causedBy message source cursor cause

def source? : Origin → Option Text
  | .inSource _ source _ | .reported _ _ source _ | .causedBy _ source _ _ => some source
  | .sourceless _ _ => none

def cursor : Origin → Nat
  | .inSource _ _ cursor | .sourceless _ cursor | .reported _ _ _ cursor
  | .causedBy _ _ cursor _ => cursor

/-- The first position that a parser reported. -/
def firstDetail? : Origin → Option Detail
  | .reported _ details _ _ => details.head?
  | _ => none

end Origin

/-- What a scan made now would find; without characters nothing is scanned. -/
def Location.scanned (source : Option Text) (cursor : Nat) : Location :=
  match source with
  | none | some [] => unresolved
  | some source => ofCursor source cursor

/-- The change that a step makes to the diagnostic. -/
def Step.change? : Step → Option Change
  | .change made => some made
  | .load document => (Settings.ofDocument document).toOption.map .configure
  | .ask _ => none

/-- The fields of a diagnostic that changes write. -/
inductive Slot where
  | source
  | cursor
  | line
  | column
  | details
  | hidden
  | settings
  | lineStart
  deriving DecidableEq, Repr

namespace Change

def slot : Change → Slot
  | .giveSource _ | .dropSource => .source
  | .moveCursor _ => .cursor
  | .pinLine _ => .line
  | .pinColumn _ => .column
  | .tellLineStart _ => .lineStart
  | .replaceDetails _ => .details
  | .hideLocation => .hidden
  | .configure _ => .settings

/-- The source that a change leaves behind. -/
def source? : Change → Option (Option Text)
  | .giveSource source => some (some source)
  | .dropSource => some none
  | _ => none

def cursor? : Change → Option Nat
  | .moveCursor cursor => some cursor
  | _ => none

def line? : Change → Option Nat
  | .pinLine line => some line
  | _ => none

def column? : Change → Option Nat
  | .pinColumn column => some column
  | _ => none

end Change

def Step.slot? (next : Step) : Option Slot := next.change?.map Change.slot

namespace Session

def advance (diagnostic : Diagnostic) (next : Step) : Diagnostic := (step next diagnostic).2

def run (diagnostic : Diagnostic) (steps : List Step) : Diagnostic :=
  steps.foldl advance diagnostic

/-- The changes that the steps of a session make. -/
def history (steps : List Step) : List Change := steps.filterMap Step.change?

/-- The last value that a history writes to a field. -/
def lastWritten {α : Type} (writes : Change → Option α) (changes : List Change) : Option α :=
  (changes.filterMap writes).getLast?

/-- The last change of a history that writes the given field. -/
def lastChange (slot : Slot) (changes : List Change) : Option Change :=
  (changes.filter (·.slot = slot)).getLast?

/-- Two diagnostics are the same to every session: whatever is asked and changed from now on, the
entries are the same. -/
def Indistinguishable (first second : Diagnostic) : Prop :=
  ∀ quiet steps, (transcript quiet steps first).1 = (transcript quiet steps second).1

end Session

end Pinpoint

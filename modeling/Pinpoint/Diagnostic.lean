import Pinpoint.Diagnostic.Finding
import Pinpoint.Json.Value

/-! # Diagnostics

A diagnostic is a finding together with what caused it: nothing that is known, a plain error, or
another diagnostic with a cause of its own. The causes form a chain, and the text of a diagnostic
in that chain is its own report. Changes and reads concern the finding and leave the cause alone.
-/

namespace Pinpoint

/-- What lies beneath a diagnostic: nothing that is known, an error of which only the text is known,
or another diagnostic. -/
inductive Cause where
  | unknown
  | plain (text : Text)
  | diagnostic (finding : Finding) (cause : Cause)
  deriving DecidableEq, Repr

/-- The texts along a chain of causes, the nearest first. -/
def Cause.texts : Cause → List Text
  | unknown => []
  | plain text => [text]
  | diagnostic finding cause => (Finding.readReportText finding).1 :: cause.texts

/-- A finding and its cause. -/
structure Diagnostic extends Finding where
  cause : Cause := .unknown
  deriving DecidableEq, Repr

namespace Diagnostic

/-- The diagnostic as the cause of another one. -/
def asCause (diagnostic : Diagnostic) : Cause :=
  .diagnostic diagnostic.toFinding diagnostic.cause

def causedBy (message source : Text) (cursor : Nat) (cause : Cause) : Diagnostic :=
  { Finding.inSource message source cursor with cause }

def apply (diagnostic : Diagnostic) (change : Change) : Diagnostic :=
  { diagnostic with toFinding := diagnostic.toFinding.apply change }

/-- A read of the finding of a diagnostic. -/
def read {α : Type} (reading : Finding.Read α) : StateM Diagnostic α := fun diagnostic =>
  let (value, finding) := reading diagnostic.toFinding
  (value, { diagnostic with toFinding := finding })

end Diagnostic

/-! ## The JSON summary of a finding

The summary is an object that says what the report says, with the details besides. The keys of
every object in it stand in alphabetical order, and the column is the printed one.
-/

/-- A detail as a member of a summary; the key of an absent message is left out. -/
def Detail.summary (detail : Detail) : Json :=
  .object <|
    ("col".toList, .ofNat detail.col) ::
      (detail.message.map fun message => ("message".toList, Json.string message)).toList ++
      [("row".toList, .ofNat detail.row)]

/-- A location as a member of a summary, with the column as it is printed. -/
def Location.summary (location : Location) : Json :=
  .object [("column".toList, .ofNat location.printedColumn), ("line".toList, .ofNat location.line)]

/-- A report and its details as one object; the key of a hidden location is left out. -/
def Report.summary (report : Report) (details : List Detail) : Json :=
  .object <|
    [("caret".toList, .ofNat report.excerpt.caretOffset),
      ("errors".toList, .array (details.map Detail.summary))] ++
    (report.location.map fun location => ("location".toList, location.summary)).toList ++
    [("message".toList, .string report.message), ("near".toList, .string report.excerpt.text)]

def Finding.readSummary : Finding.Read Json := do
  let report ← Finding.readReport
  return report.summary (← get).details

/-! ## What a summary says

The summary of a diagnostic read as a record: the message, the quoted text, the offset of the caret,
one value for every detail and the printed location. The text of a report is a template with places
for all of these but the details.
-/

/-- What a JSON object says of a diagnostic. -/
structure Summary where
  message : Text
  near : Text
  caret : Nat
  errors : List Json
  /-- The line and the column as printed, where they are shown. -/
  location : Option (Nat × Nat)
  deriving Repr

namespace Summary

/-- A line and a column, from an object that has both. -/
def place? (value : Json) : Option (Nat × Nat) := do
  let line ← (← value.member? "line".toList).toNat?
  let column ← (← value.member? "column".toList).toNat?
  return (line, column)

/-- The summary that a value is; only the location may be left out. -/
def ofJson? (value : Json) : Option Summary := do
  let message ← (← value.member? "message".toList).toText?
  let near ← (← value.member? "near".toList).toText?
  let caret ← (← value.member? "caret".toList).toNat?
  let errors ← (← value.member? "errors".toList).toItems?
  match value.member? "location".toList with
  | none => return { message, near, caret, errors, location := none }
  | some shown => return { message, near, caret, errors, location := some (← place? shown) }

/-- The template of a report, filled in from a summary. -/
def report (summary : Summary) : Text :=
  "[Error: ".toList ++ summary.message ++ "]\n[Near : \x7b... ".toList ++ summary.near ++
    " ....\x7d]\n".toList ++ Text.run ' ' (13 + summary.caret) ++ "^".toList ++
    match summary.location with
    | none => []
    | some (line, column) =>
      "\n[Line: ".toList ++ Text.ofNat line ++ ", Column: ".toList ++ Text.ofNat column ++
        "]".toList

end Summary

end Pinpoint

import Pinpoint.Excerpt
import Pinpoint.Location

/-! # The text of a report

A report has a line for its message, a line that quotes the source, a line with a caret under the
failing token and, where the location is known and wanted, a line that names it. The caret line is
indented by the opening of the quoting line, so that the caret stands under the character of the
excerpt whose offset it has.
-/

namespace Pinpoint

structure Report where
  message : Text
  excerpt : Excerpt
  location : Option Location
  deriving DecidableEq, Repr

namespace Report

def opening : Text := "[Near : \x7b... ".toList

def closing : Text := " ....\x7d]".toList

def messageLine (message : Text) : Text := "[Error: ".toList ++ message ++ "]".toList

def excerptLine (text : Text) : Text := opening ++ text ++ closing

def caretLine (caretOffset : Nat) : Text :=
  Text.run ' ' (opening.length + caretOffset) ++ ['^']

/-- The line of a location, given the line and the column to be printed. -/
def locationLine (line printedColumn : Nat) : Text :=
  "[Line: ".toList ++ Text.ofNat line ++ ", Column: ".toList ++ Text.ofNat printedColumn ++
    "]".toList

/-- The lines of the report, joined by line feeds. -/
def render (report : Report) : Text :=
  messageLine report.message ++ '\n' :: excerptLine report.excerpt.text ++
    '\n' :: caretLine report.excerpt.caretOffset ++
    match report.location with
    | none => []
    | some location => '\n' :: locationLine location.line location.printedColumn

end Report

end Pinpoint

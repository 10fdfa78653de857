import Pinpoint.Text

/-! # Locations in a source

A location is a line and a column. Scanning the characters before a cursor gives its location: a
line feed starts a line, a carriage return takes no column, and every other character takes one.
The first line starts in column 1 and every later line in column 0, and reports print one more
than the stored column. A parser that knows where an input is wrong reports it as details, one for
each position.
-/

namespace Pinpoint

/-- A line, counted from 1, and a column, which is stored as scanned and printed one larger. -/
structure Location where
  line : Nat
  column : Nat
  deriving DecidableEq, Repr

/-- One position that a parser reports, with what it found wrong there. -/
structure Detail where
  row : Nat
  col : Nat
  message : Option Text := none
  deriving DecidableEq, Repr

namespace Location

/-- The location of a cursor that could not be resolved. -/
def unresolved : Location := ⟨1, 0⟩

instance : Inhabited Location := ⟨unresolved⟩

def printedColumn (location : Location) : Nat := location.column + 1

/-- Locations are ordered by line, and by column within a line. -/
instance : Ord Location where
  compare a b := (compare a.line b.line).then (compare a.column b.column)

instance : LE Location := leOfOrd

instance : LT Location := ltOfOrd

/-- The location of the first character of a source. -/
def start : Location := ⟨1, 1⟩

/-- The location after one more character. -/
def advance (location : Location) (c : Char) : Location :=
  if c = '\r' then location
  else if c = '\n' then ⟨location.line + 1, 0⟩
  else ⟨location.line, location.column + 1⟩

/-- The location of a cursor; one past the end of the source is at its end. -/
def ofCursor (source : Text) (cursor : Nat) : Location :=
  (source.take cursor).foldl advance start

end Location

end Pinpoint

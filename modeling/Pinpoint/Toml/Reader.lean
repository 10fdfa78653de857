import Pinpoint.Text

/-! # Readers of a TOML document

A reader takes the front off a text and keeps the rest, or fails. Readers are tried in order, and
the first that succeeds is taken. Nothing is said of why a document cannot be read, so a failure
needs no description.
-/

namespace Pinpoint.Toml

abbrev Reader (α : Type) := StateT Text Option α

namespace Reader

variable {α : Type}

/-- One character that passes a test. -/
def satisfy (test : Char → Bool) : Reader Char
  | [] => none
  | c :: rest => if test c then some (c, rest) else none

def char (c : Char) : Reader Unit
  | [] => none
  | first :: rest => if first = c then some ((), rest) else none

def word (expected : Text) : Reader Unit := fun text =>
  if expected.isPrefixOf text then some ((), text.drop expected.length) else none

/-- The longest run of characters that pass a test; the run may be empty. -/
def takeWhile (test : Char → Bool) : Reader Text := fun text =>
  some (text.takeWhile test, text.dropWhile test)

/-- The longest run of characters that pass a test, which must not be empty. -/
def takeWhile1 (test : Char → Bool) : Reader Text := do
  let found ← takeWhile test
  if found = [] then failure else return found

def finish : Reader Unit
  | [] => some ((), [])
  | _ :: _ => none

/-- What a reader reads, or nothing where it fails. -/
def optional (reader : Reader α) : Reader (Option α) := fun text =>
  match reader text with
  | some (value, rest) => some (some value, rest)
  | none => some (none, text)

/-- What a reader reads, again and again until it fails or takes nothing. -/
def many (reader : Reader α) : Reader (List α) := fun text =>
  match reader text with
  | none => some ([], text)
  | some (value, rest) =>
    if rest.length < text.length then
      (many reader rest).map fun (values, rest) => (value :: values, rest)
    else some ([], text)
termination_by text => text.length

/-- What a reader reads, with a separator between; there may be nothing to read. -/
def separated (reader : Reader α) (separator : Reader Unit) : Reader (List α) :=
  (do
    let first ← reader
    let others ← many (separator *> reader)
    return first :: others) <|> pure []

end Reader

/-! ## Blanks and line ends -/

/-- The blanks inside a line are the space and the tab. -/
def isBlank (c : Char) : Bool := c == ' ' || c == '\t'

def blanks : Reader Unit := do
  let _ ← Reader.takeWhile isBlank

/-- A line ends with a line feed, which a carriage return may precede. -/
def lineEnd : Reader Unit
  | '\n' :: rest => some ((), rest)
  | '\r' :: '\n' :: rest => some ((), rest)
  | _ => none

theorem length_lt_of_lineEnd {text rest : Text} (ended : lineEnd text = some ((), rest)) :
    rest.length < text.length := by
  unfold lineEnd at ended
  split at ended
  · cases ended
    exact Nat.lt_succ_self _
  · cases ended
    simp only [List.length_cons]
    omega
  · cases ended

/-- A character that is no control character, or a tab. -/
def isPrintable (c : Char) : Bool := c == '\t' || ('\x20' ≤ c && c != '\x7f')

/-- A comment reaches to the end of its line. -/
def comment : Reader Unit := do
  Reader.char '#'
  let _ ← Reader.takeWhile isPrintable

/-- What may stand between the elements of an array: blanks, comments and line ends. -/
def gap : Reader Unit := do
  blanks
  let _ ← Reader.many (do
    let _ ← Reader.optional comment
    lineEnd
    blanks)

end Pinpoint.Toml

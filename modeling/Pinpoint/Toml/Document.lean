import Pinpoint.Toml.Numbers
import Pinpoint.Toml.Strings
import Pinpoint.Toml.Table

/-! # TOML documents

A document is a sequence of lines. A line gives a value to a key, or opens a table for the lines
behind it, or is empty, and may end with a comment. Arrays and tables that are written as values
may be nested, and keys dotted, fewer than `nesting` deep.
-/

namespace Pinpoint.Toml

/-- The depth that nested values and dotted keys do not reach. -/
def nesting : Nat := 80

/-! ## Keys -/

/-- A dotted key: the keys that lead to a table, and the one in that table. -/
structure Key where
  path : List Text
  name : Text
  deriving DecidableEq, Repr

/-- A character of a key that stands without quotation marks. -/
def isBare (c : Char) : Bool := c.isAlphanum || c == '_' || c == '-'

def keyPart : Reader Text := basicString <|> literalString <|> Reader.takeWhile1 isBare

/-- A dotted key, with blanks around its parts. -/
def key : Reader Key := do
  let part : Reader Text := do
    blanks
    let found ← keyPart
    blanks
    return found
  let first ← part
  let others ← Reader.many (Reader.char '.' *> part)
  if others.length + 1 < nesting then
    return ⟨(first :: others).dropLast, (first :: others).getLast (by simp)⟩
  else failure

/-! ## Values -/

/-- The table that the assignments inside braces make. -/
def Entries.ofAssignments (assignments : List (Key × Item)) : Option Entries :=
  assignments.foldlM (fun entries (key, item) => entries.assign key.path key.name item) []

/-- The elements of an array behind its opening bracket, and the closing one. -/
def arrayBody (item : Reader Item) : Reader Item := do
  let items ← Reader.separated
    (do
      gap
      let found ← item
      gap
      return found)
    (Reader.char ',')
  if items.isEmpty then gap
  else
    let _ ← Reader.optional do
      Reader.char ','
      gap
  Reader.char ']'
  return .array items

/-- The assignments of a table in braces behind its opening one, and the closing one. -/
def closedBody (item : Reader Item) : Reader Item := do
  let assignments ← Reader.separated
    (do
      let found ← key
      Reader.char '='
      blanks
      let value ← item
      blanks
      return (found, value))
    (Reader.char ',')
  blanks
  Reader.char '\x7d'
  match Entries.ofAssignments assignments with
  | none => failure
  | some entries => return .closed entries

/-- A value that is not nested. -/
def scalar : Reader Item :=
  Item.text <$> string
    <|> (do moment; return Item.moment)
    <|> (do float; return Item.float)
    <|> Item.integer <$> integer
    <|> (do Reader.word "true".toList; return Item.boolean true)
    <|> (do Reader.word "false".toList; return Item.boolean false)

/-- A value in brackets or braces, with the given reader for the values in it. -/
def bracketed (item : Reader Item) : Reader Item :=
  (do Reader.char '['; arrayBody item) <|> (do Reader.char '\x7b'; closedBody item)

/-- A value in which brackets and braces are nested at most `depth` deep. -/
def value : Nat → Reader Item
  | 0 => scalar
  | depth + 1 => scalar <|> bracketed (value depth)

/-! ## Statements -/

/-- What one line says: a value for a key, or the header of a table or of one more element of an
array of tables. -/
inductive Statement where
  | assign (key : Key) (item : Item)
  | openTable (key : Key)
  | openElement (key : Key)

def statement : Reader Statement :=
  (do
    Reader.word "[[".toList
    let found ← key
    Reader.word "]]".toList
    return .openElement found) <|>
  (do
    Reader.char '['
    let found ← key
    Reader.char ']'
    return .openTable found) <|> do
    let found ← key
    Reader.char '='
    blanks
    let item ← value (nesting - 1)
    return .assign found item

/-- A line without its end. -/
def line : Reader (Option Statement) := do
  blanks
  let found ← Reader.optional statement
  blanks
  let _ ← Reader.optional comment
  return found

/-- The mark that may stand before a document. -/
def byteOrderMark : Char := '\uFEFF'

/-- The statements of a document, in order. -/
def statements : Reader (List Statement) := do
  let _ ← Reader.optional (Reader.char byteOrderMark)
  let first ← line
  let others ← Reader.many (lineEnd *> line)
  Reader.finish
  return (first :: others).filterMap id

/-! ## Tables of a document -/

/-- A document that is being built, and the path of the table that is open. -/
structure Draft where
  root : Entries := []
  current : List Text := []

def Draft.apply (draft : Draft) : Statement → Option Draft
  | .assign key item => do
    let root ← Entries.within .implied
      (fun _ entries => entries.assign key.path key.name item) draft.current .header draft.root
    return { draft with root }
  | .openTable key => do
    return { root := ← draft.root.openTable key.path key.name, current := key.path ++ [key.name] }
  | .openElement key => do
    return { root := ← draft.root.openElement key.path key.name, current := key.path ++ [key.name] }

/-- The table of a whole document, where the text is one. -/
def read? (text : Text) : Option Entries := do
  let (found, _) ← statements text
  let draft ← found.foldlM Draft.apply {}
  return draft.root

end Pinpoint.Toml

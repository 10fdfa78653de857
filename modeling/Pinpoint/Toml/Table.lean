import Pinpoint.Text

/-! # TOML tables

A table maps keys to items, in the order in which they are given. Statements add to tables along
paths of keys. What may be added depends on where a table comes from: a table with a header of its
own is not extended by dotted keys, one made by dotted keys gets no header, and a table or an array
that is written as a value is closed.
-/

namespace Pinpoint.Toml

/-- How a table came about: by its own header, by the header of a table inside it, or by a dotted
key that leads through it. -/
inductive Origin where
  | header
  | implied
  | dotted
  deriving DecidableEq, Repr

/-- What a key can stand for. Arrays and closed tables are written as values, the other tables are
built by statements. Of a float and of a date or a time only the kind is kept. -/
inductive Item where
  | text (text : Text)
  | integer (value : Int64)
  | float
  | boolean (value : Bool)
  | moment
  | array (items : List Item)
  | closed (entries : List (Text × Item))
  | table (origin : Origin) (entries : List (Text × Item))
  | tables (elements : List (List (Text × Item)))

/-- The keys of a table with their items, in order; no key stands there twice. -/
abbrev Entries := List (Text × Item)

namespace Entries

/-- Changes the item of a key; a key without an item is added at the end. -/
def alter (key : Text) (change : Option Item → Option Item) : Entries → Option Entries
  | [] => (change none).map fun item => [(key, item)]
  | (other, item) :: rest =>
    if other = key then (change (some item)).map fun item => (other, item) :: rest
    else (alter key change rest).map fun rest => (other, item) :: rest

def add (key : Text) (item : Item) : Entries → Option Entries :=
  alter key fun
    | none => some item
    | some _ => none

/-- Changes the table at the end of a path, given how it came about. Tables that are missing on the
way are made; of an array of tables, the last one is meant. -/
def within (made : Origin) (change : Origin → Entries → Option Entries) :
    List Text → Origin → Entries → Option Entries
  | [], origin, entries => change origin entries
  | key :: path, _, entries =>
    entries.alter key fun
      | none => (within made change path made []).map (Item.table made)
      | some (.table origin entries) =>
        if made = .dotted ∧ origin = .header then none
        else (within made change path origin entries).map (Item.table origin)
      | some (.tables elements) =>
        match elements.getLast? with
        | none => none
        | some last =>
          (within made change path .header last).map fun last =>
            Item.tables (elements.dropLast ++ [last])
      | some _ => none

/-- Adds an item under a dotted key. A key with a path adds to a table that dotted keys made, and a
key without one to a table that they did not make. -/
def assign (path : List Text) (name : Text) (item : Item) (entries : Entries) : Option Entries :=
  within .dotted
    (fun origin entries =>
      if (origin == .dotted) == path.isEmpty then none else entries.add name item)
    path .header entries

/-- Opens a table by its header. A table that a header implied may get its own header later. -/
def openTable (path : List Text) (name : Text) (entries : Entries) : Option Entries :=
  within .implied
    (fun _ entries => entries.alter name fun
      | none => some (.table .header [])
      | some (.table .implied entries) => some (.table .header entries)
      | some _ => none)
    path .header entries

def openElement (path : List Text) (name : Text) (entries : Entries) : Option Entries :=
  within .implied
    (fun _ entries => entries.alter name fun
      | none => some (.tables [[]])
      | some (.tables elements) => some (.tables (elements ++ [[]]))
      | some _ => none)
    path .header entries

end Entries

end Pinpoint.Toml

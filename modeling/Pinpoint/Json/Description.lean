import Pinpoint.Json.Records

/-! # Records that values describe

A value describes a record by itself, in whatever way its text is written. The members of an object
say what the fields hold, in any order; no field is given twice, and members with other names do not
matter. The items of an array stand for the fields in their own order. An absent field has the value
that its record has without it, where there is one.
-/

namespace Pinpoint

namespace Json

def toOffset? (value : Json) : Option Nat := value.toNat?.filter (· ≤ maxOffset)

/-- The text that a value is; null is the absence of a text. -/
def toOptionalText? : Json → Option (Option Text)
  | null => some none
  | value => value.toText?.map some

/-- None of the names is the key of two members. -/
def NoneRepeated (names : List Text) (members : List (Text × Json)) : Prop :=
  ∀ name ∈ names, (members.map (·.1)).count name ≤ 1

instance (names : List Text) (members : List (Text × Json)) :
    Decidable (NoneRepeated names members) :=
  inferInstanceAs (Decidable (∀ name ∈ names, (members.map (·.1)).count name ≤ 1))

/-- What the members of an object give for a field: what the value of that name is taken for, and
where there is none what the absent field stands for. -/
def given? {β : Type} (members : List (Text × Json)) (name : String) (take? : Json → Option β)
    (absent : Option β) : Option β :=
  match members.lookup name.toList with
  | some value => take? value
  | none => absent

namespace Shape

variable {δ α : Type}

/-- The names of the fields, in their own order. -/
def names (shape : Shape δ α) : List Text := shape.fields.map (·.name)

/-- An array has an item for every field, or for the first fields where the others may be left
out. -/
def allowsItems (shape : Shape δ α) (count : Nat) : Bool :=
  count == shape.fields.length || (shape.abridged && count < shape.fields.length)

/-- The record that a value describes, where `ofMembers?` says what members describe. -/
def ofJson? (shape : Shape δ α) (ofMembers? : List (Text × Json) → Option α) : Json → Option α
  | .object members => if NoneRepeated shape.names members then ofMembers? members else none
  | .array items =>
    if shape.allowsItems items.length then ofMembers? (shape.names.zip items) else none
  | _ => none

end Shape

end Json

open Json (given?)

/-- Both fields of a location must be there. -/
def Location.ofMembers? (members : List (Text × Json)) : Option Location := do
  return {
    line := ← given? members "line" Json.toOffset? none
    column := ← given? members "column" Json.toOffset? none }

/-- The message of a detail may be absent. -/
def Detail.ofMembers? (members : List (Text × Json)) : Option Detail := do
  return {
    row := ← given? members "row" Json.toOffset? none
    col := ← given? members "col" Json.toOffset? none
    message := ← given? members "message" Json.toOptionalText? (some none) }

/-- An absent field has its default value. -/
def Window.ofMembers? (members : List (Text × Json)) : Option Window := do
  let standard : Window := {}
  return {
    before := ← given? members "before" Json.toOffset? (some standard.before)
    after := ← given? members "after" Json.toOffset? (some standard.after)
    tokenLimit := ← given? members "token_limit" Json.toOffset? (some standard.tokenLimit) }

def Window.ofJson? : Json → Option Window := shape.ofJson? ofMembers?

/-- An absent field has its default value. -/
def Settings.ofMembers? (members : List (Text × Json)) : Option Settings := do
  let standard : Settings := {}
  return {
    window := ← given? members "window" Window.ofJson? (some standard.window)
    placeholder := ← given? members "placeholder" Json.toText? (some standard.placeholder) }

end Pinpoint

import Pinpoint.Json.Reader

/-! # Reading records from JSON

A record is read from an object, with its fields in any order, or from an array, with its fields in
their own order. Reading goes straight from the text to the record: an unknown member is skipped, a
known one given twice is refused, and whatever is wrong first is reported. Absent fields are the
record's own affair: its shape says what a record without them is.
-/

namespace Pinpoint.Json

/-! ## Single values -/

/-- What is wrong where a value of another kind was wanted. The value is read as far as its first
word goes, and only a well-formed word is a mismatch. -/
def complaint : Text → ReadError
  | [] => .malformed
  | c :: text =>
    let blame {α : Type} : Except ReadError α → ReadError
      | .error problem => problem
      | .ok _ => .mismatch
    if c = 'n' then blame (readWord "ull".toList text)
    else if c = 't' then blame (readWord "rue".toList text)
    else if c = 'f' then blame (readWord "alse".toList text)
    else if c = '"' then blame (readString .keep text)
    else if c = '[' ∨ c = '\x7b' then .mismatch
    else if startsNumeral c then
      match readNumeral (c :: text) with
      | .error problem => problem
      | .ok (numeral, _) => if numeral.inRange then .mismatch else .malformed
    else .malformed

/-- An offset: a numeral of digits only, no larger than the largest offset. -/
def readOffset : Reader Nat := fun text =>
  match skipSpace text with
  | [] => .error .endsEarly
  | c :: text =>
    if startsNumeral c then
      match readNumeral (c :: text) with
      | .error problem => .error problem
      | .ok (numeral, rest) =>
        if numeral.inRange then
          match numeral.toNat? with
          | some n => if n ≤ maxOffset then .ok (n, rest) else .error .mismatch
          | none => .error .mismatch
        else .error .malformed
    else .error (complaint (c :: text))

theorem length_lt_of_readOffset {text rest : Text} {n : Nat}
    (success : readOffset text = .ok (n, rest)) : rest.length < text.length := by
  have spaced := length_skipSpace_le text
  unfold readOffset at success
  split at success
  · cases success
  · next c tail same =>
    rw [same] at spaced
    split at success
    · split at success
      · cases success
      · next read =>
        have := length_lt_of_readNumeral read
        split at success
        · split at success
          · split at success <;> cases success
            omega
          · cases success
        · cases success
    · cases success

def readText : Reader Text := fun text =>
  match skipSpace text with
  | [] => .error .endsEarly
  | c :: text => if c = '"' then readString .keep text else .error (complaint (c :: text))

theorem length_lt_of_readText {text body rest : Text}
    (success : readText text = .ok (body, rest)) : rest.length < text.length := by
  have spaced := length_skipSpace_le text
  unfold readText at success
  split at success
  · cases success
  · next same =>
    rw [same, List.length_cons] at spaced
    split at success
    · have := length_lt_of_readString success
      omega
    · cases success

/-- A string, or null where there is none. -/
def readOptionalText : Reader (Option Text) := fun text =>
  match skipSpace text with
  | [] => .error .endsEarly
  | c :: text =>
    if c = 'n' then (readWord "ull".toList text).map fun rest => (none, rest)
    else (readText (c :: text)).map fun (body, rest) => (some body, rest)

theorem length_lt_of_readOptionalText {text rest : Text} {body : Option Text}
    (success : readOptionalText text = .ok (body, rest)) : rest.length < text.length := by
  have spaced := length_skipSpace_le text
  unfold readOptionalText at success
  split at success
  · cases success
  · next same =>
    rw [same, List.length_cons] at spaced
    split at success
    · obtain ⟨_, read, same⟩ := map_eq_ok_iff.mp success
      cases same
      have := length_le_of_readWord read
      omega
    · obtain ⟨⟨_, _⟩, read, same⟩ := map_eq_ok_iff.mp success
      cases same
      have := length_lt_of_readText read
      simp only [List.length_cons] at this
      omega

/-! ## Records -/

/-- Whatever a reader reads takes something off the text. -/
def Consumes {α : Type} (reader : Reader α) : Prop :=
  ∀ text value rest, reader text = .ok (value, rest) → rest.length < text.length

/-- A field of a record: its name, and how its value is read into a draft of the record. -/
structure Field (δ : Type) where
  name : Text
  read : δ → Reader δ
  consumes : ∀ draft, Consumes (read draft)

/-- The field with the given reader and the given way to put its value into a draft. -/
def Field.of {δ β : Type} (name : String) (reader : Reader β) (consumes : Consumes reader)
    (put : δ → β → δ) : Field δ where
  name := name.toList
  read draft text := (reader text).map fun (value, rest) => (put draft value, rest)
  consumes draft text value rest success := by
    obtain ⟨⟨_, _⟩, read, same⟩ := map_eq_ok_iff.mp success
    cases same
    exact consumes _ _ _ read

def Field.offset {δ : Type} (name : String) (put : δ → Nat → δ) : Field δ :=
  .of name readOffset (fun _ _ _ => length_lt_of_readOffset) put

def Field.text {δ : Type} (name : String) (put : δ → Text → δ) : Field δ :=
  .of name readText (fun _ _ _ => length_lt_of_readText) put

def Field.optionalText {δ : Type} (name : String) (put : δ → Option Text → δ) : Field δ :=
  .of name readOptionalText (fun _ _ _ => length_lt_of_readOptionalText) put

/-- How a record is read: drafts of type `δ` become records of type `α`. -/
structure Shape (δ α : Type) where
  fields : List (Field δ)
  blank : δ
  /-- The record of a draft, where every field that it needs has been read. -/
  finish : δ → Option α
  /-- The last fields may be left out of an array. -/
  abridged : Bool

namespace Shape

variable {δ α : Type}

/-- A field of the shape has the given name. -/
def knows (shape : Shape δ α) (name : Text) : Bool := shape.fields.any (·.name == name)

/-- The record of a draft at the end of an object or an array. -/
def finished (shape : Shape δ α) (draft : δ) : Except ReadError α :=
  match shape.finish draft with
  | some record => .ok record
  | none => .error .mismatch

/-! ### Objects -/

/-- An object that is being read: the fields that have not been given so far, and the draft with
those that have. -/
structure Reading (δ : Type) where
  pending : List (Field δ)
  draft : δ

/-- One member of an object: a field that is still pending, or an unknown one, which is skipped. -/
def readMember (shape : Shape δ α) (reading : Reading δ) (text : Text) :
    Except ReadError (Reading δ × Text) := do
  let (name, text) ← readName .keep text
  match reading.pending.find? (·.name == name) with
  | some field =>
    let text ← readColon text
    let (draft, rest) ← field.read reading.draft text
    return (⟨reading.pending.eraseP (·.name == name), draft⟩, rest)
  | none =>
    if shape.knows name then throw .mismatch
    let text ← readColon text
    let (_, rest) ← readValue .skip text
    return (reading, rest)

theorem length_lt_of_readMember {shape : Shape δ α} {reading next : Reading δ} {text rest : Text}
    (success : shape.readMember reading text = .ok (next, rest)) : rest.length < text.length := by
  obtain ⟨⟨name, named⟩, read, success⟩ := bind_eq_ok_iff.mp success
  have := length_lt_of_readName read
  dsimp only at success
  split at success
  · next field _ =>
    obtain ⟨coloned, colon, success⟩ := bind_eq_ok_iff.mp success
    obtain ⟨⟨draft, behind⟩, value, success⟩ := bind_eq_ok_iff.mp success
    cases success
    have := length_lt_of_readColon colon
    have := field.consumes _ _ _ _ value
    dsimp only
    omega
  · split at success
    · cases success
    · obtain ⟨coloned, colon, success⟩ := bind_eq_ok_iff.mp success
      obtain ⟨⟨skipped, behind⟩, value, success⟩ := bind_eq_ok_iff.mp success
      cases success
      have := length_lt_of_readColon colon
      have := length_lt_of_readValue value
      dsimp only
      omega

/-- What follows a member: the text at the next one, or behind the end of the object. -/
def readSeparator (text : Text) : Except ReadError (Bool × Text) :=
  match skipSpace text with
  | [] => .error .endsEarly
  | c :: rest =>
    if c = ',' then .ok (true, skipSpace rest)
    else if c = '\x7d' then .ok (false, rest)
    else .error .malformed

theorem length_lt_of_readSeparator {text rest : Text} {more : Bool}
    (success : readSeparator text = .ok (more, rest)) : rest.length < text.length := by
  have spaced := length_skipSpace_le text
  unfold readSeparator at success
  split at success
  · cases success
  · next tail same =>
    rw [same, List.length_cons] at spaced
    have := length_skipSpace_le tail
    split at success
    · cases success
      omega
    · split at success <;> cases success
      omega

/-- The members of an object from a name on. -/
def readMembers (shape : Shape δ α) (reading : Reading δ) (text : Text) :
    Except ReadError (δ × Text) :=
  match _member : shape.readMember reading text with
  | .error problem => .error problem
  | .ok (reading, text) =>
    match _separator : readSeparator text with
    | .error problem => .error problem
    | .ok (false, rest) => .ok (reading.draft, rest)
    | .ok (true, text) => readMembers shape reading text
termination_by text.length
decreasing_by
  have := length_lt_of_readMember _member
  have := length_lt_of_readSeparator _separator
  omega

theorem length_lt_of_readMembers {shape : Shape δ α} {reading : Reading δ} {text rest : Text}
    {draft : δ} (success : shape.readMembers reading text = .ok (draft, rest)) :
    rest.length < text.length := by
  fun_induction readMembers shape reading text with
  | case1 => cases success
  | case2 => cases success
  | case3 _ _ _ _ member _ separator =>
    cases success
    exact Nat.lt_trans (length_lt_of_readSeparator separator) (length_lt_of_readMember member)
  | case4 _ _ _ _ member _ separator ih =>
    have := ih success
    have := length_lt_of_readMember member
    have := length_lt_of_readSeparator separator
    omega

/-- An object behind its opening brace. -/
def readObject (shape : Shape δ α) (text : Text) : Except ReadError (δ × Text) :=
  match skipSpace text with
  | '\x7d' :: rest => .ok (shape.blank, rest)
  | text => shape.readMembers ⟨shape.fields, shape.blank⟩ text

theorem length_lt_of_readObject {shape : Shape δ α} {text rest : Text} {draft : δ}
    (success : shape.readObject text = .ok (draft, rest)) : rest.length < text.length := by
  have spaced := length_skipSpace_le text
  unfold readObject at success
  split at success
  · next same =>
    cases success
    rw [same, List.length_cons] at spaced
    omega
  · exact Nat.lt_of_lt_of_le (length_lt_of_readMembers success) spaced

/-! ### Arrays -/

/-- The end of an array behind its last element. -/
def readEnd (text : Text) : Except ReadError Text :=
  match skipSpace text with
  | [] => .error .endsEarly
  | c :: rest => if c = ']' then .ok rest else .error .malformed

theorem length_lt_of_readEnd {text rest : Text} (success : readEnd text = .ok rest) :
    rest.length < text.length := by
  have spaced := length_skipSpace_le text
  unfold readEnd at success
  split at success
  · cases success
  · next same =>
    rw [same, List.length_cons] at spaced
    split at success <;> cases success
    omega

/-- The text at the next element of an array, where there is one. -/
def readElementStart (first : Bool) (text : Text) : Except ReadError (Option Text) :=
  match skipSpace text with
  | [] => .error .endsEarly
  | c :: rest =>
    if c = ']' then .ok none
    else if first then .ok (some (c :: rest))
    else if c = ',' then
      match skipSpace rest with
      | [] => .error .endsEarly
      | c :: rest => if c = ']' then .error .malformed else .ok (some (c :: rest))
    else .error .malformed

theorem length_le_of_readElementStart {first : Bool} {text rest : Text}
    (success : readElementStart first text = .ok (some rest)) : rest.length ≤ text.length := by
  have spaced := length_skipSpace_le text
  unfold readElementStart at success
  split at success
  · cases success
  · next tail same =>
    rw [same] at spaced
    have behind := length_skipSpace_le tail
    split at success
    · cases success
    · split at success
      · cases success
        exact spaced
      · split at success
        · split at success
          · cases success
          · next same =>
            rw [same] at behind
            split at success <;> cases success
            simp only [List.length_cons] at *
            omega
        · cases success

/-- The elements of an array, one for each of the given fields. -/
def readElements (shape : Shape δ α) (first : Bool) :
    List (Field δ) → δ → Text → Except ReadError (δ × Text)
  | [], draft, text => (readEnd text).map fun rest => (draft, rest)
  | field :: fields, draft, text => do
    match ← readElementStart first text with
    | some text =>
      let (draft, text) ← field.read draft text
      readElements shape false fields draft text
    | none =>
      if shape.abridged then (readEnd text).map fun rest => (draft, rest)
      else throw .mismatch

theorem length_lt_of_readElements {shape : Shape δ α} {first : Bool} {fields : List (Field δ)}
    {draft final : δ} {text rest : Text}
    (success : shape.readElements first fields draft text = .ok (final, rest)) :
    rest.length < text.length := by
  induction fields generalizing first draft text with
  | nil =>
    obtain ⟨_, ended, same⟩ := map_eq_ok_iff.mp success
    cases same
    exact length_lt_of_readEnd ended
  | cons field fields ih =>
    obtain ⟨start, started, success⟩ := bind_eq_ok_iff.mp success
    cases start with
    | some tail =>
      obtain ⟨⟨_, _⟩, read, success⟩ := bind_eq_ok_iff.mp success
      have := length_le_of_readElementStart started
      have := field.consumes _ _ _ _ read
      have := ih success
      omega
    | none =>
      dsimp only at success
      split at success
      · obtain ⟨_, ended, same⟩ := map_eq_ok_iff.mp success
        cases same
        exact length_lt_of_readEnd ended
      · cases success

/-! ### Objects or arrays -/

def read (shape : Shape δ α) : Reader α := fun text =>
  match skipSpace text with
  | [] => .error .endsEarly
  | c :: text =>
    if c = '\x7b' then do
      let (draft, rest) ← shape.readObject text
      return (← shape.finished draft, rest)
    else if c = '[' then do
      let (draft, rest) ← shape.readElements true shape.fields shape.blank text
      return (← shape.finished draft, rest)
    else .error (complaint (c :: text))

theorem consumes_read (shape : Shape δ α) : Consumes shape.read := by
  intro text record rest success
  have spaced := length_skipSpace_le text
  unfold read at success
  split at success
  · cases success
  · next same =>
    rw [same, List.length_cons] at spaced
    split at success
    · obtain ⟨⟨_, _⟩, read, success⟩ := bind_eq_ok_iff.mp success
      obtain ⟨_, _, success⟩ := bind_eq_ok_iff.mp success
      cases success
      have := length_lt_of_readObject read
      omega
    split at success
    · obtain ⟨⟨_, _⟩, read, success⟩ := bind_eq_ok_iff.mp success
      obtain ⟨_, _, success⟩ := bind_eq_ok_iff.mp success
      cases success
      have := length_lt_of_readElements read
      omega
    · cases success

def ofText (shape : Shape δ α) (text : Text) : Except ReadError α := complete shape.read text

end Shape

end Pinpoint.Json

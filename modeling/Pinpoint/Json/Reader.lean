import Pinpoint.Json.Lexical

/-! # Reading JSON values

A value is read with a stack of the arrays and objects that are still open, so no value is nested
too deeply to be read. Reading a value that is skipped returns it too, with replacement characters
for its lone surrogates.
-/

namespace Pinpoint.Json

/-- An array or an object that is still open: what has been read of it, the last one first, and the
key of the next member. -/
inductive Frame where
  | array (items : List Json)
  | object (members : List (Text × Json)) (key : Text)

/-- A value that is neither an array nor an object. -/
def readScalar (purpose : Purpose) : Reader Json
  | [] => .error .endsEarly
  | c :: text =>
    if c = '"' then (readString purpose text).map fun (body, rest) => (.string body, rest)
    else if c = 'n' then (readWord "ull".toList text).map fun rest => (.null, rest)
    else if c = 't' then (readWord "rue".toList text).map fun rest => (.boolean true, rest)
    else if c = 'f' then (readWord "alse".toList text).map fun rest => (.boolean false, rest)
    else if startsNumeral c then
      match readNumeral (c :: text), purpose with
      | .ok (numeral, rest), _ => .ok (.number numeral, rest)
      | .error problem, .keep => .error problem
      | .error _, .skip => .error .malformed
    else .error .malformed

theorem length_lt_of_readScalar {purpose : Purpose} {text rest : Text} {value : Json}
    (success : readScalar purpose text = .ok (value, rest)) : rest.length < text.length := by
  unfold readScalar at success
  split at success
  · cases success
  · next c text =>
    split at success
    · obtain ⟨⟨_, _⟩, read, same⟩ := map_eq_ok_iff.mp success
      cases same
      exact Nat.lt_succ_of_lt (length_lt_of_readString read)
    split at success
    · obtain ⟨_, read, same⟩ := map_eq_ok_iff.mp success
      cases same
      exact Nat.lt_succ_of_le (length_le_of_readWord read)
    split at success
    · obtain ⟨_, read, same⟩ := map_eq_ok_iff.mp success
      cases same
      exact Nat.lt_succ_of_le (length_le_of_readWord read)
    split at success
    · obtain ⟨_, read, same⟩ := map_eq_ok_iff.mp success
      cases same
      exact Nat.lt_succ_of_le (length_le_of_readWord read)
    split at success
    · split at success
      · next read => cases success; exact length_lt_of_readNumeral read
      · cases success
      · cases success
    · cases success

/-- The name of a member. -/
def readName (purpose : Purpose) : Reader Text
  | [] => .error .endsEarly
  | c :: text => if c = '"' then readString purpose text else .error .malformed

theorem length_lt_of_readName {purpose : Purpose} {text name rest : Text}
    (success : readName purpose text = .ok (name, rest)) : rest.length < text.length := by
  unfold readName at success
  split at success
  · cases success
  · split at success
    · exact Nat.lt_succ_of_lt (length_lt_of_readString success)
    · cases success

/-- The text behind a colon. -/
def readColon (text : Text) : Except ReadError Text :=
  match skipSpace text with
  | [] => .error .endsEarly
  | c :: rest => if c = ':' then .ok rest else .error .malformed

theorem length_lt_of_readColon {text rest : Text} (success : readColon text = .ok rest) :
    rest.length < text.length := by
  have := length_skipSpace_le text
  unfold readColon at success
  split at success
  · cases success
  · next rest' same =>
    rw [same, List.length_cons] at this
    split at success <;> cases success
    omega

/-- The key of a member: its name and a colon. -/
def readKey (purpose : Purpose) : Reader Text := fun text => do
  let (name, text) ← readName purpose text
  let rest ← readColon text
  return (name, rest)

theorem length_lt_of_readKey {purpose : Purpose} {text key rest : Text}
    (success : readKey purpose text = .ok (key, rest)) : rest.length < text.length := by
  obtain ⟨⟨_, _⟩, name, success⟩ := bind_eq_ok_iff.mp success
  obtain ⟨_, colon, success⟩ := bind_eq_ok_iff.mp success
  cases success
  have := length_lt_of_readName name
  have := length_lt_of_readColon colon
  omega

/-- How far the reading of a value has come. -/
inductive Progress where
  | complete (value : Json)
  | within (frame : Frame)

/-- The front of a value: the whole of it, or the frame that it opens. -/
def readFront (purpose : Purpose) (text : Text) : Except ReadError (Progress × Text) :=
  match skipSpace text with
  | [] => .error .endsEarly
  | c :: rest =>
    if c = '[' then
      match skipSpace rest with
      | ']' :: rest => .ok (.complete (.array []), rest)
      | rest => .ok (.within (.array []), rest)
    else if c = '\x7b' then
      match skipSpace rest with
      | '\x7d' :: rest => .ok (.complete (.object []), rest)
      | rest => (readKey purpose rest).map fun (key, rest) => (.within (.object [] key), rest)
    else (readScalar purpose (c :: rest)).map fun (value, rest) => (.complete value, rest)

theorem length_lt_of_readFront {purpose : Purpose} {text rest : Text} {progress : Progress}
    (success : readFront purpose text = .ok (progress, rest)) : rest.length < text.length := by
  have spaced := length_skipSpace_le text
  unfold readFront at success
  split at success
  · cases success
  · next c tail same =>
    rw [same, List.length_cons] at spaced
    have opened := length_skipSpace_le tail
    split at success
    · split at success
      · next closed => cases success; rw [closed, List.length_cons] at opened; omega
      · cases success; omega
    split at success
    · split at success
      · next closed => cases success; rw [closed, List.length_cons] at opened; omega
      · obtain ⟨⟨_, _⟩, read, same⟩ := map_eq_ok_iff.mp success
        cases same
        have := length_lt_of_readKey read
        omega
    · obtain ⟨⟨_, _⟩, read, same⟩ := map_eq_ok_iff.mp success
      cases same
      have := length_lt_of_readScalar read
      simp only [List.length_cons] at this
      omega

/-- What follows a value in its frame: a comma and the next value, or the end of the frame. -/
def Frame.readNext (purpose : Purpose) (frame : Frame) (value : Json) (text : Text) :
    Except ReadError (Progress × Text) :=
  match frame, skipSpace text with
  | _, [] => .error .endsEarly
  | .array items, c :: rest =>
    if c = ',' then .ok (.within (.array (value :: items)), rest)
    else if c = ']' then .ok (.complete (.array (value :: items).reverse), rest)
    else .error .malformed
  | .object members key, c :: rest =>
    if c = ',' then
      (readKey purpose (skipSpace rest)).map fun (next, rest) =>
        (.within (.object ((key, value) :: members) next), rest)
    else if c = '\x7d' then .ok (.complete (.object ((key, value) :: members).reverse), rest)
    else .error .malformed

theorem Frame.length_lt_of_readNext {purpose : Purpose} {frame : Frame} {value : Json}
    {text rest : Text} {progress : Progress}
    (success : frame.readNext purpose value text = .ok (progress, rest)) :
    rest.length < text.length := by
  have spaced := length_skipSpace_le text
  unfold readNext at success
  split at success
  · cases success
  · next same =>
    rw [same, List.length_cons] at spaced
    split at success
    · cases success; omega
    · split at success <;> cases success
      omega
  · next tail same =>
    rw [same, List.length_cons] at spaced
    have := length_skipSpace_le tail
    split at success
    · obtain ⟨⟨_, _⟩, read, same⟩ := map_eq_ok_iff.mp success
      cases same
      have := length_lt_of_readKey read
      omega
    · split at success <;> cases success
      omega

/-- Reads on until every frame is closed. -/
def readRest (purpose : Purpose) (frames : List Frame) (progress : Progress) (text : Text) :
    Except ReadError (Json × Text) :=
  match progress, frames with
  | .complete value, [] => .ok (value, text)
  | .complete value, frame :: frames =>
    match _read : frame.readNext purpose value text with
    | .error problem => .error problem
    | .ok (progress, rest) => readRest purpose frames progress rest
  | .within frame, frames =>
    match _read : readFront purpose text with
    | .error problem => .error problem
    | .ok (progress, rest) => readRest purpose (frame :: frames) progress rest
termination_by text.length
decreasing_by
  · exact Frame.length_lt_of_readNext _read
  · exact length_lt_of_readFront _read

theorem length_le_of_readRest {purpose : Purpose} {frames : List Frame} {progress : Progress}
    {text rest : Text} {value : Json}
    (success : readRest purpose frames progress text = .ok (value, rest)) :
    rest.length ≤ text.length := by
  fun_induction readRest purpose frames progress text with
  | case1 => cases success; exact Nat.le_refl _
  | case2 => cases success
  | case3 _ _ _ _ _ _ read ih =>
    exact Nat.le_trans (ih success) (Nat.le_of_lt (Frame.length_lt_of_readNext read))
  | case4 => cases success
  | case5 _ _ _ _ _ read ih =>
    exact Nat.le_trans (ih success) (Nat.le_of_lt (length_lt_of_readFront read))

/-- The value at the start of a text. -/
def readValue (purpose : Purpose) : Reader Json := fun text => do
  let (progress, text) ← readFront purpose text
  readRest purpose [] progress text

theorem length_lt_of_readValue {purpose : Purpose} {text rest : Text} {value : Json}
    (success : readValue purpose text = .ok (value, rest)) : rest.length < text.length := by
  obtain ⟨⟨_, _⟩, front, success⟩ := bind_eq_ok_iff.mp success
  exact Nat.lt_of_le_of_lt (length_le_of_readRest success) (length_lt_of_readFront front)

/-- Only blanks follow what a reader read. -/
def complete {α : Type} (reader : Reader α) (text : Text) : Except ReadError α := do
  let (value, rest) ← reader text
  if skipSpace rest = [] then return value else throw .malformed

def read (text : Text) : Except ReadError Json := complete (readValue .keep) text

end Pinpoint.Json

import Mathlib.Data.List.Pairwise
import Mathlib.Data.List.Perm.Basic
import Pinpoint.Json.Description
import Pinpoint.Proofs.Json.Contents
import Pinpoint.Proofs.Json.Records

/-! # What fields make of values

What the value of a field is taken for does not depend on the text it is written in, so a field
comes down to the change that it makes of a value. The members of an object may then be looked up
for each field, and where the changes of different fields do not get in each other's way, in any
order.
-/

namespace Pinpoint.Json

variable {α β δ : Type}

/-! ## Outcomes -/

theorem toOption_map (outcome : Except ReadError α) (pass : α → β) :
    (outcome.map pass).toOption = outcome.toOption.map pass := by
  cases outcome <;> rfl

theorem toOption_bind (first : Except ReadError α) (second : α → Except ReadError β) :
    (first >>= second).toOption = first.toOption.bind fun found => (second found).toOption := by
  cases first <;> rfl

theorem toOption_eq_some_iff {outcome : Except ReadError α} {found : α} :
    outcome.toOption = some found ↔ outcome = .ok found := by
  cases outcome <;> simp [Except.toOption]

/-! ## Single values -/

/-- The reader takes any value that can be kept for what it is, or refuses it. -/
def Decodes (reader : Reader β) (take? : Json → Option β) : Prop :=
  ∀ text value rest, readValue .keep text = .ok (value, rest) →
    (reader text).toOption = (take? value).map fun found => (found, rest)

theorem consumes_readOffset : Consumes readOffset := fun _ _ _ => length_lt_of_readOffset

theorem consumes_readText : Consumes readText := fun _ _ _ => length_lt_of_readText

theorem consumes_readOptionalText : Consumes readOptionalText :=
  fun _ _ _ => length_lt_of_readOptionalText

theorem decodes_readOffset : Decodes readOffset toOffset? := by
  intro text value rest kept
  obtain ⟨c, tail, spaced, stands⟩ := exists_stands_of_readValue kept
  unfold readOffset
  rw [spaced]
  cases stands with
  | null => rfl
  | boolean letter => rcases letter with rfl | rfl <;> rfl
  | string => rfl
  | array => rfl
  | object => rfl
  | @number _ _ _ numeral starts read =>
    simp only [starts, read, ↓reduceIte]
    cases whole : numeral.toNat? with
    | none =>
      simp only [toOffset?, toNat?, whole]
      split <;> rfl
    | some n =>
      obtain rfl := (numeral.toNat?_eq_some_iff n).mp whole
      by_cases offset : n ≤ maxOffset
      · simp only [toOffset?, toNat?, whole, inRange_ofNat offset, offset, ↓reduceIte,
          Option.filter_some, decide_true]
        rfl
      · simp only [toOffset?, toNat?, whole, offset, ↓reduceIte, Option.filter_some, decide_false,
          Bool.false_eq_true]
        split <;> rfl

theorem decodes_readText : Decodes readText toText? := by
  intro text value rest kept
  obtain ⟨c, tail, spaced, stands⟩ := exists_stands_of_readValue kept
  unfold readText
  rw [spaced]
  cases stands with
  | null => rfl
  | boolean letter => rcases letter with rfl | rfl <;> rfl
  | string read =>
    simp only [↓reduceIte, read]
    rfl
  | array => rfl
  | object => rfl
  | number starts =>
    simp only [if_neg (ne_of_startsNumeral starts (by decide : startsNumeral '"' = false))]
    rfl

theorem decodes_readOptionalText : Decodes readOptionalText toOptionalText? := by
  intro text value rest kept
  obtain ⟨c, tail, spaced, stands⟩ := exists_stands_of_readValue kept
  unfold readOptionalText
  rw [spaced]
  cases stands with
  | null word =>
    simp only [↓reduceIte, word]
    rfl
  | boolean letter => rcases letter with rfl | rfl <;> rfl
  | string read =>
    have opened : readText ('"' :: tail) = readString .keep tail := rfl
    simp only [Char.reduceEq, ↓reduceIte, opened, read]
    rfl
  | array => rfl
  | object => rfl
  | number starts =>
    have letter := ne_of_startsNumeral starts (by decide : startsNumeral 'n' = false)
    have quote := ne_of_startsNumeral starts (by decide : startsNumeral '"' = false)
    have solid := not_isSpace_of_startsNumeral starts
    simp only [if_neg letter, readText, skipSpace_cons_of_not_isSpace solid, if_neg quote]
    rfl

/-! ## Fields -/

/-- A field may be absent, have a value that is refused, or have one that is taken. -/
theorem given?_eq {β : Type} (members : List (Text × Json)) (name : String)
    (take? : Json → Option β) (absent : Option β) :
    given? members name take? absent = ((members.lookup name.toList).map take?).getD absent := by
  unfold given?
  cases members.lookup name.toList <;> rfl

/-- A field together with the change of the draft that it makes of a value. -/
structure Slot (δ : Type) where
  field : Field δ
  put? : Json → Option (δ → δ)
  decodes : ∀ draft, Decodes (field.read draft) fun value => (put? value).map fun put => put draft

namespace Slot

/-- The name of the field. -/
def name (slot : Slot δ) : Text := slot.field.name

/-- The slot of a field that puts what its reader takes a value for into the draft. -/
def of (name : String) {reader : Reader β} (consumes : Consumes reader) (put : δ → β → δ)
    {take? : Json → Option β} (decodes : Decodes reader take?) : Slot δ where
  field := .of name reader consumes put
  put? value := (take? value).map fun found draft => put draft found
  decodes draft text value rest kept := by
    change ((reader text).map fun read => (put draft read.1, read.2)).toOption = _
    rw [toOption_map, decodes text value rest kept]
    simp only [Option.map_map]
    rfl

/-- What the members do to the draft through the field; an absent field leaves it as it is. -/
def edit? (slot : Slot δ) (members : List (Text × Json)) : Option (δ → δ) :=
  match members.lookup slot.name with
  | some value => slot.put? value
  | none => some id

/-- The draft once the members have been looked up for the field. -/
def fill? (slot : Slot δ) (members : List (Text × Json)) (draft : Option δ) : Option δ := do
  return (← slot.edit? members) (← draft)

/-- The changes that two fields make of any values can be made in either order. -/
def Commutes (slot other : Slot δ) : Prop :=
  ∀ value otherValue put otherPut draft, slot.put? value = some put →
    other.put? otherValue = some otherPut → otherPut (put draft) = put (otherPut draft)

/-! ### The slots of offsets and texts -/

/-- The slot of a field that holds an offset. -/
def offset (name : String) (put : δ → Nat → δ) : Slot δ :=
  .of name consumes_readOffset put decodes_readOffset

/-- The slot of a field that holds a string. -/
def text (name : String) (put : δ → Text → δ) : Slot δ :=
  .of name consumes_readText put decodes_readText

/-- The slot of a field that holds a string or null. -/
def optionalText (name : String) (put : δ → Option Text → δ) : Slot δ :=
  .of name consumes_readOptionalText put decodes_readOptionalText

/-- Fields commute when their values can be put into a draft in either order. -/
theorem commutes_of {γ : Type} {name other : String} {reader : Reader β} {otherReader : Reader γ}
    {consumes : Consumes reader} {otherConsumes : Consumes otherReader} {put : δ → β → δ}
    {otherPut : δ → γ → δ} {take? : Json → Option β} {otherTake? : Json → Option γ}
    {decodes : Decodes reader take?} {otherDecodes : Decodes otherReader otherTake?}
    (swap : ∀ draft found otherFound,
      otherPut (put draft found) otherFound = put (otherPut draft otherFound) found) :
    (Slot.of name consumes put decodes).Commutes
      (Slot.of other otherConsumes otherPut otherDecodes) := by
  intro value otherValue change otherChange draft given otherGiven
  obtain ⟨found, -, rfl⟩ := Option.map_eq_some_iff.mp given
  obtain ⟨otherFound, -, rfl⟩ := Option.map_eq_some_iff.mp otherGiven
  exact swap draft found otherFound

/-- A field puts the value of its name into the draft; without one the draft stays as it is. -/
theorem fill?_of {name : String} {reader : Reader β} {consumes : Consumes reader}
    {put : δ → β → δ} {take? : Json → Option β} {decodes : Decodes reader take?}
    (members : List (Text × Json)) (draft : Option δ) :
    (Slot.of name consumes put decodes).fill? members draft =
      draft.bind fun draft =>
        (((members.lookup name.toList).map take?).map (·.map (put draft))).getD (some draft) := by
  have edits : (Slot.of name consumes put decodes).edit? members =
      (((members.lookup name.toList).map take?).map
        (·.map fun found draft => put draft found)).getD (some id) := by
    unfold edit?
    change (match members.lookup name.toList with | some _ => _ | none => _) = _
    cases members.lookup name.toList <;> rfl
  rw [fill?, edits]
  rcases (members.lookup name.toList).map take? with _ | _ | found <;> cases draft <;> rfl

end Slot

/-! ## Looking up -/

/-- The draft once the members have been looked up for all of the fields. -/
def settle? (members : List (Text × Json)) (slots : List (Slot δ)) (draft : Option δ) : Option δ :=
  slots.foldl (fun draft slot => slot.fill? members draft) draft

variable {slots : List (Slot δ)} {members others : List (Text × Json)}

theorem settle?_cons (members : List (Text × Json)) (slot : Slot δ) (slots : List (Slot δ))
    (draft : Option δ) :
    settle? members (slot :: slots) draft = settle? members slots (slot.fill? members draft) :=
  rfl

/-- The first member of its name says what a field does. -/
theorem Slot.fill?_cons_self (slot : Slot δ) (value : Json) (members : List (Text × Json))
    (draft : δ) :
    slot.fill? ((slot.name, value) :: members) (some draft) = (slot.put? value).map (· draft) := by
  have found : slot.edit? ((slot.name, value) :: members) = slot.put? value := by
    rw [Slot.edit?, List.lookup_cons, beq_self_eq_true]
  rw [Slot.fill?, found]
  cases slot.put? value <;> rfl

theorem settle?_none (members : List (Text × Json)) (slots : List (Slot δ)) :
    settle? members slots none = none := by
  induction slots with
  | nil => rfl
  | cons slot slots ih =>
    have failed : slot.fill? members none = none := by
      rw [Slot.fill?]
      cases slot.edit? members <;> rfl
    rw [settle?, List.foldl_cons, failed]
    exact ih

/-- Without members nothing is changed. -/
theorem settle?_nil (slots : List (Slot δ)) (draft : Option δ) :
    settle? [] slots draft = draft := by
  induction slots generalizing draft with
  | nil => rfl
  | cons slot slots ih =>
    have same : slot.fill? [] draft = draft := by cases draft <;> rfl
    rw [settle?, List.foldl_cons, same]
    exact ih draft

/-- Only what is found under the names of the fields matters. -/
theorem settle?_congr (same : ∀ slot ∈ slots, members.lookup slot.name = others.lookup slot.name)
    (draft : Option δ) : settle? members slots draft = settle? others slots draft := by
  induction slots generalizing draft with
  | nil => rfl
  | cons slot slots ih =>
    obtain ⟨first, rest⟩ := List.forall_mem_cons.mp same
    have filled : slot.fill? members draft = slot.fill? others draft := by
      rw [Slot.fill?, Slot.fill?, Slot.edit?, Slot.edit?, first]
    rw [settle?, settle?, List.foldl_cons, List.foldl_cons, filled]
    exact ih rest _

theorem Slot.Commutes.edit? {slot other : Slot δ} (commutes : slot.Commutes other)
    {edit otherEdit : δ → δ} (given : slot.edit? members = some edit)
    (otherGiven : other.edit? members = some otherEdit) (draft : δ) :
    otherEdit (edit draft) = edit (otherEdit draft) := by
  unfold Slot.edit? at given otherGiven
  split at given
  · split at otherGiven
    · exact commutes _ _ _ _ draft given otherGiven
    · cases otherGiven
      rfl
  · cases given
    rfl

/-- The members may be looked up for either of two fields first. -/
def Slot.Swaps (members : List (Text × Json)) (slot other : Slot δ) : Prop :=
  ∀ draft, other.fill? members (slot.fill? members draft) =
    slot.fill? members (other.fill? members draft)

theorem Slot.Commutes.swaps {slot other : Slot δ} (commutes : slot.Commutes other) :
    slot.Swaps members other := by
  intro draft
  unfold Slot.fill?
  cases given : slot.edit? members with
  | none => cases other.edit? members <;> rfl
  | some edit =>
    cases otherGiven : other.edit? members with
    | none => rfl
    | some otherEdit =>
      cases draft with
      | none => rfl
      | some draft => exact congrArg some (commutes.edit? given otherGiven draft)

/-- The fields may be looked up in any order. -/
theorem settle?_perm {otherSlots : List (Slot δ)} (commute : slots.Pairwise Slot.Commutes)
    (perm : slots.Perm otherSlots) (draft : Option δ) :
    settle? members slots draft = settle? members otherSlots draft := by
  have symmetric : @Std.Symm (Slot δ) (Slot.Swaps members) :=
    ⟨fun _ _ swaps draft => (swaps draft).symm⟩
  have distinct : slots.Pairwise (Slot.Swaps members) := commute.imp fun commutes => commutes.swaps
  have swap : ∀ slot ∈ slots, ∀ other ∈ slots, slot.Swaps members other :=
    distinct.forall_of_forall fun _ _ _ => rfl
  refine perm.foldl_eq' ?_ draft
  exact swap

end Pinpoint.Json

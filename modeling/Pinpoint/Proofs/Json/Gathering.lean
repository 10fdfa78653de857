import Pinpoint.Proofs.Json.Skipping
import Pinpoint.Proofs.Json.Slots

/-! # Records from members and from items

A record is read member by member, each of which goes to the field of its name, takes it off the
list of fields that are still pending and changes the draft. Only the value that each field is given
matters for that, so looking up the names of the fields among the members gives the same draft. The
items of an array are members whose names are those of the fields, in their own order.
-/

namespace Pinpoint.Json

variable {α δ : Type}

/-! ## Members -/

namespace Shape

variable {shape : Shape δ α} {pending : List (Slot δ)} {draft : δ}

/-- What one member does to the fields that are pending and to the draft, where its value is taken
and its field has not been given before. -/
def step? (shape : Shape δ α) (pending : List (Slot δ)) (draft : δ) (name : Text) (value : Json) :
    Option (List (Slot δ) × δ) :=
  match pending.find? (·.name == name) with
  | some slot => (slot.put? value).map fun put => (pending.eraseP (·.name == name), put draft)
  | none => if shape.knows name then none else some (pending, draft)

/-- What all members do to the draft, one after the other. -/
def gather? (shape : Shape δ α) (pending : List (Slot δ)) (draft : δ) :
    List (Text × Json) → Option δ
  | [] => some draft
  | (name, value) :: members => do
    let (pending, draft) ← shape.step? pending draft name value
    gather? shape pending draft members

/-- Reading a member does what its name and its value say, in whatever way they are written. -/
theorem toOption_readMember {text name named behind : Text} {value : Json}
    (key : readKey .keep text = .ok (name, named))
    (item : readValue .keep named = .ok (value, behind)) :
    (shape.readMember ⟨pending.map (·.field), draft⟩ text).toOption =
      (shape.step? pending draft name value).map fun next =>
        (⟨next.1.map (·.field), next.2⟩, behind) := by
  obtain ⟨⟨_, coloned⟩, read, success⟩ := bind_eq_ok_iff.mp key
  obtain ⟨_, colon, success⟩ := bind_eq_ok_iff.mp success
  cases success
  have field : (pending.map (·.field)).find? (·.name == name) =
      (pending.find? (·.name == name)).map (·.field) := List.find?_map
  have others : (pending.map (·.field)).eraseP (·.name == name) =
      (pending.eraseP (·.name == name)).map (·.field) := List.eraseP_map
  cases found : pending.find? (·.name == name) with
  | some slot =>
    have reads : shape.readMember ⟨pending.map (·.field), draft⟩ text =
        (slot.field.read draft named).map fun read =>
          (⟨(pending.eraseP (·.name == name)).map (·.field), read.1⟩, read.2) := by
      simp only [readMember, read, bind, Except.bind, field, found, Option.map_some, others, colon]
      cases slot.field.read draft named <;> rfl
    rw [reads, toOption_map, slot.decodes draft _ _ _ item]
    simp only [step?, found, Option.map_map]
    rfl
  | none =>
    obtain ⟨passed, skipped⟩ := readValue_skip item
    simp only [readMember, read, bind, Except.bind, field, found, Option.map_none, colon, skipped,
      step?]
    split <;> rfl

theorem readSeparator_of_ended {text rest : Text} (ended : skipSpace text = '\x7d' :: rest) :
    readSeparator text = .ok (false, rest) := by
  rw [readSeparator, ended]
  rfl

theorem readSeparator_of_comma {text next : Text} (comma : skipSpace text = ',' :: next) :
    readSeparator text = .ok (true, skipSpace next) := by
  rw [readSeparator, comma]
  rfl

/-- Reading members from a name on does what all of them say. -/
theorem toOption_readMembers {text named behind rest name : Text} {value : Json}
    {members : List (Text × Json)} (key : readKey .keep text = .ok (name, named))
    (item : readValue .keep named = .ok (value, behind))
    (others : MembersBehind behind members rest) :
    (shape.readMembers ⟨pending.map (·.field), draft⟩ text).toOption =
      (shape.gather? pending draft ((name, value) :: members)).map fun final => (final, rest) := by
  induction others generalizing pending draft text named name value with
  | closed ended =>
    rw [readMembers_eq_bind, toOption_bind, toOption_readMember key item, gather?]
    cases shape.step? pending draft name value with
    | none => rfl
    | some next =>
      simp only [Option.map_some, Option.bind_some, readSeparator_of_ended ended]
      rfl
  | more comma nextKey nextItem others ih =>
    rw [readMembers_eq_bind, toOption_bind, toOption_readMember key item, gather?]
    cases shape.step? pending draft name value with
    | none => rfl
    | some next =>
      simp only [Option.map_some, Option.bind_some, readSeparator_of_comma comma]
      exact ih nextKey nextItem

/-! ## Every order of members -/

/-- The fields that are pending have names of their own and change the draft each in its own
place. -/
structure Ready (pending : List (Slot δ)) : Prop where
  distinct : (pending.map Slot.name).Nodup
  commute : pending.Pairwise Slot.Commutes

/-- Every field of the shape is given at most once, and only if it is pending. -/
def Admits (shape : Shape δ α) (pending : List (Slot δ)) (members : List (Text × Json)) : Prop :=
  ∀ name, shape.knows name = true →
    (members.map (·.1)).count name ≤ if name ∈ pending.map Slot.name then 1 else 0

theorem exists_perm_of_find? {name : Text} {slot : Slot δ}
    (found : pending.find? (·.name == name) = some slot) :
    slot.name = name ∧ pending.Perm (slot :: pending.eraseP (·.name == name)) := by
  obtain ⟨named, front, behind, rfl, others⟩ := List.find?_eq_some_iff_append.mp found
  have passed : ∀ other ∈ front, ¬ (other.name == name) = true := by
    intro other member
    simpa using others other member
  rw [List.eraseP_append_right _ passed, List.eraseP_cons, named, cond_true]
  exact ⟨beq_iff_eq.mp named, List.perm_middle⟩

/-- A member gives a pending field, a field that has been given before, or no field. -/
theorem step?_cases (ready : Ready pending) (draft : δ) (name : Text) (value : Json) :
    (∃ slot rest, slot.name = name ∧ pending.Perm (slot :: rest) ∧ Ready rest ∧
      shape.step? pending draft name value =
        (slot.put? value).map fun put => (rest, put draft)) ∨
    (name ∉ pending.map Slot.name ∧ shape.knows name = true ∧
      shape.step? pending draft name value = none) ∨
    (name ∉ pending.map Slot.name ∧ shape.knows name = false ∧
      shape.step? pending draft name value = some (pending, draft)) := by
  cases found : pending.find? (·.name == name) with
  | some slot =>
    obtain ⟨named, perm⟩ := exists_perm_of_find? found
    have fewer : (pending.eraseP (·.name == name)).Sublist pending := List.eraseP_sublist
    have rest : Ready (pending.eraseP (·.name == name)) :=
      ⟨ready.distinct.sublist (fewer.map _), ready.commute.sublist fewer⟩
    exact .inl ⟨slot, _, named, perm, rest, by simp only [step?, found]⟩
  | none =>
    have absent : name ∉ pending.map Slot.name := by
      intro member
      obtain ⟨slot, isPending, named⟩ := List.mem_map.mp member
      exact List.find?_eq_none.mp found slot isPending (beq_iff_eq.mpr named)
    cases known : shape.knows name with
    | true => exact .inr (.inl ⟨absent, rfl, by simp only [step?, found, known, ↓reduceIte]⟩)
    | false =>
      exact .inr (.inr ⟨absent, rfl,
        by simp only [step?, found, known, Bool.false_eq_true, ↓reduceIte]⟩)

/-- A name that is not looked up may be put in front of the members. -/
theorem settle?_cons_of_not_mem {name : Text} {value : Json} {members : List (Text × Json)}
    (absent : name ∉ pending.map Slot.name) (draft : Option δ) :
    settle? ((name, value) :: members) pending draft = settle? members pending draft := by
  refine settle?_congr (fun slot member => ?_) draft
  have other : slot.name ≠ name := fun same => absent (same ▸ List.mem_map_of_mem member)
  rw [List.lookup_cons, beq_false_of_ne other]

/-- A member that gives a pending field leaves the others pending. -/
theorem admits_cons_of_perm {slot : Slot δ} {rest : List (Slot δ)} {value : Json}
    {members : List (Text × Json)} (perm : pending.Perm (slot :: rest))
    (absent : slot.name ∉ rest.map Slot.name) :
    shape.Admits pending ((slot.name, value) :: members) ↔ shape.Admits rest members := by
  refine forall_congr' fun name => imp_congr_right fun _ => ?_
  have named : name ∈ pending.map Slot.name ↔ name = slot.name ∨ name ∈ rest.map Slot.name := by
    rw [(perm.map Slot.name).mem_iff, List.map_cons, List.mem_cons]
  by_cases same : name = slot.name
  · subst same
    rw [if_pos (named.mpr (.inl rfl)), if_neg absent, List.map_cons, List.count_cons_self]
    omega
  · rw [List.map_cons, List.count_cons_of_ne (Ne.symm same)]
    simp only [named, same, false_or]

theorem admits_cons_of_unknown {name : Text} {value : Json} {members : List (Text × Json)}
    (unknown : shape.knows name = false) :
    shape.Admits pending ((name, value) :: members) ↔ shape.Admits pending members := by
  refine forall_congr' fun other => imp_congr_right fun known => ?_
  have apart : name ≠ other := by
    rintro rfl
    exact Bool.false_ne_true (unknown.symm.trans known)
  rw [List.map_cons, List.count_cons_of_ne apart]

/-- The members, whatever their order, make of the draft what looking up the fields makes of it. -/
theorem gather?_eq_some_iff (ready : Ready pending) {members : List (Text × Json)}
    {final : δ} :
    shape.gather? pending draft members = some final ↔
      shape.Admits pending members ∧ settle? members pending (some draft) = some final := by
  induction members generalizing pending draft with
  | nil =>
    rw [gather?, settle?_nil]
    exact (and_iff_right fun _ _ => Nat.zero_le _).symm
  | cons member members ih =>
    obtain ⟨name, value⟩ := member
    rcases step?_cases ready draft name value with
      ⟨slot, rest, named, perm, restReady, step⟩ | ⟨absent, known, step⟩ | ⟨absent, unknown, step⟩
    · -- looking up this field first makes the same draft as reading its member first
      subst named
      have names : (slot.name :: rest.map Slot.name).Nodup :=
        (perm.map Slot.name).nodup_iff.mp ready.distinct
      obtain ⟨absent, -⟩ := List.nodup_cons.mp names
      have settled : settle? ((slot.name, value) :: members) pending (some draft) =
          settle? members rest ((slot.put? value).map (· draft)) := by
        rw [settle?_perm ready.commute perm, settle?_cons, Slot.fill?_cons_self,
          settle?_cons_of_not_mem absent]
      rw [gather?, step, admits_cons_of_perm perm absent, settled]
      cases slot.put? value with
      | none =>
        rw [Option.map_none, Option.map_none, settle?_none]
        exact iff_of_false nofun fun both => nomatch both.2
      | some put => exact ih restReady
    · have refused : ¬ shape.Admits pending ((name, value) :: members) := by
        intro admits
        have given := admits name known
        rw [if_neg absent, List.map_cons, List.count_cons_self] at given
        omega
      rw [gather?, step]
      exact iff_of_false nofun fun both => refused both.1
    · rw [gather?, step, admits_cons_of_unknown unknown, settle?_cons_of_not_mem absent]
      exact ih ready

/-! ## Items -/

/-- What the items of an array do to the draft, one field after the other. -/
def place? (abridged : Bool) : List (Slot δ) → List Json → δ → Option δ
  | [], [], draft => some draft
  | [], _ :: _, _ => none
  | _ :: _, [], draft => if abridged then some draft else none
  | slot :: slots, item :: items, draft => do
    place? abridged slots items ((← slot.put? item) draft)

theorem toOption_readElements_ended {first : Bool} {text rest : Text}
    (ended : skipSpace text = ']' :: rest) :
    (shape.readElements first (pending.map (·.field)) draft text).toOption =
      (place? shape.abridged pending [] draft).map fun final => (final, rest) := by
  have closed : readEnd text = .ok rest := by
    rw [readEnd, ended]
    rfl
  have start : readElementStart first text = .ok none := by
    rw [readElementStart, ended]
    rfl
  cases pending with
  | nil =>
    rw [List.map_nil, readElements, closed]
    rfl
  | cons slot slots =>
    simp only [List.map_cons, readElements, start, closed, bind, Except.bind, place?]
    split <;> rfl

/-- An item goes to the first field that is pending, and those behind it to the others. -/
theorem toOption_readElements_item {first : Bool} {text start behind rest : Text} {value : Json}
    {items : List Json} (more : readEnd text = .error .malformed)
    (started : readElementStart first text = .ok (some start))
    (item : readValue .keep start = .ok (value, behind))
    (others : ∀ (pending : List (Slot δ)) (draft : δ),
      (shape.readElements false (pending.map (·.field)) draft behind).toOption =
        (place? shape.abridged pending items draft).map fun final => (final, rest)) :
    (shape.readElements first (pending.map (·.field)) draft text).toOption =
      (place? shape.abridged pending (value :: items) draft).map fun final => (final, rest) := by
  cases pending with
  | nil =>
    rw [List.map_nil, readElements, more]
    rfl
  | cons slot slots =>
    have reads : shape.readElements first ((slot :: slots).map (·.field)) draft text =
        slot.field.read draft start >>= fun read =>
          shape.readElements false (slots.map (·.field)) read.1 read.2 := by
      rw [List.map_cons, readElements, started]
      rfl
    rw [reads, toOption_bind, slot.decodes draft _ _ _ item, place?]
    dsimp only
    cases slot.put? value with
    | none => rfl
    | some put => exact others slots (put draft)

/-- Behind an item a comma leads to the next one. -/
theorem readElementStart_of_comma {text next behind : Text} {value : Json}
    (comma : skipSpace text = ',' :: next) (item : readValue .keep next = .ok (value, behind)) :
    readElementStart false text = .ok (some (skipSpace next)) := by
  obtain ⟨c, tail, spaced, stands⟩ := exists_stands_of_readValue item
  rw [readElementStart, comma]
  simp only [Char.reduceEq, ↓reduceIte, Bool.false_eq_true, spaced, if_neg stands.ne_bracket]

theorem toOption_readElements_behind {text rest : Text} {items : List Json}
    (behind : ItemsBehind text items rest) (pending : List (Slot δ)) (draft : δ) :
    (shape.readElements false (pending.map (·.field)) draft text).toOption =
      (place? shape.abridged pending items draft).map fun final => (final, rest) := by
  induction behind generalizing pending draft with
  | closed ended => exact toOption_readElements_ended ended
  | @more text next _ _ _ _ comma item _ ih =>
    have more : readEnd text = .error .malformed := by
      rw [readEnd, comma]
      rfl
    exact toOption_readElements_item more (readElementStart_of_comma comma item)
      ((readValue_skipSpace next).trans item) ih

/-- Reading the items of an array does what they say. -/
theorem toOption_readElements {text rest : Text} {items : List Json}
    (holds : Items text items rest) :
    (shape.readElements true (pending.map (·.field)) draft text).toOption =
      (place? shape.abridged pending items draft).map fun final => (final, rest) := by
  cases holds with
  | empty ended => exact toOption_readElements_ended ended
  | first item others =>
    obtain ⟨c, tail, spaced, stands⟩ := exists_stands_of_readValue item
    have more : readEnd text = .error .malformed := by
      rw [readEnd, spaced]
      exact if_neg stands.ne_bracket
    have started : readElementStart true text = .ok (some (skipSpace text)) := by
      rw [readElementStart, spaced]
      simp only [if_neg stands.ne_bracket, ↓reduceIte]
    exact toOption_readElements_item more started ((readValue_skipSpace text).trans item)
      (toOption_readElements_behind others)

/-- Items do what members with the names of the fields would do, where there are not too many of
them and none is missing that may not be. -/
theorem place?_eq_some_iff {abridged : Bool} {items : List Json} {final : δ}
    (distinct : (pending.map Slot.name).Nodup) :
    place? abridged pending items draft = some final ↔
      (items.length = pending.length ∨ abridged = true ∧ items.length < pending.length) ∧
        settle? ((pending.map Slot.name).zip items) pending (some draft) = some final := by
  induction pending generalizing items draft with
  | nil =>
    cases items with
    | nil => simp only [place?, List.length_nil, Nat.lt_irrefl, and_false, or_false, true_and,
        List.map_nil, List.zip_nil_left, settle?_nil]
    | cons item items =>
      simp only [place?, List.length_cons, List.length_nil, Nat.succ_ne_zero, Nat.not_lt_zero,
        and_false, or_false, false_and, reduceCtorEq]
  | cons slot slots ih =>
    obtain ⟨absent, distinct⟩ := List.nodup_cons.mp distinct
    cases items with
    | nil =>
      have fewer : ([] : List Json).length < (slot :: slots).length := Nat.succ_pos _
      simp only [place?, List.zip_nil_right, settle?_nil, fewer, Nat.ne_of_lt fewer, and_true,
        false_or]
      split
      · next allowed => simp only [allowed, true_and]
      · next refused => simp only [refused, reduceCtorEq, Bool.false_eq_true, false_and]
    | cons item items =>
      rw [place?, List.map_cons, List.zip_cons_cons, settle?_cons, Slot.fill?_cons_self,
        settle?_cons_of_not_mem absent]
      cases slot.put? item with
      | none =>
        simp only [Option.map_none, settle?_none, bind, Option.bind_none, reduceCtorEq, and_false]
      | some put =>
        simp only [List.length_cons, Nat.add_right_cancel_iff, Nat.add_lt_add_iff_right]
        exact ih distinct

end Shape

end Pinpoint.Json

import Pinpoint.Json.Records
import Pinpoint.Proofs.Json.RoundTrip

/-! # Records read from written objects

A record is read from the written form of an object one member after the other: each member goes to
the field of its name, which takes the value off the text and puts it into the draft.
-/

namespace Pinpoint

namespace Binary64

/-- Rounding to a multiple goes up by less than that multiple. -/
theorem roundTo_le (unit n : Nat) : roundTo unit n ≤ n + unit := by
  have below : n / unit * unit ≤ n := Nat.div_mul_le_self n unit
  unfold roundTo
  dsimp only
  split
  · rw [Nat.add_mul, Nat.one_mul]
    omega
  · omega

theorem round_le {n : Nat} (positive : 0 < n) : round n ≤ 2 * n := by
  have unit : 2 ^ (n.log2 + 1 - precision) ≤ n :=
    calc 2 ^ (n.log2 + 1 - precision)
        ≤ 2 ^ n.log2 := Nat.pow_le_pow_right (by decide) (by unfold precision; omega)
      _ ≤ n := Nat.log2_self_le (Nat.ne_of_gt positive)
  calc round n
      ≤ n + 2 ^ (n.log2 + 1 - precision) := roundTo_le _ n
    _ ≤ 2 * n := by omega

end Binary64

namespace Json

/-! ## Numbers in range -/

theorem overflows_offset {n : Nat} (offset : n ≤ maxOffset) :
    Scaled.overflows ⟨n, 0⟩ = false := by
  rcases Nat.eq_zero_or_pos n with rfl | positive
  · rfl
  · have finite : Binary64.round n * Binary64.round (Nat.pow 10 0) < Binary64.overflow :=
      calc Binary64.round n * Binary64.round (Nat.pow 10 0)
          = Binary64.round n := Nat.mul_one _
        _ ≤ 2 * n := Binary64.round_le positive
        _ ≤ 2 * maxOffset := Nat.mul_le_mul_left 2 offset
        _ < Binary64.overflow := by decide +kernel
    have exponent : ¬ Scaled.maxExponent < 0 := Nat.not_lt_zero _
    change (n != 0 && (decide (Scaled.maxExponent < 0) ||
      decide (Binary64.overflow ≤ Binary64.round n * Binary64.round (Nat.pow 10 0)))) = false
    rw [decide_eq_false exponent, decide_eq_false (Nat.not_le_of_lt finite), Bool.or_self,
      Bool.and_false]

/-- No offset is too large for a double. -/
theorem inRange_ofNat {n : Nat} (offset : n ≤ maxOffset) : (Numeral.ofNat n).inRange = true := by
  have scaled : Scaled.ofNat n = ⟨n, 0⟩ := by
    rw [Scaled.ofNat, if_pos (show n ≤ Scaled.maxSignificand from offset)]
  simp only [Numeral.inRange, Numeral.ofNat, scaled, Scaled.addPlaces, overflows_offset offset,
    Bool.not_false]

/-! ## Single values -/

theorem readOffset_render {n : Nat} (offset : n ≤ maxOffset) {rest : Text} (ends : Ends rest) :
    readOffset ((ofNat n).render ++ rest) = .ok (n, rest) := by
  have read := readNumeral_render (.ofNat n) ends
  have whole : (Numeral.ofNat n).toNat? = some n := (Numeral.toNat?_eq_some_iff _ n).mpr rfl
  obtain ⟨c, text, same, starts⟩ := exists_render_eq_cons_startsNumeral (.ofNat n)
  rw [ofNat, render, same, List.cons_append]
  rw [same, List.cons_append] at read
  unfold readOffset
  simp only [skipSpace_cons_of_not_isSpace (not_isSpace_of_startsNumeral starts), starts, read,
    inRange_ofNat offset, whole, offset, ↓reduceIte]

theorem readText_render (text rest : Text) :
    readText ((string text).render ++ rest) = .ok (text, rest) := by
  have opened : readText ((string text).render ++ rest) =
      readString .keep (text.flatMap escape ++ ['"'] ++ rest) := rfl
  rw [opened, List.append_assoc, List.singleton_append, readString_flatMap_escape]

theorem readOptionalText_render (text rest : Text) :
    readOptionalText ((string text).render ++ rest) = .ok (some text, rest) := by
  have opened : readOptionalText ((string text).render ++ rest) =
      (readText ((string text).render ++ rest)).map fun read => (some read.1, read.2) := rfl
  rw [opened, readText_render]
  rfl

/-! ## Members -/

variable {δ α : Type}

/-- The field takes the written form of a value and makes one draft of another. -/
def Field.Takes (field : Field δ) (value : Json) (draft next : δ) : Prop :=
  ∀ rest, Ends rest → field.read draft (value.render ++ rest) = .ok (next, rest)

theorem Field.takes_of {β : Type} {value : Json} {found : β} {reader : Reader β} {name : String}
    {consumes : Consumes reader} {put : δ → β → δ} {draft : δ}
    (reads : ∀ rest, Ends rest → reader (value.render ++ rest) = .ok (found, rest)) :
    (Field.of name reader consumes put).Takes value draft (put draft found) := by
  intro rest ends
  change (reader (value.render ++ rest)).map _ = _
  rw [reads rest ends]
  rfl

theorem Field.takes_offset (name : String) (put : δ → Nat → δ) {n : Nat} (offset : n ≤ maxOffset)
    (draft : δ) : (Field.offset name put).Takes (.ofNat n) draft (put draft n) :=
  takes_of fun _ ends => readOffset_render offset ends

theorem Field.takes_optionalText (name : String) (put : δ → Option Text → δ) (text : Text)
    (draft : δ) :
    (Field.optionalText name put).Takes (.string text) draft (put draft (some text)) :=
  takes_of fun rest _ => readOptionalText_render text rest

namespace Shape

/-- Members go one after the other into the pending fields of their names. -/
inductive Gathers : Reading δ → List (Text × Json) → δ → Prop where
  | nil (reading : Reading δ) : Gathers reading [] reading.draft
  | cons {pending : List (Field δ)} {draft next final : δ} {name : Text} {value : Json}
    {members : List (Text × Json)} {field : Field δ}
    (found : pending.find? (·.name == name) = some field) (takes : field.Takes value draft next)
    (others : Gathers ⟨pending.eraseP (·.name == name), next⟩ members final) :
    Gathers ⟨pending, draft⟩ ((name, value) :: members) final

theorem readMember_of_takes (shape : Shape δ α) {pending : List (Field δ)} {draft next : δ}
    {name rest : Text} {value : Json} {field : Field δ}
    (found : pending.find? (·.name == name) = some field) (takes : field.Takes value draft next)
    (ends : Ends rest) :
    shape.readMember ⟨pending, draft⟩ (quote name ++ ':' :: (value.render ++ rest)) =
      .ok (⟨pending.eraseP (·.name == name), next⟩, rest) := by
  simp only [readMember, readName_quote, bind, Except.bind, found, readColon_colon,
    takes rest ends, pure, Except.pure]

theorem readMembers_eq_bind (shape : Shape δ α) (reading : Reading δ) (text : Text) :
    shape.readMembers reading text =
      shape.readMember reading text >>= fun (reading, text) =>
        readSeparator text >>= fun (more, text) =>
          if more then shape.readMembers reading text else .ok (reading.draft, text) := by
  rw [readMembers]
  split
  · next problem => rw [problem]; rfl
  · next member =>
    rw [member]
    split
    · next problem => simp only [bind, Except.bind, problem]
    · next separator => simp only [bind, Except.bind, separator, Bool.false_eq_true, ↓reduceIte]
    · next separator => simp only [bind, Except.bind, separator, ↓reduceIte]

theorem readMembers_of_gathers (shape : Shape δ α) {reading : Reading δ}
    {name : Text} {value : Json} {members : List (Text × Json)} {final : δ}
    (gathers : Gathers reading ((name, value) :: members) final) (rest : Text) :
    shape.readMembers reading
        (quote name ++ ':' :: (value.render ++ (renderMembers members ++ rest))) =
      .ok (final, rest) := by
  induction members generalizing reading name value with
  | nil =>
    cases gathers with
    | cons found takes others =>
      cases others
      rw [readMembers_eq_bind,
        readMember_of_takes shape found takes (ends_renderMembers [] rest)]
      rfl
  | cons member members ih =>
    obtain ⟨second, item⟩ := member
    cases gathers with
    | cons found takes others =>
      have separator : readSeparator (renderMembers ((second, item) :: members) ++ rest) =
          .ok (true, quote second ++ ':' :: (item.render ++ (renderMembers members ++ rest))) := by
        simp only [renderMembers, List.append_assoc, List.cons_append]
        rfl
      rw [readMembers_eq_bind, readMember_of_takes shape found takes (ends_renderMembers _ rest)]
      simp only [bind, Except.bind, separator, ↓reduceIte]
      exact ih others

theorem read_brace (shape : Shape δ α) {text rest : Text} {draft : δ} {record : α}
    (read : shape.readObject text = .ok (draft, rest)) (finish : shape.finish draft = some record) :
    shape.read ('\x7b' :: text) = .ok (record, rest) := by
  unfold Shape.read
  rw [skipSpace_cons_of_not_isSpace (by decide)]
  simp only [↓reduceIte, read, finished, finish, bind, Except.bind, pure, Except.pure]

/-- A record is read from the written form of an object whose members make the draft of it. -/
theorem read_render_of_gathers (shape : Shape δ α) {members : List (Text × Json)} {final : δ}
    {record : α} (gathers : Gathers ⟨shape.fields, shape.blank⟩ members final)
    (finish : shape.finish final = some record) (rest : Text) :
    shape.read ((object members).render ++ rest) = .ok (record, rest) := by
  rcases members with _ | ⟨⟨name, value⟩, members⟩
  · cases gathers
    exact shape.read_brace rfl finish
  · simp only [render, List.append_assoc, List.cons_append]
    exact shape.read_brace (shape.readMembers_of_gathers gathers rest) finish

theorem ofText_render_of_gathers (shape : Shape δ α) {members : List (Text × Json)} {final : δ}
    {record : α} (gathers : Gathers ⟨shape.fields, shape.blank⟩ members final)
    (finish : shape.finish final = some record) :
    shape.ofText (object members).render = .ok record := by
  have whole := shape.read_render_of_gathers gathers finish []
  rw [List.append_nil] at whole
  rw [ofText, complete, whole]
  rfl

end Shape

end Json

end Pinpoint

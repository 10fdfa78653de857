import Mathlib.Data.List.DropRight
import Pinpoint.Proofs.Json.RoundTrip

/-! # What stands in the text of a value

A text that was read as an array holds its items one after the other, each of which reads as a
value of its own, and a text that was read as an object holds its members in the same way. The
reader goes through nested values with a stack of open frames and no recursion of its own, so the
first fact is that the frames further out do not matter until those further in are closed. Blanks
may stand between the words of the text, and names may be written with escapes.
-/

namespace Pinpoint.Json

variable {purpose : Purpose}

/-! ## Open frames -/

/-- A value is read in its inner frames first and then in the outer ones. -/
theorem readRest_append (inner outer : List Frame) (progress : Progress) (text : Text) :
    readRest purpose (inner ++ outer) progress text =
      readRest purpose inner progress text >>= fun (value, rest) =>
        readRest purpose outer (.complete value) rest := by
  fun_induction readRest purpose inner progress text with
  | case1 => rfl
  | case2 frame frames value text problem failed =>
    rw [List.cons_append, readRest_complete, failed]
    rfl
  | case3 frame frames value text progress rest read ih =>
    rw [List.cons_append, readRest_complete, read]
    exact ih
  | case4 frame frames text problem failed =>
    rw [readRest_within, readOn, failed]
    rfl
  | case5 frame frames text progress rest read ih =>
    rw [readRest_within, readOn, read]
    exact ih

/-- Within frames, a value is read to its end before the frames are looked at. -/
theorem readOn_eq_bind (frames : List Frame) (text : Text) :
    readOn purpose frames text =
      readValue purpose text >>= fun (value, rest) =>
        readRest purpose frames (.complete value) rest := by
  rw [readOn, readValue]
  cases front : readFront purpose text with
  | error problem => rfl
  | ok read => exact readRest_append [] frames read.1 read.2

/-! ## Blanks -/

theorem skipSpace_skipSpace (text : Text) : skipSpace (skipSpace text) = skipSpace text :=
  List.dropWhile_idempotent isSpace text

/-- Blanks in front of a value are passed over. -/
theorem readValue_skipSpace (text : Text) :
    readValue purpose (skipSpace text) = readValue purpose text := by
  rw [readValue, readValue, readFront, readFront, skipSpace_skipSpace]

/-! ## Items and members -/

/-- The items of an array that follow one, and the text behind the array. -/
inductive ItemsBehind : Text → List Json → Text → Prop where
  | closed {text rest : Text} (ended : skipSpace text = ']' :: rest) : ItemsBehind text [] rest
  | more {text next behind rest : Text} {value : Json} {items : List Json}
    (comma : skipSpace text = ',' :: next) (item : readValue .keep next = .ok (value, behind))
    (others : ItemsBehind behind items rest) : ItemsBehind text (value :: items) rest

/-- The members of an object that follow one, and the text behind the object. -/
inductive MembersBehind : Text → List (Text × Json) → Text → Prop where
  | closed {text rest : Text} (ended : skipSpace text = '\x7d' :: rest) : MembersBehind text [] rest
  | more {text next named behind rest : Text} {name : Text} {value : Json}
    {members : List (Text × Json)} (comma : skipSpace text = ',' :: next)
    (key : readKey .keep (skipSpace next) = .ok (name, named))
    (item : readValue .keep named = .ok (value, behind))
    (others : MembersBehind behind members rest) :
    MembersBehind text ((name, value) :: members) rest

/-- The items behind the bracket of an array. -/
inductive Items : Text → List Json → Text → Prop where
  | empty {text rest : Text} (ended : skipSpace text = ']' :: rest) : Items text [] rest
  | first {text behind rest : Text} {value : Json} {items : List Json}
    (item : readValue .keep text = .ok (value, behind))
    (others : ItemsBehind behind items rest) : Items text (value :: items) rest

/-- The members behind the brace of an object. -/
inductive Members : Text → List (Text × Json) → Text → Prop where
  | empty {text rest : Text} (ended : skipSpace text = '\x7d' :: rest) : Members text [] rest
  | first {text named behind rest : Text} {name : Text} {value : Json}
    {members : List (Text × Json)} (key : readKey .keep (skipSpace text) = .ok (name, named))
    (item : readValue .keep named = .ok (value, behind))
    (others : MembersBehind behind members rest) : Members text ((name, value) :: members) rest

theorem readNext_array_eq_ok_iff {done : List Json} {value : Json} {text rest : Text}
    {progress : Progress} :
    (Frame.array done).readNext purpose value text = .ok (progress, rest) ↔
      (skipSpace text = ',' :: rest ∧ progress = .within (.array (value :: done))) ∨
      (skipSpace text = ']' :: rest ∧ progress = .complete (.array (value :: done).reverse)) := by
  unfold Frame.readNext
  constructor
  · intro success
    split at success
    · cases success
    · next opened spaced =>
      cases opened
      split at success
      · next comma => cases success; exact .inl ⟨by rw [spaced, comma], rfl⟩
      · split at success
        · next bracket => cases success; exact .inr ⟨by rw [spaced, bracket], rfl⟩
        · cases success
    · next opened _ => cases opened
  · rintro (⟨comma, rfl⟩ | ⟨ended, rfl⟩)
    · simp only [comma, ↓reduceIte]
    · simp only [ended, Char.reduceEq, ↓reduceIte]

theorem readNext_object_eq_ok_iff {done : List (Text × Json)} {key : Text} {value : Json}
    {text rest : Text} {progress : Progress} :
    (Frame.object done key).readNext purpose value text = .ok (progress, rest) ↔
      (∃ next name, skipSpace text = ',' :: next ∧
        readKey purpose (skipSpace next) = .ok (name, rest) ∧
        progress = .within (.object ((key, value) :: done) name)) ∨
      (skipSpace text = '\x7d' :: rest ∧
        progress = .complete (.object ((key, value) :: done).reverse)) := by
  unfold Frame.readNext
  constructor
  · intro success
    split at success
    · cases success
    · next opened _ => cases opened
    · next tail opened spaced =>
      cases opened
      split at success
      · next comma =>
        obtain ⟨⟨name, _⟩, read, same⟩ := map_eq_ok_iff.mp success
        cases same
        exact .inl ⟨tail, name, by rw [spaced, comma], read, rfl⟩
      · split at success
        · next brace => cases success; exact .inr ⟨by rw [spaced, brace], rfl⟩
        · cases success
  · rintro (⟨next, name, comma, read, rfl⟩ | ⟨ended, rfl⟩)
    · simp only [comma, read, ↓reduceIte]
      rfl
    · simp only [ended, Char.reduceEq, ↓reduceIte]

theorem readRest_complete_eq_ok {value result : Json} {text rest : Text}
    (success : readRest purpose [] (.complete value) text = .ok (result, rest)) :
    result = value ∧ rest = text := by
  rw [readRest] at success
  cases success
  exact ⟨rfl, rfl⟩

/-- The array that an open frame becomes has the items read before, the last one, and those that
follow it in the text. -/
theorem itemsBehind_of_readRest {done : List Json} {last result : Json} {text rest : Text}
    (success : readRest .keep [.array done] (.complete last) text = .ok (result, rest)) :
    ∃ items, result = .array (done.reverse ++ last :: items) ∧ ItemsBehind text items rest := by
  induction size : text.length using Nat.strongRecOn generalizing done last text with
  | ind _ ih =>
    rw [readRest_complete] at success
    obtain ⟨⟨progress, next⟩, step, success⟩ := bind_eq_ok_iff.mp success
    have shorter := Frame.length_lt_of_readNext step
    rcases readNext_array_eq_ok_iff.mp step with ⟨comma, rfl⟩ | ⟨ended, rfl⟩
    · simp only [readRest_within, readOn_eq_bind] at success
      obtain ⟨⟨value, behind⟩, item, success⟩ := bind_eq_ok_iff.mp success
      have := length_lt_of_readValue item
      obtain ⟨items, rfl, others⟩ := ih behind.length (by omega) success rfl
      refine ⟨value :: items, ?_, .more comma item others⟩
      rw [List.reverse_cons, List.append_assoc, List.singleton_append]
    · obtain ⟨rfl, rfl⟩ := readRest_complete_eq_ok success
      exact ⟨[], by rw [List.reverse_cons], .closed ended⟩

/-- The object that an open frame becomes has the members read before, the last one, and those that
follow it in the text. -/
theorem membersBehind_of_readRest {done : List (Text × Json)} {key : Text} {last result : Json}
    {text rest : Text}
    (success : readRest .keep [.object done key] (.complete last) text = .ok (result, rest)) :
    ∃ members, result = .object (done.reverse ++ (key, last) :: members) ∧
      MembersBehind text members rest := by
  induction size : text.length using Nat.strongRecOn generalizing done key last text with
  | ind _ ih =>
    rw [readRest_complete] at success
    obtain ⟨⟨progress, named⟩, step, success⟩ := bind_eq_ok_iff.mp success
    have shorter := Frame.length_lt_of_readNext step
    rcases readNext_object_eq_ok_iff.mp step with ⟨next, name, comma, read, rfl⟩ | ⟨ended, rfl⟩
    · simp only [readRest_within, readOn_eq_bind] at success
      obtain ⟨⟨value, behind⟩, item, success⟩ := bind_eq_ok_iff.mp success
      have := length_lt_of_readValue item
      obtain ⟨members, rfl, others⟩ := ih behind.length (by omega) success rfl
      refine ⟨(name, value) :: members, ?_, .more comma read item others⟩
      rw [List.reverse_cons, List.append_assoc, List.singleton_append]
    · obtain ⟨rfl, rfl⟩ := readRest_complete_eq_ok success
      exact ⟨[], by rw [List.reverse_cons], .closed ended⟩

/-! ## Values by their first character -/

/-- How a value that is kept stands in a text, by its first character. -/
inductive Stands : Char → Text → Json → Text → Prop where
  | null {text rest : Text} (word : readWord "ull".toList text = .ok rest) :
    Stands 'n' text .null rest
  | boolean {c : Char} {text rest : Text} {value : Bool} (letter : c = 't' ∨ c = 'f') :
    Stands c text (.boolean value) rest
  | number {c : Char} {text rest : Text} {numeral : Numeral} (starts : startsNumeral c = true)
    (read : readNumeral (c :: text) = .ok (numeral, rest)) : Stands c text (.number numeral) rest
  | string {text body rest : Text} (read : readString .keep text = .ok (body, rest)) :
    Stands '"' text (.string body) rest
  | array {text rest : Text} {items : List Json} (holds : Items text items rest) :
    Stands '[' text (.array items) rest
  | object {text rest : Text} {members : List (Text × Json)} (holds : Members text members rest) :
    Stands '\x7b' text (.object members) rest

/-- No value starts with the end of an array. -/
theorem Stands.ne_bracket {c : Char} {text rest : Text} {value : Json}
    (stands : Stands c text value rest) : c ≠ ']' := by
  cases stands with
  | number starts => exact ne_of_startsNumeral starts (by decide)
  | boolean letter => rcases letter with rfl | rfl <;> decide
  | null | string | array | object => decide

theorem stands_of_readScalar {c : Char} {text rest : Text} {value : Json}
    (success : readScalar .keep (c :: text) = .ok (value, rest)) : Stands c text value rest := by
  unfold readScalar at success
  simp only at success
  split at success
  · next quote =>
    obtain ⟨⟨body, _⟩, read, same⟩ := map_eq_ok_iff.mp success
    cases same
    exact quote ▸ .string read
  split at success
  · next letter =>
    obtain ⟨_, word, same⟩ := map_eq_ok_iff.mp success
    cases same
    exact letter ▸ .null word
  split at success
  · next letter =>
    obtain ⟨_, word, same⟩ := map_eq_ok_iff.mp success
    cases same
    exact .boolean (.inl letter)
  split at success
  · next letter =>
    obtain ⟨_, word, same⟩ := map_eq_ok_iff.mp success
    cases same
    exact .boolean (.inr letter)
  split at success
  · next starts =>
    split at success
    · next read => cases success; exact .number starts read
    · cases success
    · cases success
  · cases success

/-- Whatever is read as a value stands there as one. -/
theorem exists_stands_of_readValue {text rest : Text} {value : Json}
    (success : readValue .keep text = .ok (value, rest)) :
    ∃ c tail, skipSpace text = c :: tail ∧ Stands c tail value rest := by
  obtain ⟨⟨progress, opened⟩, front, success⟩ := bind_eq_ok_iff.mp success
  unfold readFront at front
  split at front
  · cases front
  · next c tail spaced =>
    refine ⟨c, tail, spaced, ?_⟩
    split at front
    · next bracket =>
      subst bracket
      split at front
      · next closed =>
        cases front
        obtain ⟨rfl, rfl⟩ := readRest_complete_eq_ok success
        exact .array (.empty closed)
      · cases front
        simp only [readRest_within, readOn_eq_bind, readValue_skipSpace] at success
        obtain ⟨⟨first, behind⟩, item, success⟩ := bind_eq_ok_iff.mp success
        obtain ⟨items, rfl, others⟩ := itemsBehind_of_readRest success
        exact .array (.first item others)
    split at front
    · next brace =>
      subst brace
      split at front
      · next closed =>
        cases front
        obtain ⟨rfl, rfl⟩ := readRest_complete_eq_ok success
        exact .object (.empty closed)
      · obtain ⟨⟨key, named⟩, read, same⟩ := map_eq_ok_iff.mp front
        cases same
        simp only [readRest_within, readOn_eq_bind] at success
        obtain ⟨⟨first, behind⟩, item, success⟩ := bind_eq_ok_iff.mp success
        obtain ⟨members, rfl, others⟩ := membersBehind_of_readRest success
        exact .object (.first read item others)
    · obtain ⟨⟨scalar, _⟩, read, same⟩ := map_eq_ok_iff.mp front
      cases same
      obtain ⟨rfl, rfl⟩ := readRest_complete_eq_ok success
      exact stands_of_readScalar read

end Pinpoint.Json

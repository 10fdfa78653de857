import Pinpoint.Json.Reader
import Pinpoint.Proofs.Json.Lexical

/-! # Reading back what is written

A value that has been written is read back as it was, whatever stands behind it that does not
continue a numeral, and however many arrays and objects are open around it. The reader keeps these
in a stack of frames, so the statement by which the proof goes is about a value inside any frames:
its written form is read and the frames are left with the value complete.
-/

namespace Pinpoint.Json

variable {purpose : Purpose}

/-! ## Blanks -/

theorem skipSpace_cons_of_not_isSpace {c : Char} (solid : isSpace c = false) (text : Text) :
    skipSpace (c :: text) = c :: text :=
  List.dropWhile_cons_of_neg (by simp [solid])

theorem readColon_colon (text : Text) : readColon (':' :: text) = .ok text := rfl

/-! ## Keys -/

theorem readName_quote (name rest : Text) :
    readName purpose (quote name ++ rest) = .ok (name, rest) := by
  rw [quote, List.cons_append, List.cons_append, readName, if_pos rfl, List.append_assoc,
    List.singleton_append, readString_flatMap_escape]

theorem readKey_quote (key rest : Text) :
    readKey purpose (quote key ++ ':' :: rest) = .ok (key, rest) := by
  rw [readKey, readName_quote]
  rfl

/-! ## The start of a value -/

theorem not_isSpace_of_startsNumeral {c : Char} (starts : startsNumeral c = true) :
    isSpace c = false := by
  cases spaced : isSpace c with
  | false => rfl
  | true =>
    have blank : ((c = ' ' ∨ c = '\t') ∨ c = '\n') ∨ c = '\r' := by simpa [isSpace] using spaced
    rcases blank with ((rfl | rfl) | rfl) | rfl <;> cases starts

/-- The written form of a value starts with a word of its own, not with the end of an array. -/
theorem exists_render_eq_cons (value : Json) :
    ∃ c text, value.render = c :: text ∧ isSpace c = false ∧ c ≠ ']' := by
  cases value with
  | null => exact ⟨'n', _, rfl, by decide⟩
  | boolean value => cases value <;> exact ⟨_, _, rfl, by decide⟩
  | number numeral =>
    obtain ⟨c, text, same, starts⟩ := exists_render_eq_cons_startsNumeral numeral
    exact ⟨c, text, by rw [render, same], not_isSpace_of_startsNumeral starts,
      ne_of_startsNumeral starts (by decide)⟩
  | string text => exact ⟨'"', _, rfl, by decide⟩
  | array items => cases items <;> exact ⟨'[', _, by rw [render]; rfl, by decide⟩
  | object members =>
    rcases members with _ | ⟨⟨key, value⟩, members⟩ <;>
      exact ⟨'\x7b', _, by rw [render]; rfl, by decide⟩

/-! ## Values within frames -/

/-- Reads a value within the given frames and on until they are closed. -/
def readOn (purpose : Purpose) (frames : List Frame) (text : Text) :
    Except ReadError (Json × Text) := do
  let (progress, rest) ← readFront purpose text
  readRest purpose frames progress rest

theorem readRest_within (frame : Frame) (frames : List Frame) (text : Text) :
    readRest purpose frames (.within frame) text = readOn purpose (frame :: frames) text := by
  rw [readRest, readOn]
  split
  · next problem => rw [problem]; rfl
  · next read => rw [read]; rfl

theorem readRest_complete (value : Json) (frame : Frame) (frames : List Frame) (text : Text) :
    readRest purpose (frame :: frames) (.complete value) text =
      frame.readNext purpose value text >>= fun (progress, rest) =>
        readRest purpose frames progress rest := by
  rw [readRest]
  split
  · next problem => rw [problem]; rfl
  · next read => rw [read]; rfl

theorem readOn_of_readScalar {c : Char} {text rest : Text} {value : Json} (frames : List Frame)
    (word : isSpace c = false ∧ c ≠ '[' ∧ c ≠ '\x7b')
    (read : readScalar purpose (c :: text) = .ok (value, rest)) :
    readOn purpose frames (c :: text) = readRest purpose frames (.complete value) rest := by
  obtain ⟨solid, bracket, brace⟩ := word
  have front : readFront purpose (c :: text) = .ok (.complete value, rest) := by
    rw [readFront, skipSpace_cons_of_not_isSpace solid]
    simp only [if_neg bracket, if_neg brace, read]
    rfl
  rw [readOn, front]
  rfl

theorem readOn_numeral (numeral : Numeral) (frames : List Frame) {rest : Text}
    (ends : Ends rest) :
    readOn purpose frames (numeral.render ++ rest) =
      readRest purpose frames (.complete (.number numeral)) rest := by
  have numeralRead := readNumeral_render numeral ends
  obtain ⟨c, text, same, starts⟩ := exists_render_eq_cons_startsNumeral numeral
  rw [same, List.cons_append] at numeralRead ⊢
  have other {word : Char} (apart : startsNumeral word = false) : c ≠ word :=
    ne_of_startsNumeral starts apart
  have read : readScalar purpose (c :: (text ++ rest)) = .ok (.number numeral, rest) := by
    unfold readScalar
    simp only [other (by decide : startsNumeral '"' = false),
      other (by decide : startsNumeral 'n' = false), other (by decide : startsNumeral 't' = false),
      other (by decide : startsNumeral 'f' = false), starts, numeralRead, ↓reduceIte]
  exact readOn_of_readScalar frames
    ⟨not_isSpace_of_startsNumeral starts, other (by decide), other (by decide)⟩ read

theorem readOn_quote (text : Text) (frames : List Frame) (rest : Text) :
    readOn purpose frames (quote text ++ rest) =
      readRest purpose frames (.complete (.string text)) rest := by
  have read : readScalar purpose (quote text ++ rest) = .ok (.string text, rest) := by
    have opened : readScalar purpose (quote text ++ rest) =
        (readString purpose (text.flatMap escape ++ ['"'] ++ rest)).map fun read =>
          (.string read.1, read.2) := rfl
    rw [opened, List.append_assoc, List.singleton_append, readString_flatMap_escape]
    rfl
  exact readOn_of_readScalar frames (by decide) read

/-- Behind the bracket of an array the first item follows. -/
theorem readOn_array (item : Json) (frames : List Frame) (text : Text) :
    readOn purpose frames ('[' :: (item.render ++ text)) =
      readOn purpose (.array [] :: frames) (item.render ++ text) := by
  obtain ⟨c, tail, same, solid, bracket⟩ := exists_render_eq_cons item
  have front : readFront purpose ('[' :: (item.render ++ text)) =
      .ok (.within (.array []), item.render ++ text) := by
    rw [same, List.cons_append, readFront, skipSpace_cons_of_not_isSpace (by decide)]
    simp only [↓reduceIte, skipSpace_cons_of_not_isSpace solid]
    split
    · next starts => cases starts; exact absurd rfl bracket
    · rfl
  rw [readOn, front]
  exact readRest_within ..

/-- Behind the brace of an object the first key and its value follow. -/
theorem readOn_object (key : Text) (frames : List Frame) (text : Text) :
    readOn purpose frames ('\x7b' :: (quote key ++ ':' :: text)) =
      readOn purpose (.object [] key :: frames) text := by
  have front : readFront purpose ('\x7b' :: (quote key ++ ':' :: text)) =
      .ok (.within (.object [] key), text) := by
    have read : readKey purpose (quote key ++ ':' :: text) = .ok (key, text) :=
      readKey_quote key text
    rw [quote, List.cons_append, List.cons_append] at read ⊢
    rw [readFront, skipSpace_cons_of_not_isSpace (by decide)]
    simp only [Char.reduceEq, ↓reduceIte,
      skipSpace_cons_of_not_isSpace (by decide : isSpace '"' = false)]
    split
    · next starts => cases starts
    · rw [read]; rfl
  rw [readOn, front]
  exact readRest_within ..

theorem readRest_comma (done : List Json) (last : Json) (frames : List Frame) (text : Text) :
    readRest purpose (.array done :: frames) (.complete last) (',' :: text) =
      readOn purpose (.array (last :: done) :: frames) text := by
  rw [readRest_complete]
  exact readRest_within ..

theorem readRest_bracket (done : List Json) (last : Json) (frames : List Frame) (text : Text) :
    readRest purpose (.array done :: frames) (.complete last) (']' :: text) =
      readRest purpose frames (.complete (.array (last :: done).reverse)) text := by
  rw [readRest_complete]
  rfl

theorem readRest_comma_key (done : List (Text × Json)) (key next : Text) (last : Json)
    (frames : List Frame) (text : Text) :
    readRest purpose (.object done key :: frames) (.complete last)
        (',' :: (quote next ++ ':' :: text)) =
      readOn purpose (.object ((key, last) :: done) next :: frames) text := by
  have follows :
      (Frame.object done key).readNext purpose last (',' :: (quote next ++ ':' :: text)) =
        (readKey purpose (quote next ++ ':' :: text)).map fun read =>
          (.within (.object ((key, last) :: done) read.1), read.2) := rfl
  rw [readRest_complete, follows, readKey_quote]
  exact readRest_within ..

theorem readRest_brace (done : List (Text × Json)) (key : Text) (last : Json)
    (frames : List Frame) (text : Text) :
    readRest purpose (.object done key :: frames) (.complete last) ('\x7d' :: text) =
      readRest purpose frames (.complete (.object ((key, last) :: done).reverse)) text := by
  rw [readRest_complete]
  rfl

/-! ## Whole values

A value inside an array or an object is read with one frame more, so the three statements by
recursion on the value, its items and its members speak of any frames. What was read before in the
innermost frame is kept there in reverse. -/

theorem ends_renderItems (items : List Json) (rest : Text) : Ends (renderItems items ++ rest) := by
  cases items <;> exact ends_cons (by decide)

theorem ends_renderMembers (members : List (Text × Json)) (rest : Text) :
    Ends (renderMembers members ++ rest) := by
  rcases members with _ | ⟨⟨key, value⟩, members⟩ <;> exact ends_cons (by decide)

mutual

/-- Within any frames, the written form of a value completes that value. -/
theorem readOn_render (value : Json) (frames : List Frame) {rest : Text} (ends : Ends rest) :
    readOn purpose frames (value.render ++ rest) =
      readRest purpose frames (.complete value) rest := by
  match value with
  | .null => exact readOn_of_readScalar frames (by decide) rfl
  | .boolean true => exact readOn_of_readScalar frames (by decide) rfl
  | .boolean false => exact readOn_of_readScalar frames (by decide) rfl
  | .number numeral => exact readOn_numeral numeral frames ends
  | .string text => exact readOn_quote text frames rest
  | .array [] => rfl
  | .array (item :: items) =>
    rw [render, List.append_assoc, List.cons_append, readOn_array,
      readOn_render item _ (ends_renderItems items rest), readRest_renderItems item items]
    rfl
  | .object [] => rfl
  | .object ((key, item) :: members) =>
    simp only [render, List.append_assoc, List.cons_append]
    rw [readOn_object, readOn_render item _ (ends_renderMembers members rest),
      readRest_renderMembers key item members]
    rfl

/-- In an array, the items that follow one and the end of the array complete the array. -/
theorem readRest_renderItems (last : Json) (items done : List Json) (frames : List Frame)
    (rest : Text) :
    readRest purpose (.array done :: frames) (.complete last) (renderItems items ++ rest) =
      readRest purpose frames (.complete (.array (done.reverse ++ last :: items))) rest := by
  match items with
  | [] =>
    rw [← List.reverse_cons]
    exact readRest_bracket ..
  | item :: items =>
    rw [renderItems, List.append_assoc, List.cons_append, readRest_comma,
      readOn_render item _ (ends_renderItems items rest), readRest_renderItems item items,
      List.reverse_cons, List.append_assoc, List.singleton_append]

/-- In an object, the members that follow one and the end of the object complete the object. -/
theorem readRest_renderMembers (key : Text) (last : Json) (members done : List (Text × Json))
    (frames : List Frame) (rest : Text) :
    readRest purpose (.object done key :: frames) (.complete last)
        (renderMembers members ++ rest) =
      readRest purpose frames (.complete (.object (done.reverse ++ (key, last) :: members)))
        rest := by
  match members with
  | [] =>
    rw [← List.reverse_cons]
    exact readRest_brace ..
  | (next, item) :: members =>
    simp only [renderMembers, List.append_assoc, List.cons_append]
    rw [readRest_comma_key, readOn_render item _ (ends_renderMembers members rest),
      readRest_renderMembers next item members, List.reverse_cons, List.append_assoc,
      List.singleton_append]

end

/-- A value is read back from its written form. -/
theorem readValue_render (value : Json) {rest : Text} (ends : Ends rest) :
    readValue purpose (value.render ++ rest) = .ok (value, rest) := by
  have within : readValue purpose (value.render ++ rest) =
      readRest purpose [] (.complete value) rest := readOn_render value [] ends
  rw [within, readRest]

/-- The text that a value is written as writes that value. -/
theorem read_render (value : Json) : read value.render = .ok value := by
  have whole : readValue .keep (value.render ++ []) = .ok (value, []) :=
    readValue_render value ends_nil
  rw [List.append_nil] at whole
  rw [read, complete, whole]
  rfl

end Pinpoint.Json

import Pinpoint.Proofs.Toml.Reader
import Pinpoint.Toml.Writer

/-! # Reading back TOML strings

A string in quotation marks is read back, however its characters are written. Its quotation marks
are not taken for those of a string of several lines, which has three of them in a row: behind the
first one stands a character that is no quotation mark, or the one that ends the string and behind
it something else.
-/

namespace Pinpoint.Toml

/-! ## Escapes -/

theorem leadingHex?_append {digits : Text} (text : Text) :
    (digits ++ text).leadingHex? digits.length = Text.ofHex? digits := by
  rw [Text.leadingHex?, if_neg (Nat.not_lt.mpr (by simp)), List.take_left]

/-- The digits of a character's code point are read back, whatever follows. -/
theorem codePoint?_append {c : Char} {digits : Text} {count : Nat} (length : digits.length = count)
    (code : Text.ofHex? digits = some c.toNat) (text : Text) :
    codePoint? count (digits ++ text) = some c := by
  subst length
  have valid : c.toNat.isValidChar := c.valid
  simp only [codePoint?, leadingHex?_append, code, Option.bind_eq_bind, Option.bind_some,
    if_pos valid, Char.ofNat_toNat]

/-- A letter that stands for a character does not start a code point. -/
theorem escape?_of_unescape? {letter c : Char} (stands : unescape? letter = some c) (text : Text) :
    escape? (letter :: text) = some (c, 1) := by
  have short : letter ≠ 'u' := by
    rintro rfl
    cases stands
  have long : letter ≠ 'U' := by
    rintro rfl
    cases stands
  rw [escape?, if_neg short, if_neg long, stands]
  rfl

/-! ## Strings -/

variable {text rest : Text}

/-- An escape is read back with what follows. -/
theorem basicBody_escape {c : Char} (escaped : Text)
    (read : escape? (escaped ++ text) = some (c, escaped.length)) :
    basicBody ('\\' :: (escaped ++ text)) =
      (basicBody text).map fun (tail, rest) => (c :: tail, rest) := by
  rw [basicBody, if_neg (by decide), if_pos rfl, read]
  simp only [List.drop_left]

/-- A character is read back from any way in which it is written. -/
theorem basicBody_written (spelling : Spelling) (text : Text) :
    basicBody (spelling.written ++ text) =
      (basicBody text).map fun (tail, rest) => (spelling.char :: tail, rest) := by
  obtain ⟨c, written, spells⟩ := spelling
  cases spells with
  | plain printable solid =>
    rw [List.singleton_append, basicBody, if_neg solid.1, if_neg solid.2, if_pos printable]
  | letter letter stands => exact basicBody_escape [letter] (escape?_of_unescape? stands text)
  | short digits four code =>
    refine basicBody_escape ('u' :: digits) ?_
    rw [List.cons_append, escape?, if_pos rfl, codePoint?_append four code, List.length_cons, four]
    rfl
  | long digits eight code =>
    refine basicBody_escape ('U' :: digits) ?_
    rw [List.cons_append, escape?, if_neg (by decide), if_pos rfl, codePoint?_append eight code,
      List.length_cons, eight]
    rfl

theorem reads_basicBody (spellings : List Spelling) (rest : Text) :
    Reads basicBody (spellings.flatMap (·.written) ++ '"' :: rest) (spelled spellings) rest := by
  unfold Reads
  induction spellings with
  | nil =>
    rw [List.flatMap_nil, List.nil_append, basicBody, if_pos rfl]
    rfl
  | cons spelling spellings ih =>
    rw [List.flatMap_cons, List.append_assoc, basicBody_written, ih]
    rfl

theorem quoted_append (spellings : List Spelling) (rest : Text) :
    quoted spellings ++ rest = '"' :: (spellings.flatMap (·.written) ++ '"' :: rest) := by
  rw [quoted, List.cons_append, List.append_assoc, List.singleton_append]

theorem reads_basicString (spellings : List Spelling) (rest : Text) :
    Reads basicString (quoted spellings ++ rest) (spelled spellings) rest := by
  rw [quoted_append]
  exact (reads_char _ _).bind (reads_basicBody spellings rest)

/-- What is written of a character does not start with a quotation mark. -/
theorem exists_written_eq_cons (spelling : Spelling) :
    ∃ first tail, spelling.written = first :: tail ∧ first ≠ '"' := by
  obtain ⟨c, written, spells⟩ := spelling
  cases spells with
  | plain printable solid => exact ⟨c, [], rfl, solid.1⟩
  | letter letter stands => exact ⟨'\\', [letter], rfl, by decide⟩
  | short digits four code => exact ⟨'\\', 'u' :: digits, rfl, by decide⟩
  | long digits eight code => exact ⟨'\\', 'U' :: digits, rfl, by decide⟩

/-- Behind a string stands no third quotation mark in a row. -/
theorem not_isPrefix_quoted (spellings : List Spelling) (other : rest.head? ≠ some '"') :
    ¬ ['"', '"', '"'] <+: quoted spellings ++ rest := by
  rw [quoted_append, List.cons_prefix_cons]
  rintro ⟨-, marks⟩
  cases spellings with
  | nil =>
    obtain ⟨-, behind, rfl⟩ := List.cons_prefix_cons.mp marks
    exact other rfl
  | cons spelling spellings =>
    obtain ⟨first, tail, written, second⟩ := exists_written_eq_cons spelling
    rw [List.flatMap_cons, written] at marks
    exact second (List.cons_prefix_cons.mp marks).1.symm

/-- A string is read back, unless a quotation mark follows. -/
theorem reads_string (spellings : List Spelling) (other : rest.head? ≠ some '"') :
    Reads string (quoted spellings ++ rest) (spelled spellings) rest := by
  have single : Fails (multilineString '"' true) (quoted spellings ++ rest) :=
    (fails_word (not_isPrefix_quoted spellings other)).bind _
  exact single.orElse ((reads_basicString spellings rest).orElse _)

/-- Where there is neither a quotation mark nor an apostrophe, there is no string. -/
theorem fails_string (marks : ∀ c ∈ text.head?, c ≠ '"' ∧ c ≠ '\'') : Fails string text := by
  have quotation : text.head? ≠ some '"' := fun mark => (marks '"' mark).1 rfl
  have apostrophe : text.head? ≠ some '\'' := fun mark => (marks '\'' mark).2 rfl
  exact ((fails_word_cons quotation).bind _).orElse_fails
    (((fails_char quotation).bind _).orElse_fails
      (((fails_word_cons apostrophe).bind _).orElse_fails ((fails_char apostrophe).bind _)))

end Pinpoint.Toml

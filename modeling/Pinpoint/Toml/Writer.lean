import Pinpoint.Toml.Strings

/-! # Writing TOML

A document is written line by line. A string stands in quotation marks, and whoever writes it has
a choice for every character: most of them can stand for themselves, some have a letter that stands
for them behind a backslash, and the code point of any character can be written in hexadecimal
digits of either case, four where they are enough or eight.
-/

namespace Pinpoint.Toml

/-! ## Strings -/

/-- The ways in which a character is written in a string in quotation marks: as itself, by a letter
behind a backslash, or by four or eight digits for its code point. -/
inductive Spells (c : Char) : Text → Prop where
  | plain (printable : isPrintable c = true) (solid : c ≠ '"' ∧ c ≠ '\\') : Spells c [c]
  | letter (letter : Char) (stands : unescape? letter = some c) : Spells c ['\\', letter]
  | short (digits : Text) (four : digits.length = 4) (code : Text.ofHex? digits = some c.toNat) :
    Spells c ('\\' :: 'u' :: digits)
  | long (digits : Text) (eight : digits.length = 8) (code : Text.ofHex? digits = some c.toNat) :
    Spells c ('\\' :: 'U' :: digits)

/-- A character with a way in which it is written. -/
structure Spelling where
  char : Char
  written : Text
  spells : Spells char written

/-- The characters that cannot stand for themselves have small code points. -/
theorem toNat_lt_of_not_plain {c : Char} (escaped : ¬ (isPrintable c = true ∧ c ≠ '"' ∧ c ≠ '\\')) :
    c.toNat < 256 := by
  apply Nat.lt_of_not_ge
  intro large
  refine escaped ⟨?_, ?_, ?_⟩
  · have above : '\x20' ≤ c := Char.le_def.mpr (UInt32.le_iff_toNat_le.mpr (by
      change 32 ≤ c.toNat
      omega))
    have other : c ≠ '\x7f' := by
      rintro rfl
      exact absurd large (by decide)
    simp only [isPrintable, above, bne_iff_ne.mpr other, decide_true, Bool.and_true, Bool.or_true]
  · rintro rfl
    exact absurd large (by decide)
  · rintro rfl
    exact absurd large (by decide)

/-- A character stands for itself where it can, and else its code point is written. -/
def Spelling.ofChar (c : Char) : Spelling :=
  if plain : isPrintable c = true ∧ c ≠ '"' ∧ c ≠ '\\' then ⟨c, [c], .plain plain.1 plain.2⟩
  else
    ⟨c, _, .short ['0', '0', (c.toNat / 16).digitChar, (c.toNat % 16).digitChar] rfl
      (Text.ofHex?_of_lt (toNat_lt_of_not_plain plain))⟩

@[simp]
theorem Spelling.char_ofChar (c : Char) : (ofChar c).char = c := by
  unfold ofChar
  split <;> rfl

/-- A string in quotation marks. -/
def quoted (spellings : List Spelling) : Text := '"' :: (spellings.flatMap (·.written) ++ ['"'])

def spelled (spellings : List Spelling) : Text := spellings.map (·.char)

/-! ## Numbers -/

/-- The largest number of a document, whose integers have 64 bits and a sign. -/
def maxInteger : Nat := 0x7fffffffffffffff

/-! ## Lines -/

def assignment (name value : Text) : Text := name ++ " = ".toList ++ value

def header (name : Text) : Text := '[' :: (name ++ [']'])

/-- A document of lines, each of them ended. -/
def ofLines (lines : List Text) : Text := lines.flatMap (· ++ ['\n'])

end Pinpoint.Toml

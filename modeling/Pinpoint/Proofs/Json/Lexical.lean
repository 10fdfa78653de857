import Pinpoint.Json.Lexical
import Pinpoint.Proofs.Text

/-! # Reading back the words of JSON

A string that has been written is read back with every character in it, and a numeral with every
digit, whatever follows a string and whatever follows a numeral without continuing it. Both hold for
values that are kept and for values that are skipped: no escape that is written is that of half a
pair of surrogates.
-/

namespace Pinpoint.Json

variable {purpose : Purpose}

/-! ## Strings -/

/-- The ways in which a character is written inside a string. -/
inductive Escaped (c : Char) : Text → Prop where
  | plain (solid : c ≠ '"' ∧ c ≠ '\\' ∧ ¬ c < ' ') : Escaped c [c]
  | letter (letter : Char) (stands : unescape? letter = some c) : Escaped c ['\\', letter]
  | code (low : c < ' ') :
    Escaped c ['\\', 'u', '0', '0', hexDigit (c.toNat / 16), hexDigit (c.toNat % 16)]

theorem unescape?_of_escapeLetter? {c letter : Char} (escaped : escapeLetter? c = some letter) :
    unescape? letter = some c := by
  unfold escapeLetter? at escaped
  split at escaped <;> cases escaped <;> rfl

theorem escaped_escape (c : Char) : Escaped c (escape c) := by
  unfold escape
  split
  · next marks =>
    rcases marks with rfl | rfl
    · exact .letter _ rfl
    · exact .letter _ rfl
  · next unmarked =>
    obtain ⟨quotation, backslash⟩ := not_or.mp unmarked
    split
    · next low =>
      split
      · next letter escaped => exact .letter letter (unescape?_of_escapeLetter? escaped)
      · exact .code low
    · next high => exact .plain ⟨quotation, backslash, high⟩

theorem utf8Size_hexDigit : ∀ n < 16, (hexDigit n).utf8Size = 1 := by decide

/-- A letter that stands for a character does not start a code unit. -/
theorem readEscape_of_unescape? {letter c : Char} (stands : unescape? letter = some c)
    (text : Text) : readEscape purpose (letter :: text) = .ok (c, 1) := by
  unfold readEscape
  split
  · next same => cases same
  · next same =>
    cases same
    cases stands
  · next same =>
    cases same
    rw [stands]

theorem codeUnit_of_lt {n : Nat} (small : n < 256) (text : Text) :
    codeUnit ('0' :: '0' :: hexDigit (n / 16) :: hexDigit (n % 16) :: text) = .ok n := by
  have high : n / 16 < 16 := by omega
  have low : n % 16 < 16 := by omega
  have size : Text.utf8Size ['0', '0', hexDigit (n / 16), hexDigit (n % 16)] = 4 := by
    simp only [Text.utf8Size, List.foldr_cons, List.foldr_nil, utf8Size_hexDigit _ high,
      utf8Size_hexDigit _ low]
    decide
  have value : Text.ofHex? ['0', '0', hexDigit (n / 16), hexDigit (n % 16)] = some n :=
    Text.ofHex?_of_lt small
  simp only [codeUnit, List.take_succ_cons, List.take_zero, size, value, Nat.lt_irrefl,
    ↓reduceIte]

theorem readEscape_code {c : Char} (low : c < ' ') (text : Text) :
    readEscape purpose
        ('u' :: '0' :: '0' :: hexDigit (c.toNat / 16) :: hexDigit (c.toNat % 16) :: text) =
      .ok (c, 5) := by
  have small : c.toNat < 32 := low
  have unit := codeUnit_of_lt (Nat.lt_trans small (by decide)) text
  have leading : isLeading c.toNat = false := by
    simp only [isLeading, Bool.and_eq_false_iff, decide_eq_false_iff_not]
    omega
  have trailing : isTrailing c.toNat = false := by
    simp only [isTrailing, Bool.and_eq_false_iff, decide_eq_false_iff_not]
    omega
  simp only [readEscape, unit, leading, trailing, bind, Except.bind, Bool.or_self,
    Bool.false_eq_true, ↓reduceIte, pure, Except.pure, Char.ofNat_toNat]

theorem readString_quotation (rest : Text) :
    readString purpose ('"' :: rest) = .ok ([], rest) := by
  rw [readString]
  rfl

/-- An escape stands for one character. -/
theorem readString_backslash {text : Text} {c : Char} {length : Nat}
    (escape : readEscape purpose text = .ok (c, length)) :
    readString purpose ('\\' :: text) =
      (readString purpose (text.drop length)).map fun (body, rest) => (c :: body, rest) := by
  rw [readString, if_neg (by decide), if_pos rfl, escape]

/-- A character is read back from the way in which it is written. -/
theorem readString_escape (c : Char) (text : Text) :
    readString purpose (escape c ++ text) =
      (readString purpose text).map fun (tail, rest) => (c :: tail, rest) := by
  have form := escaped_escape c
  generalize escape c = written at form ⊢
  cases form with
  | plain solid =>
    obtain ⟨quotation, backslash, high⟩ := solid
    rw [List.singleton_append, readString, if_neg quotation, if_neg backslash, if_neg high]
  | letter letter stands =>
    rw [List.cons_append, List.singleton_append,
      readString_backslash (readEscape_of_unescape? stands text)]
    rfl
  | code low =>
    simp only [List.cons_append, List.nil_append]
    rw [readString_backslash (readEscape_code low text)]
    rfl

/-- A string is read back from its written form. -/
theorem readString_flatMap_escape (text rest : Text) :
    readString purpose (text.flatMap escape ++ '"' :: rest) = .ok (text, rest) := by
  induction text with
  | nil => exact readString_quotation rest
  | cons c text ih =>
    rw [List.flatMap_cons, List.append_assoc, readString_escape, ih]
    rfl

/-! ## Numerals -/

/-- What stands behind a numeral does not continue it. -/
def Ends (rest : Text) : Prop :=
  ∀ c ∈ rest.head?, c.isDigit = false ∧ c ≠ '.' ∧ c ≠ 'e' ∧ c ≠ 'E'

theorem ends_nil : Ends [] := by
  rintro c ⟨⟩

theorem ends_cons {c : Char} {rest : Text}
    (other : c.isDigit = false ∧ c ≠ '.' ∧ c ≠ 'e' ∧ c ≠ 'E') : Ends (c :: rest) := by
  rintro _ ⟨⟩
  exact other

theorem exists_eq_cons_isDigit {digits : Text} (nonempty : digits ≠ [])
    (all : ∀ c ∈ digits, c.isDigit = true) :
    ∃ first others, digits = first :: others ∧ first.isDigit = true := by
  obtain ⟨first, others, parts⟩ := List.exists_cons_of_ne_nil nonempty
  exact ⟨first, others, parts, all first (parts ▸ List.mem_cons_self ..)⟩

theorem readDigits_append (digits : Digits) {rest : Text}
    (behind : ∀ c ∈ rest.head?, c.isDigit = false) :
    readDigits (digits.text ++ rest) = .ok (digits, rest) := by
  have all : ∀ c ∈ digits.text, c.isDigit = true := List.all_eq_true.mp digits.all_isDigit
  have taken := Text.takeWhile_append_of_stops all behind
  have left := Text.dropWhile_append_of_stops all behind
  have nonempty : (digits.text ++ rest).takeWhile Char.isDigit ≠ [] := by
    rw [taken]
    exact digits.text_ne_nil
  rw [readDigits, dif_pos nonempty]
  simp only [taken, left]

theorem readWhole_append (n : Nat) {rest : Text} (behind : ∀ c ∈ rest.head?, c.isDigit = false) :
    readWhole (Text.ofNat n ++ rest) = .ok (n, rest) := by
  rcases Nat.eq_zero_or_pos n with rfl | positive
  · have noDigit : rest.head?.any Char.isDigit = false := by
      cases rest with
      | nil => rfl
      | cons c rest => exact behind c rfl
    rw [Text.ofNat_zero, List.singleton_append, readWhole, noDigit]
    rfl
  · have all : ∀ c ∈ Text.ofNat n, c.isDigit = true := fun _ => Text.isDigit_of_mem_ofNat
    have taken := Text.takeWhile_append_of_stops all behind
    have left := Text.dropWhile_append_of_stops all behind
    obtain ⟨first, others, parts, leading⟩ := Text.exists_ofNat_eq_cons positive
    have digit : first.isDigit = true := all first (parts ▸ List.mem_cons_self ..)
    have value := Text.ofDigitChars_ofNat n
    rw [parts, List.cons_append] at taken left ⊢
    rw [parts] at value
    unfold readWhole
    split
    · next starts => cases starts
    · next starts => cases starts; exact absurd rfl leading
    · next starts => cases starts; rw [if_pos digit, taken, left, value]

/-- How the fraction of a numeral is written. -/
def fractionText : Option Digits → Text
  | none => []
  | some digits => '.' :: digits.text

/-- How the exponent of a numeral is written. -/
def exponentText : Option Exponent → Text
  | none => []
  | some exponent =>
    'e' :: ((if exponent.negative then ['-'] else []) ++ exponent.digits.text)

theorem render_eq_parts (numeral : Numeral) :
    numeral.render =
      (if numeral.negative then ['-'] else []) ++
        (Text.ofNat numeral.whole ++
          (fractionText numeral.fraction ++ exponentText numeral.exponent)) := by
  obtain ⟨negative, whole, fraction, exponent⟩ := numeral
  simp only [Numeral.render, ← List.append_assoc]
  cases fraction <;> cases exponent <;> rfl

/-- Neither a digit nor a decimal point stands behind a fraction. -/
theorem not_isDigit_of_mem_head?_exponentText (exponent : Option Exponent) {rest : Text}
    (ends : Ends rest) :
    ∀ c ∈ (exponentText exponent ++ rest).head?, c.isDigit = false ∧ c ≠ '.' := by
  cases exponent with
  | none => exact fun c first => ⟨(ends c first).1, (ends c first).2.1⟩
  | some exponent => rintro _ ⟨⟩; decide

theorem not_isDigit_of_mem_head?_fractionText (fraction : Option Digits) {rest : Text}
    (behind : ∀ c ∈ rest.head?, c.isDigit = false ∧ c ≠ '.') :
    ∀ c ∈ (fractionText fraction ++ rest).head?, c.isDigit = false := by
  cases fraction with
  | none => exact fun c first => (behind c first).1
  | some digits => rintro _ ⟨⟩; decide

theorem readFraction_fractionText (fraction : Option Digits) {rest : Text}
    (behind : ∀ c ∈ rest.head?, c.isDigit = false ∧ c ≠ '.') :
    readFraction (fractionText fraction ++ rest) = .ok (fraction, rest) := by
  cases fraction with
  | none =>
    change readFraction rest = _
    unfold readFraction
    split
    · exact absurd rfl (behind '.' rfl).2
    · rfl
  | some digits =>
    rw [fractionText, List.cons_append, readFraction,
      readDigits_append digits fun c first => (behind c first).1]
    rfl

theorem readExponentSign_append (negative : Bool) (digits : Digits) (rest : Text) :
    readExponentSign ((if negative then ['-'] else []) ++ digits.text ++ rest) =
      (negative, digits.text ++ rest) := by
  cases negative with
  | true => rfl
  | false =>
    obtain ⟨first, others, parts, digit⟩ :=
      exists_eq_cons_isDigit digits.text_ne_nil (List.all_eq_true.mp digits.all_isDigit)
    simp only [Bool.false_eq_true, ↓reduceIte, List.nil_append, parts, List.cons_append]
    unfold readExponentSign
    split
    · next starts => cases starts; cases digit
    · next starts => cases starts; cases digit
    · rfl

theorem readExponent_exponentText (exponent : Option Exponent) {rest : Text} (ends : Ends rest) :
    readExponent (exponentText exponent ++ rest) = .ok (exponent, rest) := by
  cases exponent with
  | none =>
    change readExponent rest = _
    cases rest with
    | nil => rfl
    | cons c rest =>
      obtain ⟨-, -, lower, upper⟩ := ends c rfl
      rw [readExponent, if_neg (not_or.mpr ⟨lower, upper⟩)]
  | some exponent =>
    rw [exponentText, List.cons_append, readExponent, if_pos (.inl rfl), readExponentSign_append]
    dsimp only
    rw [readDigits_append exponent.digits fun c first => (ends c first).1]
    rfl

theorem readUnsigned_append (numeral : Numeral) {rest : Text} (ends : Ends rest) :
    readUnsigned numeral.negative
        (Text.ofNat numeral.whole ++
          (fractionText numeral.fraction ++ (exponentText numeral.exponent ++ rest))) =
      .ok (numeral, rest) := by
  obtain ⟨negative, whole, fraction, exponent⟩ := numeral
  have scaled := not_isDigit_of_mem_head?_exponentText exponent ends
  have broken := not_isDigit_of_mem_head?_fractionText fraction scaled
  simp only [readUnsigned, readWhole_append whole broken, bind, Except.bind,
    readFraction_fractionText fraction scaled, readExponent_exponentText exponent ends, pure,
    Except.pure]

theorem readNumeral_of_isDigit {c : Char} (digit : c.isDigit = true) (text : Text) :
    readNumeral (c :: text) = readUnsigned false (c :: text) := by
  unfold readNumeral
  split
  · next starts => cases starts; cases digit
  · rfl

theorem exists_ofNat_eq_cons_isDigit (n : Nat) :
    ∃ first others, Text.ofNat n = first :: others ∧ first.isDigit = true :=
  exists_eq_cons_isDigit Text.ofNat_ne_nil fun _ => Text.isDigit_of_mem_ofNat

/-- A numeral is read back from its written form. -/
theorem readNumeral_render (numeral : Numeral) {rest : Text} (ends : Ends rest) :
    readNumeral (numeral.render ++ rest) = .ok (numeral, rest) := by
  have unsigned := readUnsigned_append numeral ends
  obtain ⟨negative, whole, fraction, exponent⟩ := numeral
  simp only [render_eq_parts, List.append_assoc]
  cases negative with
  | true => exact unsigned
  | false =>
    obtain ⟨first, others, parts, digit⟩ := exists_ofNat_eq_cons_isDigit whole
    simp only [parts, List.cons_append] at unsigned ⊢
    exact (readNumeral_of_isDigit digit _).trans unsigned

/-- The written form of a numeral starts as numerals do. -/
theorem exists_render_eq_cons_startsNumeral (numeral : Numeral) :
    ∃ c text, numeral.render = c :: text ∧ startsNumeral c = true := by
  obtain ⟨negative, whole, fraction, exponent⟩ := numeral
  rw [render_eq_parts]
  cases negative with
  | true => exact ⟨'-', _, rfl, rfl⟩
  | false =>
    obtain ⟨first, others, parts, digit⟩ := exists_ofNat_eq_cons_isDigit whole
    refine ⟨first, _, by rw [parts]; rfl, ?_⟩
    rw [startsNumeral, digit, Bool.or_true]

theorem ne_of_startsNumeral {c other : Char} (starts : startsNumeral c = true)
    (word : startsNumeral other = false) : c ≠ other := by
  rintro rfl
  rw [starts] at word
  cases word

end Pinpoint.Json

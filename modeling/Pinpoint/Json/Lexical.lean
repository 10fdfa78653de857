import Pinpoint.Json.Value

/-! # Reading the words of JSON

Readers take the front off a text and return the rest of it. The first problem ends the reading,
and a text that ends too early is told apart from one that is malformed. A value that is kept is
read with more care than one that is skipped: what is skipped may hold a lone surrogate, and an
unfinished number in it is malformed even at the end of the text.
-/

namespace Pinpoint.Json

/-- Why a text could not be read: it ends where more of the value must follow, it is not JSON, or it
is JSON so far and does not have the form asked for. -/
inductive ReadError where
  | endsEarly
  | malformed
  | mismatch
  deriving DecidableEq, Repr

inductive Purpose where
  | keep
  | skip
  deriving DecidableEq, Repr

/-- A reader returns what it read and the rest of the text. -/
abbrev Reader (α : Type) := Text → Except ReadError (α × Text)

/-- A reading in two steps succeeds when both steps do. -/
theorem bind_eq_ok_iff {α β : Type} {first : Except ReadError α} {second : α → Except ReadError β}
    {value : β} :
    (first >>= second) = .ok value ↔ ∃ found, first = .ok found ∧ second found = .ok value := by
  cases first <;> simp [bind, Except.bind]

/-- A reading that is passed on succeeds when it does itself. -/
theorem map_eq_ok_iff {α β : Type} {first : Except ReadError α} {pass : α → β} {value : β} :
    first.map pass = .ok value ↔ ∃ found, first = .ok found ∧ pass found = value := by
  cases first <;> simp [Except.map]

/-- The blanks that may stand between the words of JSON. -/
def isSpace (c : Char) : Bool := c == ' ' || c == '\t' || c == '\n' || c == '\r'

def skipSpace (text : Text) : Text := text.dropWhile isSpace

theorem length_skipSpace_le (text : Text) : (skipSpace text).length ≤ text.length :=
  (List.dropWhile_suffix isSpace).length_le

/-- The text behind a given word. -/
def readWord : Text → Text → Except ReadError Text
  | [], text => .ok text
  | _ :: _, [] => .error .endsEarly
  | w :: word, c :: text => if c = w then readWord word text else .error .malformed

theorem length_le_of_readWord {word text rest : Text} (success : readWord word text = .ok rest) :
    rest.length ≤ text.length := by
  induction word generalizing text with
  | nil => cases success; exact Nat.le_refl _
  | cons w word ih =>
    cases text with
    | nil => cases success
    | cons c text =>
      simp only [readWord] at success
      split at success
      · exact Nat.le_succ_of_le (ih success)
      · cases success

/-! ## Strings -/

/-- The code unit of four hexadecimal digits. The text ends early when fewer than four bytes of its
UTF-8 form are left, whatever they are. -/
def codeUnit (text : Text) : Except ReadError Nat :=
  if Text.utf8Size (text.take 4) < 4 then .error .endsEarly
  else
    match Text.ofHex? (text.take 4) with
    | none => .error .malformed
    | some unit => .ok unit

/-- The code unit starts a pair of surrogates. -/
def isLeading (unit : Nat) : Bool := 0xD800 ≤ unit && unit ≤ 0xDBFF

/-- The code unit ends a pair of surrogates. -/
def isTrailing (unit : Nat) : Bool := 0xDC00 ≤ unit && unit ≤ 0xDFFF

/-- The character of a pair of surrogates. -/
def ofSurrogates (leading trailing : Nat) : Char :=
  Char.ofNat (0x10000 + (leading - 0xD800) * 0x400 + (trailing - 0xDC00))

/-- What stands for a lone surrogate in a string that is skipped. -/
def replacement : Char := '\uFFFD'

/-- The character that a letter behind a backslash stands for. -/
def unescape? : Char → Option Char
  | '"' => some '"'
  | '\\' => some '\\'
  | '/' => some '/'
  | 'b' => some '\x08'
  | 'f' => some '\x0c'
  | 'n' => some '\n'
  | 'r' => some '\r'
  | 't' => some '\t'
  | _ => none

/-- The second half of a pair of surrogates, escaped in its turn. -/
def trailingUnit : Text → Except ReadError Nat
  | [] | ['\\'] => .error .endsEarly
  | '\\' :: 'u' :: text => do
    let unit ← codeUnit text
    if isTrailing unit then return unit else throw .malformed
  | _ => .error .malformed

/-- The character escaped behind a backslash, and how many characters the escape takes there. -/
def readEscape (purpose : Purpose) : Text → Except ReadError (Char × Nat)
  | [] => .error .endsEarly
  | 'u' :: text => do
    let unit ← codeUnit text
    if isLeading unit || isTrailing unit then
      match purpose with
      | .skip => return (replacement, 5)
      | .keep =>
        if isTrailing unit then throw .malformed
        else return (ofSurrogates unit (← trailingUnit (text.drop 4)), 11)
    else return (Char.ofNat unit, 5)
  | c :: _ =>
    match unescape? c with
    | some escaped => .ok (escaped, 1)
    | none => .error .malformed

/-- The string behind an opening quotation mark. -/
def readString (purpose : Purpose) : Reader Text
  | [] => .error .endsEarly
  | c :: text =>
    if c = '"' then .ok ([], text)
    else if c = '\\' then
      match readEscape purpose text with
      | .error problem => .error problem
      | .ok (escaped, length) =>
        (readString purpose (text.drop length)).map fun (tail, rest) => (escaped :: tail, rest)
    else if c < ' ' then .error .malformed
    else (readString purpose text).map fun (tail, rest) => (c :: tail, rest)
termination_by text => text.length
decreasing_by all_goals simp only [List.length_cons, List.length_drop]; omega

theorem length_lt_of_readString {purpose : Purpose} {text string rest : Text}
    (success : readString purpose text = .ok (string, rest)) : rest.length < text.length := by
  fun_induction readString purpose text generalizing string with
  | case1 => cases success
  | case2 => cases success; simp
  | case3 => cases success
  | case4 text _ length _ _ ih =>
    obtain ⟨⟨tail, _⟩, read, same⟩ := map_eq_ok_iff.mp success
    cases same
    have := ih read
    simp only [List.length_cons, List.length_drop] at *
    omega
  | case5 => cases success
  | case6 c text _ _ _ ih =>
    obtain ⟨⟨tail, _⟩, read, same⟩ := map_eq_ok_iff.mp success
    cases same
    have := ih read
    simp only [List.length_cons] at *
    omega

/-! ## Numerals -/

def readDigits : Reader Digits := fun text =>
  if nonempty : text.takeWhile Char.isDigit ≠ [] then
    .ok (⟨text.takeWhile Char.isDigit, nonempty, List.all_takeWhile⟩,
      text.dropWhile Char.isDigit)
  else if text = [] then .error .endsEarly
  else .error .malformed

/-- What stands before the decimal point; a zero stands alone. -/
def readWhole : Reader Nat
  | [] => .error .endsEarly
  | '0' :: text =>
    if (text.head?.any Char.isDigit) then .error .malformed else .ok (0, text)
  | c :: text =>
    if c.isDigit then
      .ok (Nat.ofDigitChars 10 ((c :: text).takeWhile Char.isDigit) 0,
        (c :: text).dropWhile Char.isDigit)
    else .error .malformed

/-- The decimal point and what stands behind it, where there is a decimal point. -/
def readFraction : Reader (Option Digits)
  | '.' :: text => do
    let (digits, rest) ← readDigits text
    return (some digits, rest)
  | text => .ok (none, text)

/-- The sign of an exponent; it is negative or it is not. -/
def readExponentSign : Text → Bool × Text
  | '-' :: text => (true, text)
  | '+' :: text => (false, text)
  | text => (false, text)

/-- The exponent mark and what stands behind it, where there is an exponent mark. -/
def readExponent : Reader (Option Exponent)
  | [] => .ok (none, [])
  | c :: text =>
    if c = 'e' ∨ c = 'E' then do
      let signed := readExponentSign text
      let (digits, rest) ← readDigits signed.2
      return (some ⟨signed.1, digits⟩, rest)
    else .ok (none, c :: text)

/-- A numeral behind its sign. -/
def readUnsigned (negative : Bool) : Reader Numeral := fun text => do
  let (whole, text) ← readWhole text
  let (fraction, text) ← readFraction text
  let (exponent, text) ← readExponent text
  return (⟨negative, whole, fraction, exponent⟩, text)

def readNumeral : Reader Numeral
  | '-' :: text => readUnsigned true text
  | text => readUnsigned false text

/-- A numeral starts with a minus sign or a digit. -/
def startsNumeral (c : Char) : Bool := c == '-' || c.isDigit

private theorem length_dropWhile_le (p : Char → Bool) (text : Text) :
    (text.dropWhile p).length ≤ text.length :=
  (List.dropWhile_suffix p).length_le

theorem length_le_of_readDigits {text rest : Text} {digits : Digits}
    (success : readDigits text = .ok (digits, rest)) : rest.length ≤ text.length := by
  unfold readDigits at success
  split at success
  · cases success
    exact length_dropWhile_le _ _
  · split at success <;> cases success

theorem length_lt_of_readWhole {text rest : Text} {whole : Nat}
    (success : readWhole text = .ok (whole, rest)) : rest.length < text.length := by
  unfold readWhole at success
  split at success
  · cases success
  · split at success <;> cases success
    simp
  · next c text _ =>
    split at success
    · next digit =>
      cases success
      have := length_dropWhile_le Char.isDigit text
      simp only [List.dropWhile_cons, digit, ↓reduceIte, List.length_cons]
      omega
    · cases success

theorem length_le_of_readFraction {text rest : Text} {fraction : Option Digits}
    (success : readFraction text = .ok (fraction, rest)) : rest.length ≤ text.length := by
  unfold readFraction at success
  split at success
  · obtain ⟨⟨digits, tail⟩, read, same⟩ := bind_eq_ok_iff.mp success
    cases same
    have := length_le_of_readDigits read
    simp only [List.length_cons]
    omega
  · cases success
    exact Nat.le_refl _

private theorem length_readExponentSign_le (text : Text) :
    (readExponentSign text).2.length ≤ text.length := by
  unfold readExponentSign
  split <;> simp

theorem length_le_of_readExponent {text rest : Text} {exponent : Option Exponent}
    (success : readExponent text = .ok (exponent, rest)) : rest.length ≤ text.length := by
  unfold readExponent at success
  split at success
  · cases success
    exact Nat.le_refl _
  · next c text =>
    split at success
    · obtain ⟨⟨digits, tail⟩, read, same⟩ := bind_eq_ok_iff.mp success
      cases same
      have := length_le_of_readDigits read
      have := length_readExponentSign_le text
      simp only [List.length_cons]
      omega
    · cases success
      exact Nat.le_refl _

theorem length_lt_of_readUnsigned {negative : Bool} {text rest : Text} {numeral : Numeral}
    (success : readUnsigned negative text = .ok (numeral, rest)) : rest.length < text.length := by
  obtain ⟨⟨_, _⟩, whole, success⟩ := bind_eq_ok_iff.mp success
  obtain ⟨⟨_, _⟩, fraction, success⟩ := bind_eq_ok_iff.mp success
  obtain ⟨⟨_, _⟩, exponent, success⟩ := bind_eq_ok_iff.mp success
  cases success
  have := length_lt_of_readWhole whole
  have := length_le_of_readFraction fraction
  have := length_le_of_readExponent exponent
  omega

theorem length_lt_of_readNumeral {text rest : Text} {numeral : Numeral}
    (success : readNumeral text = .ok (numeral, rest)) : rest.length < text.length := by
  unfold readNumeral at success
  split at success
  · exact Nat.lt_succ_of_lt (length_lt_of_readUnsigned success)
  · exact length_lt_of_readUnsigned success

end Pinpoint.Json

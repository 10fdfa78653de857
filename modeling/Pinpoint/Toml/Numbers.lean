import Pinpoint.Number
import Pinpoint.Toml.Reader

/-! # TOML numbers, dates and times

An integer has 64 bits and a sign. It is written in base ten with a sign and without leading zeros,
or in base sixteen, eight or two behind its mark; single underscores may stand between its digits.
A float has a fraction or an exponent, or is infinite or no number. One too large to be finite is
refused, unless it is negative.
-/

namespace Pinpoint.Toml

/-- The digits behind the first one, less the underscores that stand between digits. -/
def moreDigits (isDigit : Char → Bool) : Text → Text × Text
  | [] => ([], [])
  | [c] => if isDigit c then ([c], []) else ([], [c])
  | c :: next :: rest =>
    if isDigit c then
      let (digits, rest) := moreDigits isDigit (next :: rest)
      (c :: digits, rest)
    else if c = '_' ∧ isDigit next then
      let (digits, rest) := moreDigits isDigit rest
      (next :: digits, rest)
    else ([], c :: next :: rest)

/-- One or more digits, less the underscores between them. -/
def digits (isDigit : Char → Bool) : Reader Text := do
  let first ← Reader.satisfy isDigit
  fun text =>
    let (others, rest) := moreDigits isDigit text
    some (first :: others, rest)

/-- A plus or a minus sign, which may be left out; true for minus. -/
def sign : Reader Bool
  | '-' :: rest => some (true, rest)
  | '+' :: rest => some (false, rest)
  | text => some (false, text)

/-- The digits of a whole number in base ten; a zero stands alone. -/
def decimalDigits : Reader Text := do
  let found ← digits Char.isDigit
  if found.head? = some '0' ∧ found ≠ ['0'] then failure else return found

/-- The digits of a whole number in another base, behind its mark. -/
def marked (mark : Char) (base : Nat) : Reader Nat := do
  Reader.word ['0', mark]
  let found ← digits fun c => (Text.hexValue? c).any (· < base)
  match found.mapM Text.hexValue? with
  | none => failure
  | some values => return values.foldl (base * · + ·) 0

/-- The integer of 64 bits with the given value, if there is one. -/
def toInt64? (value : Int) : Option Int64 :=
  if Int64.minValue.toInt ≤ value ∧ value ≤ Int64.maxValue.toInt then some (Int64.ofInt value)
  else none

def decimal : Reader Int64 := do
  let negative ← sign
  let found ← decimalDigits
  let size : Int := Nat.ofDigitChars 10 found 0
  match toInt64? (if negative then -size else size) with
  | none => failure
  | some value => return value

/-- An integer in one of the bases that are marked. -/
def based : Reader Int64 := do
  let size ← marked 'x' 16 <|> marked 'o' 8 <|> marked 'b' 2
  match toInt64? size with
  | none => failure
  | some value => return value

def integer : Reader Int64 := based <|> decimal

/-- A decimal fraction: its digits, those behind the point included, and the power of ten that
scales them. -/
structure Magnitude where
  digits : Text
  exponent : Int

/-- The number is too large to be rounded to a finite double. Where the first digit that counts
stands beyond the place that any double reaches, the power of ten is not computed. -/
def Magnitude.overflows (magnitude : Magnitude) : Bool :=
  let counting := magnitude.digits.dropWhile (· == '0')
  let size := Nat.ofDigitChars 10 counting 0
  let places := (counting.length : Int) + magnitude.exponent
  if counting = [] ∨ places ≤ 308 then false
  else if 310 ≤ places then true
  else
    match magnitude.exponent with
    | .ofNat exponent => Binary64.overflow ≤ size * Nat.pow 10 exponent
    | .negSucc exponent => Binary64.overflow * Nat.pow 10 (exponent + 1) ≤ size

/-- The exponent of a float, with its sign. -/
def exponentPart : Reader Int := do
  let _ ← Reader.satisfy fun c => c == 'e' || c == 'E'
  let negative ← sign
  let found ← digits Char.isDigit
  let size : Int := Nat.ofDigitChars 10 found 0
  return if negative then -size else size

def fractionPart : Reader Text := do
  Reader.char '.'
  digits Char.isDigit

/-- A float that is written with digits. -/
def finiteFloat : Reader Unit := do
  let negative ← sign
  let whole ← decimalDigits
  let fraction ← Reader.optional fractionPart
  let exponent ← Reader.optional exponentPart
  if fraction.isNone && exponent.isNone then failure
  let places := fraction.getD []
  let magnitude : Magnitude := ⟨whole ++ places, exponent.getD 0 - places.length⟩
  if !negative && magnitude.overflows then failure

/-- A float that is infinite or no number. -/
def specialFloat : Reader Unit := do
  let _ ← sign
  Reader.word "inf".toList <|> Reader.word "nan".toList

def float : Reader Unit := finiteFloat <|> specialFloat

/-! ## Dates and times

A moment is a date, a time of day, or both with a `T` or a space between; with both, an offset from
universal time may follow. Every part has a fixed number of digits and must name a day that the
calendar has and a time that a clock shows, a leap second included.
-/

/-- The number that exactly `count` digits write. -/
def fixedDigits (count : Nat) : Reader Nat := fun text =>
  let found := text.take count
  if found.length = count ∧ found.all Char.isDigit then
    some (Nat.ofDigitChars 10 found 0, text.drop count)
  else none

/-- A number of exactly `count` digits within bounds. -/
def fixedNumber (count first last : Nat) : Reader Nat := do
  let n ← fixedDigits count
  if first ≤ n ∧ n ≤ last then return n else failure

/-- Every fourth year is a leap year, but of the full centuries only every fourth. -/
def isLeapYear (year : Nat) : Bool := year % 4 == 0 && (year % 100 != 0 || year % 400 == 0)

def daysOfMonth (year month : Nat) : Nat :=
  if month = 2 then if isLeapYear year then 29 else 28
  else if month = 4 ∨ month = 6 ∨ month = 9 ∨ month = 11 then 30
  else 31

def date : Reader Unit := do
  let year ← fixedDigits 4
  Reader.char '-'
  let month ← fixedNumber 2 1 12
  Reader.char '-'
  let _ ← fixedNumber 2 1 (daysOfMonth year month)

/-- A time of day, with or without a fraction of a second. -/
def timeOfDay : Reader Unit := do
  let _ ← fixedNumber 2 0 23
  Reader.char ':'
  let _ ← fixedNumber 2 0 59
  Reader.char ':'
  let _ ← fixedNumber 2 0 60
  let _ ← Reader.optional do
    Reader.char '.'
    Reader.takeWhile1 Char.isDigit

/-- An offset from universal time. -/
def timeOffset : Reader Unit :=
  (do let _ ← Reader.satisfy fun c => c == 'Z' || c == 'z') <|> do
    let _ ← Reader.satisfy fun c => c == '+' || c == '-'
    let _ ← fixedNumber 2 0 23
    Reader.char ':'
    let _ ← fixedNumber 2 0 59

def moment : Reader Unit :=
  (do
    date
    let _ ← Reader.optional do
      let _ ← Reader.satisfy fun c => c == 'T' || c == 't' || c == ' '
      timeOfDay
      let _ ← Reader.optional timeOffset) <|> timeOfDay

end Pinpoint.Toml

import Pinpoint.Number

/-! # JSON numerals

A numeral keeps the digits as they are written, so that a whole number, a fraction that happens to
be whole and a number with an exponent stay different values.
-/

namespace Pinpoint

/-- One or more decimal digits as they are written, leading and trailing zeros included. -/
structure Digits where
  text : Text
  text_ne_nil : text ≠ []
  all_isDigit : text.all Char.isDigit = true
  deriving DecidableEq, Repr

namespace Json

/-- The part of a numeral behind the exponent mark. -/
structure Exponent where
  negative : Bool
  digits : Digits
  deriving DecidableEq, Repr

/-- A number as JSON writes it, before and behind the decimal point and behind the exponent mark. -/
structure Numeral where
  negative : Bool
  whole : Nat
  fraction : Option Digits
  exponent : Option Exponent
  deriving DecidableEq, Repr

namespace Numeral

/-- The numeral of a natural number has digits only. -/
def ofNat (n : Nat) : Numeral := ⟨false, n, none, none⟩

/-- The natural number that a numeral of digits only writes. -/
def toNat? : Numeral → Option Nat
  | ⟨false, whole, none, none⟩ => some whole
  | _ => none

theorem toNat?_eq_some_iff (numeral : Numeral) (n : Nat) :
    numeral.toNat? = some n ↔ numeral = ofNat n := by
  unfold toNat?
  split
  · simp [ofNat]
  · next other =>
    constructor
    · intro impossible
      cases impossible
    · intro same
      exact absurd same (other n)

end Numeral

/-! ## The range of numerals

A numeral is out of range when it stands for a number too large for a double. The number is
approximated before it is compared: its leading digits, as many as make a significand of 64 bits,
are rounded to a double, the power of ten that scales them is rounded to a double, and their
product overflows or does not. A power of ten beyond the largest finite one overflows whatever it
scales, except zero.
-/

/-- A significand and the power of ten that scales it. -/
structure Scaled where
  significand : Nat
  exponent : Int
  deriving DecidableEq, Repr

namespace Scaled

def maxSignificand : Nat := 0xFFFFFFFFFFFFFFFF

/-- The leading digits of a natural number; each digit left out raises the power of ten. -/
def ofNat (n : Nat) : Scaled :=
  if n ≤ maxSignificand then ⟨n, 0⟩
  else
    let leading := ofNat (n / 10)
    ⟨leading.significand, leading.exponent + 1⟩
termination_by n
decreasing_by
  rename_i large
  have : 0 < n := Nat.lt_of_le_of_lt (Nat.zero_le _) (Nat.lt_of_not_le large)
  exact Nat.div_lt_self this (by decide)

/-- Decimal places are taken in until one does not fit; the others are left out. -/
def addPlaces (scaled : Scaled) : Text → Scaled
  | [] => scaled
  | c :: rest =>
    let significand := scaled.significand * 10 + (c.toNat - '0'.toNat)
    if significand ≤ maxSignificand then addPlaces ⟨significand, scaled.exponent - 1⟩ rest
    else scaled

/-- The largest power of ten below the overflow. -/
def maxExponent : Nat := 308

/-- The number overflows, computed as the product of two rounded factors. -/
def overflows (scaled : Scaled) : Bool :=
  match scaled.exponent with
  | .negSucc _ => false
  | .ofNat exponent =>
    scaled.significand != 0 &&
      (maxExponent < exponent ||
        Binary64.overflow ≤
          Binary64.round scaled.significand * Binary64.round (Nat.pow 10 exponent))

end Scaled

/-- The largest exponent that is computed with; a larger one only has a sign. -/
def maxExponentLiteral : Nat := 0x7FFFFFFF

/-- The numeral is not too large for a double. -/
def Numeral.inRange (numeral : Numeral) : Bool :=
  let scaled := (Scaled.ofNat numeral.whole).addPlaces <|
    match numeral.fraction with
    | none => []
    | some digits => digits.text
  match numeral.exponent with
  | none => !scaled.overflows
  | some exponent =>
    let size := Nat.ofDigitChars 10 exponent.digits.text 0
    if maxExponentLiteral < size then exponent.negative || scaled.significand == 0
    else
      let shift : Int := if exponent.negative then -size else size
      !(Scaled.mk scaled.significand (scaled.exponent + shift)).overflows

end Json

end Pinpoint

import Pinpoint.Text

/-! # Numbers and their ranges

Every offset, count, line and column that a diagnostic carries is a natural number of at most 64
bits, and a number of a document is in range as long as a double precision number can come near it.
Escapes name characters by numbers in hexadecimal digits.
-/

namespace Pinpoint

/-- The largest offset, count, line or column. -/
def maxOffset : Nat := 0xFFFFFFFFFFFFFFFF

/-! ## Double precision

A natural number is rounded to the 53 leading bits that a double precision number keeps, ties going
to the even neighbour. The rounded number is a finite double as long as the number itself lies
below the midpoint between the largest finite double and the next power of two.
-/

namespace Binary64

def precision : Nat := 53

/-- The least number that rounds to infinity. -/
def overflow : Nat := (Nat.pow 2 54 - 1) * Nat.pow 2 970

/-- The multiple of `unit` nearest to a number; of two equally near ones, the even multiple. -/
def roundTo (unit n : Nat) : Nat :=
  let below := n / unit
  let rest := n % unit
  let up := unit < 2 * rest || (2 * rest == unit && below % 2 == 1)
  (if up then below + 1 else below) * unit

/-- The double nearest to a number, were the exponent unbounded. -/
def round (n : Nat) : Nat := roundTo (Nat.pow 2 (n.log2 + 1 - precision)) n

end Binary64

/-! ## Hexadecimal digits -/

namespace Text

/-- The value of a hexadecimal digit of either case. -/
def hexValue? (c : Char) : Option Nat :=
  if c.isDigit then some (c.toNat - '0'.toNat)
  else if 'a' ≤ c ∧ c ≤ 'f' then some (c.toNat - 'a'.toNat + 10)
  else if 'A' ≤ c ∧ c ≤ 'F' then some (c.toNat - 'A'.toNat + 10)
  else none

/-- The number that hexadecimal digits write, most significant first. -/
def ofHex? (digits : Text) : Option Nat :=
  (digits.mapM hexValue?).map fun values => values.foldl (16 * · + ·) 0

/-- The number that the first `count` characters write; fewer characters write none. -/
def leadingHex? (count : Nat) (text : Text) : Option Nat :=
  if text.length < count then none else ofHex? (text.take count)

theorem hexValue?_digitChar : ∀ n < 16, hexValue? n.digitChar = some n := by decide

/-- A number below 256 is read back from four digits. -/
theorem ofHex?_of_lt {n : Nat} (small : n < 256) :
    ofHex? ['0', '0', (n / 16).digitChar, (n % 16).digitChar] = some n := by
  have zero : hexValue? '0' = some 0 := by decide
  have high : hexValue? (n / 16).digitChar = some (n / 16) := hexValue?_digitChar _ (by omega)
  have low : hexValue? (n % 16).digitChar = some (n % 16) := hexValue?_digitChar _ (by omega)
  simp only [ofHex?, List.mapM_cons, List.mapM_nil, zero, high, low, Option.pure_def,
    Option.bind_eq_bind, Option.bind_some, Option.map_some, List.foldl_cons, List.foldl_nil]
  congr 1
  omega

end Text

end Pinpoint

import Pinpoint.Proofs.Toml.Reader
import Pinpoint.Toml.Numbers
import Pinpoint.Toml.Writer

/-! # Reading back TOML numbers

A number that ends its line is read back as an integer. Nothing else takes it: dates and times have
marks between their digits, floats have a point or an exponent, and the other bases have a letter
behind a zero.
-/

namespace Pinpoint.Toml

/-- Digits up to the end of the line. -/
def DigitsLine (text : Text) : Prop :=
  ∃ digits rest, text = digits ++ '\n' :: rest ∧ ∀ c ∈ digits, c.isDigit = true

namespace DigitsLine

variable {c : Char} {text : Text}

theorem of_number (n : Nat) (rest : Text) : DigitsLine (Text.ofNat n ++ '\n' :: rest) :=
  ⟨Text.ofNat n, rest, rfl, fun _ => Text.isDigit_of_mem_ofNat⟩

/-- The line starts with a digit, or it is at its end. -/
theorem head?_ne (line : DigitsLine text) (letter : c.isDigit = false) (inside : c ≠ '\n') :
    text.head? ≠ some c := by
  obtain ⟨digits, rest, rfl, all⟩ := line
  rintro starts
  cases digits with
  | nil => exact inside (Option.some.inj starts).symm
  | cons first digits =>
    cases Option.some.inj starts
    rw [all _ List.mem_cons_self] at letter
    cases letter

theorem drop (line : DigitsLine text) (count : Nat)
    (all : ∀ c ∈ text.take count, c.isDigit = true) : DigitsLine (text.drop count) := by
  obtain ⟨digits, rest, rfl, digit⟩ := line
  -- A line feed among the first characters would have to be a digit.
  have short : count ≤ digits.length := by
    apply Nat.le_of_not_lt
    intro beyond
    have feed : '\n' ∈ (digits ++ '\n' :: rest).take count := by
      obtain ⟨more, rfl⟩ := Nat.exists_eq_add_of_lt beyond
      rw [Nat.add_assoc, List.take_append, Nat.add_sub_cancel_left, List.take_succ_cons]
      exact List.mem_append_right _ List.mem_cons_self
    cases all _ feed
  exact ⟨digits.drop count, rest, List.drop_append_of_le_length short,
    fun c member => digit c (List.mem_of_mem_drop member)⟩

/-! ## Moments -/

variable {count first last n : Nat} {rest : Text}

theorem of_fixedDigits (line : DigitsLine text) (read : Reads (fixedDigits count) text n rest) :
    DigitsLine rest := by
  unfold Reads fixedDigits at read
  dsimp only at read
  split at read
  · next digits =>
    cases read
    exact line.drop count (List.all_eq_true.mp digits.2)
  · cases read

theorem of_fixedNumber (line : DigitsLine text)
    (read : Reads (fixedNumber count first last) text n rest) : DigitsLine rest := by
  obtain ⟨value, middle, digits, bounded⟩ := read.exists_of_bind
  by_cases bounds : first ≤ value ∧ value ≤ last
  · rw [if_pos bounds] at bounded
    cases bounded
    exact line.of_fixedDigits digits
  · rw [if_neg bounds] at bounded
    cases bounded

theorem fails_date (line : DigitsLine text) : Fails date text :=
  .bind_of fun _ _ year =>
    (fails_char ((line.of_fixedDigits year).head?_ne (by decide) (by decide))).bind _

theorem fails_timeOfDay (line : DigitsLine text) : Fails timeOfDay text :=
  .bind_of fun _ _ hour =>
    (fails_char ((line.of_fixedNumber hour).head?_ne (by decide) (by decide))).bind _

theorem fails_moment (line : DigitsLine text) : Fails moment text :=
  (line.fails_date.bind _).orElse_fails line.fails_timeOfDay

/-! ## Other numbers -/

theorem reads_sign (line : DigitsLine text) : Reads sign text false text := by
  have minus : text.head? ≠ some '-' := line.head?_ne (by decide) (by decide)
  have plus : text.head? ≠ some '+' := line.head?_ne (by decide) (by decide)
  unfold Reads sign
  split
  · exact absurd rfl minus
  · exact absurd rfl plus
  · rfl

/-- No letter behind a zero chooses a base. -/
theorem fails_marked (line : DigitsLine text) {mark : Char} (letter : mark.isDigit = false)
    (inside : mark ≠ '\n') (base : Nat) : Fails (marked mark base) text := by
  refine (fails_word ?_).bind _
  rintro ⟨behind, rfl⟩
  have tail : DigitsLine (mark :: behind) := line.drop 1 (List.forall_mem_singleton.mpr rfl)
  exact tail.head?_ne letter inside rfl

theorem fails_based (line : DigitsLine text) : Fails based text :=
  ((line.fails_marked (by decide) (by decide) 16).orElse_fails
    ((line.fails_marked (by decide) (by decide) 8).orElse_fails
      (line.fails_marked (by decide) (by decide) 2))).bind _

theorem fails_specialFloat (line : DigitsLine text) : Fails specialFloat text :=
  line.reads_sign.bind_fails
    ((fails_word_cons (line.head?_ne (by decide) (by decide))).orElse_fails
      (fails_word_cons (line.head?_ne (by decide) (by decide))))

end DigitsLine

/-! ## Digits -/

section

variable {kind : Char → Bool} {front rest : Text}

theorem moreDigits_of_stops (stops : Text.Stops kind rest) (solid : rest.head? ≠ some '_') :
    moreDigits kind rest = ([], rest) := by
  unfold moreDigits
  split
  · rfl
  · next c =>
    rw [stops c rfl]
    rfl
  · next c next rest =>
    have other : c ≠ '_' := mt (congrArg some) solid
    rw [stops c rfl, if_neg Bool.false_ne_true, if_neg fun underscore => other underscore.1]

theorem moreDigits_cons {c : Char} (digit : kind c = true) (text : Text) :
    moreDigits kind (c :: text) =
      (c :: (moreDigits kind text).1, (moreDigits kind text).2) := by
  cases text with
  | nil => simp only [moreDigits, if_pos digit]
  | cons next text => rw [moreDigits, if_pos digit]

theorem moreDigits_append (all : ∀ c ∈ front, kind c = true) (stops : Text.Stops kind rest)
    (solid : rest.head? ≠ some '_') : moreDigits kind (front ++ rest) = (front, rest) := by
  induction front with
  | nil => exact moreDigits_of_stops stops solid
  | cons c front ih =>
    obtain ⟨digit, others⟩ := List.forall_mem_cons.mp all
    rw [List.cons_append, moreDigits_cons digit, ih others]

/-- A run of digits without underscores is read whole. -/
theorem reads_digits (nonempty : front ≠ []) (all : ∀ c ∈ front, kind c = true)
    (stops : Text.Stops kind rest) (solid : rest.head? ≠ some '_') :
    Reads (digits kind) (front ++ rest) front rest := by
  cases front with
  | nil => exact absurd rfl nonempty
  | cons first front =>
    obtain ⟨digit, others⟩ := List.forall_mem_cons.mp all
    have satisfied : Reads (Reader.satisfy kind) (first :: (front ++ rest)) first (front ++ rest) :=
      if_pos digit
    refine satisfied.bind ?_
    rw [Reads, moreDigits_append others stops solid]

end

variable (n : Nat) (rest : Text)

/-- A number is written without leading zeros. -/
theorem reads_decimalDigits :
    Reads decimalDigits (Text.ofNat n ++ '\n' :: rest) (Text.ofNat n) ('\n' :: rest) := by
  have leading : ¬ ((Text.ofNat n).head? = some '0' ∧ Text.ofNat n ≠ ['0']) := by
    rintro ⟨zero, more⟩
    rcases Nat.eq_zero_or_pos n with rfl | positive
    · exact more Text.ofNat_zero
    · obtain ⟨first, others, written, other⟩ := Text.exists_ofNat_eq_cons positive
      rw [written] at zero
      exact other (Option.some.inj zero)
  refine (reads_digits Text.ofNat_ne_nil (fun _ => Text.isDigit_of_mem_ofNat)
    (Text.stops_cons (by decide)) (Text.head?_cons_ne (by decide))).bind ?_
  rw [if_neg leading]
  exact .of_pure _ _

/-- A number without a point and without an exponent is no float. -/
theorem fails_finiteFloat : Fails finiteFloat (Text.ofNat n ++ '\n' :: rest) := by
  have point : Fails fractionPart ('\n' :: rest) :=
    (fails_char (Text.head?_cons_ne (by decide))).bind _
  have exponent : Fails exponentPart ('\n' :: rest) :=
    (fails_satisfy (Text.stops_cons (by decide))).bind _
  refine (DigitsLine.of_number n rest).reads_sign.bind_fails ?_
  refine (reads_decimalDigits n rest).bind_fails ?_
  -- What is left to do fails where neither a fraction nor an exponent was read.
  refine point.optional.bind_fails (exponent.optional.bind_fails ?_)
  simp only [Option.isNone_none, Bool.and_self, ↓reduceIte]
  rfl

theorem fails_float : Fails float (Text.ofNat n ++ '\n' :: rest) :=
  (fails_finiteFloat n rest).orElse_fails (DigitsLine.of_number n rest).fails_specialFloat

theorem toInt64?_of_le {n : Nat} (small : n ≤ maxInteger) : toInt64? n = some (Int64.ofInt n) := by
  unfold maxInteger at small
  refine if_pos ⟨?_, ?_⟩
  · rw [Int64.toInt_minValue]
    omega
  · rw [Int64.toInt_maxValue]
    omega

/-- A number that is not too large is read back. -/
theorem reads_integer {n : Nat} (small : n ≤ maxInteger) (rest : Text) :
    Reads integer (Text.ofNat n ++ '\n' :: rest) (Int64.ofInt n) ('\n' :: rest) := by
  have line := DigitsLine.of_number n rest
  have decimal : Reads decimal (Text.ofNat n ++ '\n' :: rest) (Int64.ofInt n) ('\n' :: rest) := by
    refine line.reads_sign.bind ((reads_decimalDigits n rest).bind ?_)
    simp only [Bool.false_eq_true, ↓reduceIte, Text.ofDigitChars_ofNat, toInt64?_of_le small]
    exact .of_pure _ _
  exact line.fails_based.orElse decimal

end Pinpoint.Toml

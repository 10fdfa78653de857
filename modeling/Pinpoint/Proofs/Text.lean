import Pinpoint.Text

/-! # Texts and their parts

What the decimal digits of a number are, where a run of characters of one kind ends, what trimming
takes away and which offset a search finds.
-/

namespace Pinpoint.Text

/-! ## Decimal numbers

A natural number is written with decimal digits only, at least one of them, and its digits give it
back. The first digit is a zero for zero alone.
-/

section

variable {n : Nat}

theorem isDigit_of_mem_ofNat {c : Char} (member : c ∈ ofNat n) : c.isDigit = true :=
  Nat.isDigit_of_mem_toDigits (by decide) (by decide) member

theorem ofNat_ne_nil : ofNat n ≠ [] := Nat.toDigits_ne_nil

theorem ofDigitChars_ofNat (n : Nat) : Nat.ofDigitChars 10 (ofNat n) 0 = n :=
  Nat.ofDigitChars_ten_toDigits

theorem ofNat_injective {m : Nat} (same : ofNat m = ofNat n) : m = n := by
  rw [← ofDigitChars_ofNat m, same, ofDigitChars_ofNat]

theorem ofNat_zero : ofNat 0 = ['0'] := Nat.toDigits_zero 10

theorem not_mem_ofNat {c : Char} (other : c.isDigit = false) : c ∉ ofNat n := by
  intro member
  rw [isDigit_of_mem_ofNat member] at other
  cases other

/-- A line of digits is not broken. -/
theorem lineFeed_not_mem_ofNat : '\n' ∉ ofNat n := not_mem_ofNat (by decide)

/-- The first digit of a number above zero is not a zero. -/
theorem exists_ofNat_eq_cons (positive : 0 < n) :
    ∃ first rest, ofNat n = first :: rest ∧ first ≠ '0' := by
  induction n using Nat.strongRecOn with
  | ind n ih =>
    rcases Nat.lt_or_ge n 10 with small | large
    · refine ⟨n.digitChar, [], Nat.toDigits_of_lt_base small, ?_⟩
      rw [ne_eq, Nat.digitChar_eq_zero]
      omega
    · obtain ⟨first, rest, shorter, leading⟩ := ih (n / 10)
        (Nat.div_lt_self positive (by decide)) (Nat.div_pos large (by decide))
      refine ⟨first, rest ++ [(n % 10).digitChar], ?_, leading⟩
      rw [ofNat, Nat.toDigits_of_base_le (by decide) large, ← ofNat, shorter, List.cons_append]

end

/-! ## Runs of characters of one kind

Where a text starts with characters of one kind and the next one is of another kind, the longest run
of that kind is what the text starts with.
-/

section

/-- The text does not start with a character of the kind; it may be empty. -/
def Stops (kind : Char → Bool) (text : Text) : Prop := ∀ c ∈ text.head?, kind c = false

variable {kind : Char → Bool} {front rest : Text}

theorem stops_cons {c : Char} (other : kind c = false) : Stops kind (c :: rest) := by
  rintro _ ⟨⟩
  exact other

theorem head?_cons_ne {c other : Char} (different : c ≠ other) :
    (c :: rest).head? ≠ some other :=
  mt Option.some.inj different

theorem stops_dropWhile (kind : Char → Bool) (text : Text) : Stops kind (text.dropWhile kind) := by
  intro c first
  have other := List.head?_dropWhile_not kind text
  rw [Option.mem_def.mp first] at other
  exact other

theorem takeWhile_append_of_stops (all : ∀ c ∈ front, kind c = true) (stops : Stops kind rest) :
    (front ++ rest).takeWhile kind = front := by
  have none : rest.takeWhile kind = [] := by
    cases rest with
    | nil => rfl
    | cons c rest => rw [List.takeWhile_cons, stops c rfl]; rfl
  rw [List.takeWhile_append_of_pos all, none, List.append_nil]

theorem dropWhile_append_of_stops (all : ∀ c ∈ front, kind c = true) (stops : Stops kind rest) :
    (front ++ rest).dropWhile kind = rest := by
  rw [List.dropWhile_append_of_pos all]
  cases rest with
  | nil => rfl
  | cons c rest => rw [List.dropWhile_cons, stops c rfl]; rfl

end

/-! ## Trimming

Trimming takes blank characters off the two ends of a text and nothing else, so a run of characters
that are not blank is never cut into. It takes all of them, so what is left neither starts nor ends
with a blank character.
-/

theorem isBlank_of_mem_takeWhile {text : Text} {c : Char}
    (member : c ∈ text.takeWhile isBlank) : isBlank c = true :=
  List.all_eq_true.mp List.all_takeWhile c member

theorem trimRight_append (text : Text) :
    text.trimRight ++ (text.reverse.takeWhile isBlank).reverse = text := by
  rw [trimRight, ← List.reverse_append, List.takeWhile_append_dropWhile, List.reverse_reverse]

/-- A text is its trimmed form between blank characters. -/
theorem exists_trim_parts (text : Text) :
    ∃ trailing, text = text.takeWhile isBlank ++ text.trim ++ trailing ∧
      ∀ c ∈ trailing, isBlank c = true := by
  refine ⟨(text.trimLeft.reverse.takeWhile isBlank).reverse, ?_, ?_⟩
  · rw [List.append_assoc, trim, trimRight_append, trimLeft, List.takeWhile_append_dropWhile]
  · intro c member
    exact isBlank_of_mem_takeWhile (List.mem_reverse.mp member)

/-- A trimmed text does not start with a blank character. -/
theorem stops_trim (text : Text) : Stops isBlank text.trim := by
  intro c first
  apply stops_dropWhile isBlank text
  have whole : text.trim ++ (text.trimLeft.reverse.takeWhile isBlank).reverse = text.dropWhile isBlank :=
    trimRight_append text.trimLeft
  rw [← whole, List.head?_append, Option.mem_def.mp first]
  rfl

/-- A trimmed text does not end with a blank character. -/
theorem not_isBlank_of_mem_getLast?_trim {text : Text} {c : Char} (last : c ∈ text.trim.getLast?) :
    isBlank c = false := by
  rw [trim, trimRight, List.getLast?_reverse] at last
  exact stops_dropWhile isBlank text.trimLeft.reverse c last

theorem mem_of_mem_trim {text : Text} {c : Char} (member : c ∈ text.trim) : c ∈ text := by
  obtain ⟨trailing, parts, -⟩ := exists_trim_parts text
  rw [parts]
  exact List.mem_append_left _ (List.mem_append_right _ member)

/-- A run without blank characters ends before the next blank one. -/
theorem prefix_of_prefix_append {run front back : Text} (solid : ∀ c ∈ run, isBlank c = false)
    (stops : ∀ c ∈ back.head?, isBlank c = true) (found : run <+: front ++ back) :
    run <+: front := by
  rcases List.prefix_or_prefix_of_prefix found (List.prefix_append front back) with within | past
  · exact within
  · obtain ⟨rest, rfl⟩ := past
    cases rest with
    | nil => simp only [List.append_nil, List.prefix_rfl]
    | cons c rest =>
      have next : c ∈ back.head? := by
        obtain ⟨others, parts⟩ := (List.prefix_append_right_inj front).mp found
        rw [← parts]
        rfl
      have blank := stops c next
      rw [solid c (List.mem_append_right _ (List.mem_cons_self ..))] at blank
      cases blank

/-- A run of characters that are not blank lies inside the trimmed text. -/
theorem prefix_drop_trim {text run : Text} {offset : Nat} (nonempty : run ≠ [])
    (solid : ∀ c ∈ run, isBlank c = false) (found : run <+: text.drop offset) :
    (text.takeWhile isBlank).length ≤ offset ∧
      run <+: text.trim.drop (offset - (text.takeWhile isBlank).length) := by
  obtain ⟨trailing, parts, blanks⟩ := exists_trim_parts text
  have leading : ∀ c ∈ text.takeWhile isBlank, isBlank c = true :=
    fun _ member => isBlank_of_mem_takeWhile member
  generalize text.takeWhile isBlank = lead at parts leading ⊢
  generalize text.trim = kept at parts ⊢
  subst parts
  rw [List.append_assoc] at found
  have reached : lead.length ≤ offset := by
    apply Nat.le_of_not_lt
    intro early
    obtain ⟨c, rest, blank⟩ := List.exists_cons_of_length_pos
      (List.length_drop ▸ Nat.sub_pos_of_lt early : 0 < (lead.drop offset).length)
    rw [List.drop_append_of_le_length (Nat.le_of_lt early), blank] at found
    have member : c ∈ lead := List.mem_of_mem_drop (blank ▸ List.mem_cons_self ..)
    have none : run <+: [] := by
      refine prefix_of_prefix_append solid ?_ found
      intro d first
      cases first
      exact leading c member
    exact nonempty (List.prefix_nil.mp none)
  refine ⟨reached, ?_⟩
  rw [List.drop_append, List.drop_eq_nil_of_le reached, List.nil_append, List.drop_append] at found
  apply prefix_of_prefix_append solid _ found
  intro c first
  exact blanks c (List.mem_of_mem_drop (List.mem_of_mem_head? first))

/-! ## Searching

The offset that a search finds is the least one at which the part occurs, and the search finds one
whenever the part occurs at all.
-/

theorem offsetOf?_eq_some_iff {text part : Text} {offset : Nat} :
    text.offsetOf? part = some offset ↔
      part <+: text.drop offset ∧ ∀ earlier < offset, ¬ part <+: text.drop earlier := by
  induction text generalizing offset with
  | nil =>
    by_cases empty : part = []
    · subst empty
      simp only [offsetOf?, List.isEmpty_nil, ↓reduceIte, Option.some.injEq, List.drop_nil,
        List.prefix_rfl, not_true_eq_false, true_and]
      constructor
      · rintro rfl earlier early
        exact Nat.not_lt_zero _ early
      · intro least
        exact (Nat.eq_zero_of_not_pos (least 0)).symm
    · simp only [offsetOf?, List.isEmpty_iff, empty, ↓reduceIte, reduceCtorEq, List.drop_nil,
        List.prefix_nil, false_and]
  | cons c text ih =>
    by_cases here : part <+: c :: text
    · have found : part.isPrefixOf (c :: text) = true := List.isPrefixOf_iff_prefix.mpr here
      simp only [offsetOf?, found, ↓reduceIte, Option.some.injEq]
      constructor
      · rintro rfl
        exact ⟨here, fun earlier early => absurd early (Nat.not_lt_zero _)⟩
      · rintro ⟨-, least⟩
        exact (Nat.eq_zero_of_not_pos fun positive => least 0 positive here).symm
    · have missed : ¬ part.isPrefixOf (c :: text) = true :=
        fun found => here (List.isPrefixOf_iff_prefix.mp found)
      cases offset with
      | zero =>
        simp only [offsetOf?, missed, Bool.false_eq_true, ↓reduceIte, Option.map_eq_some_iff,
          Nat.add_eq_zero_iff, Nat.one_ne_zero, and_false, exists_false, List.drop_zero, here,
          false_and]
      | succ offset =>
        simp only [offsetOf?, missed, Bool.false_eq_true, ↓reduceIte, Option.map_eq_some_iff,
          Nat.add_right_cancel_iff, exists_eq_right, ih, List.drop_succ_cons]
        refine and_congr_right fun _ => ⟨fun least earlier early => ?_, fun least earlier early => ?_⟩
        · cases earlier with
          | zero => exact here
          | succ earlier => exact least earlier (Nat.lt_of_succ_lt_succ early)
        · exact least (earlier + 1) (Nat.succ_lt_succ early)

theorem le_length_of_offsetOf? {text part : Text} {offset : Nat}
    (found : text.offsetOf? part = some offset) : offset ≤ text.length := by
  obtain ⟨occurs, least⟩ := offsetOf?_eq_some_iff.mp found
  apply Nat.le_of_not_lt
  intro past
  rw [List.drop_eq_nil_of_le (Nat.le_of_lt past)] at occurs
  apply least text.length past
  rw [List.drop_length]
  exact occurs

theorem exists_offsetOf?_le {text part : Text} {offset : Nat} (found : part <+: text.drop offset) :
    ∃ first, text.offsetOf? part = some first ∧ first ≤ offset := by
  induction offset using Nat.strongRecOn with
  | ind offset ih =>
    by_cases least : ∀ earlier < offset, ¬ part <+: text.drop earlier
    · exact ⟨offset, offsetOf?_eq_some_iff.mpr ⟨found, least⟩, Nat.le_refl _⟩
    · simp only [Classical.not_forall, Classical.not_not] at least
      obtain ⟨earlier, early, foundEarlier⟩ := least
      obtain ⟨first, search, before⟩ := ih earlier early foundEarlier
      exact ⟨first, search, Nat.le_of_lt (Nat.lt_of_le_of_lt before early)⟩

/-- The search fails only where the part occurs nowhere. -/
theorem offsetOf?_eq_none_iff {text part : Text} : text.offsetOf? part = none ↔ ¬ part <:+: text := by
  constructor
  · rintro missed ⟨front, behind, rfl⟩
    have occurs : part <+: (front ++ part ++ behind).drop front.length := by
      rw [List.append_assoc, List.drop_left]
      exact List.prefix_append ..
    obtain ⟨first, found, -⟩ := exists_offsetOf?_le occurs
    rw [missed] at found
    cases found
  · intro nowhere
    cases found : text.offsetOf? part with
    | none => rfl
    | some offset =>
      have occurs := (offsetOf?_eq_some_iff.mp found).1
      exact absurd (occurs.isInfix.trans (List.drop_suffix ..).isInfix) nowhere

/-- A part that is found ends in the text. -/
theorem add_length_le_of_offsetOf? {text part : Text} {offset : Nat}
    (found : text.offsetOf? part = some offset) : offset + part.length ≤ text.length := by
  have inside := le_length_of_offsetOf? found
  have short := (offsetOf?_eq_some_iff.mp found).1.length_le
  rw [List.length_drop] at short
  omega

end Pinpoint.Text

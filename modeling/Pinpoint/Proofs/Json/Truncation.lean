import Pinpoint.Proofs.Json.Records

/-! # Written records that break off

A written record of which the end is missing ends early, wherever it breaks off. Only the digits of
a numeral can be read although some are missing: they are those of a smaller number. Then nothing is
left of the text, and what must follow the numeral is missing too. So a reader of a value that
breaks off either ends early or leaves no text behind, and a record, which ends with a brace of its
own, ends early.
-/

namespace Pinpoint

namespace Text

/-- Digits of which the last ones are missing write a smaller number. -/
theorem exists_eq_ofNat_of_isPrefix {n : Nat} {front : Text} (cut : front <+: ofNat n)
    (nonempty : front ≠ []) : ∃ m ≤ n, front = ofNat m := by
  induction n using Nat.strongRecOn with
  | ind n ih =>
    rcases Nat.lt_or_ge n 10 with small | large
    · have digit : ofNat n = [] ++ [n.digitChar] := Nat.toDigits_of_lt_base small
      rw [digit] at cut
      rcases List.prefix_concat_iff.mp cut with whole | none
      · exact ⟨n, Nat.le_refl n, whole.trans digit.symm⟩
      · exact absurd (List.prefix_nil.mp none) nonempty
    · have digits : ofNat n = ofNat (n / 10) ++ [(n % 10).digitChar] :=
        Nat.toDigits_of_base_le (by decide) large
      rw [digits] at cut
      rcases List.prefix_concat_iff.mp cut with whole | shorter
      · exact ⟨n, Nat.le_refl n, whole.trans digits.symm⟩
      · obtain ⟨m, fewer, same⟩ := ih (n / 10) (Nat.div_lt_self (by omega) (by decide)) shorter
        exact ⟨m, Nat.le_trans fewer (Nat.div_le_self n 10), same⟩

/-- What breaks off breaks off in the first of two parts or behind it. -/
theorem prefix_append_cases {front text rest : Text} (cut : front <+: text ++ rest) :
    (front <+: text ∧ front ≠ text) ∨ ∃ back, front = text ++ back ∧ back <+: rest := by
  rcases List.prefix_or_prefix_of_prefix cut (List.prefix_append text rest) with within | past
  · by_cases whole : front = text
    · exact .inr ⟨[], by rw [whole, List.append_nil], List.nil_prefix⟩
    · exact .inl ⟨within, whole⟩
  · obtain ⟨back, rfl⟩ := past
    exact .inr ⟨back, rfl, (List.prefix_append_right_inj text).mp cut⟩

end Text

namespace Json

variable {purpose : Purpose} {α β : Type}

/-- The text ends early, or a value has been read and no text is left. -/
def Starved (result : Except ReadError (α × Text)) : Prop :=
  result = .error .endsEarly ∨ ∃ value, result = .ok (value, [])

theorem Starved.map {result : Except ReadError (α × Text)} (starved : Starved result)
    (pass : α → β) : Starved (result.map fun (value, rest) => (pass value, rest)) := by
  rcases starved with rfl | ⟨value, rfl⟩
  · exact .inl rfl
  · exact .inr ⟨pass value, rfl⟩

/-- Whatever needs more text ends early where none is left. -/
theorem Starved.bind {result : Except ReadError (α × Text)} (starved : Starved result)
    {next : α × Text → Except ReadError β} (needs : ∀ value, next (value, []) = .error .endsEarly) :
    result >>= next = .error .endsEarly := by
  rcases starved with rfl | ⟨value, rfl⟩
  · rfl
  · exact needs value

/-! ## Strings -/

/-- An escape of which the last digits are missing. -/
theorem codeUnit_of_length_lt {digits : Text} (short : digits.length < 4)
    (narrow : ∀ c ∈ digits, c.utf8Size = 1) : codeUnit digits = .error .endsEarly := by
  have size : Text.utf8Size digits = digits.length := by
    clear short
    induction digits with
    | nil => rfl
    | cons c digits ih =>
      have rest := ih fun d member => narrow d (List.mem_cons_of_mem _ member)
      unfold Text.utf8Size at rest ⊢
      rw [List.foldr_cons, rest, narrow c (List.mem_cons_self ..), List.length_cons, Nat.add_comm]
  rw [codeUnit, List.take_of_length_le (Nat.le_of_lt short), size, if_pos short]

theorem readEscape_endsEarly_of_isPrefix {c : Char} (low : c < ' ') {front : Text}
    (cut : front <+: ['u', '0', '0', hexDigit (c.toNat / 16), hexDigit (c.toNat % 16)])
    (broken : front ≠ ['u', '0', '0', hexDigit (c.toNat / 16), hexDigit (c.toNat % 16)]) :
    readEscape purpose front = .error .endsEarly := by
  have small : c.toNat < 32 := low
  rcases List.prefix_cons_iff.mp cut with rfl | ⟨digits, rfl, rest⟩
  · rfl
  · have narrow : ∀ d ∈ digits, d.utf8Size = 1 := by
      intro d member
      have digit := rest.mem member
      simp only [List.mem_cons, List.not_mem_nil, or_false] at digit
      rcases digit with rfl | rfl | rfl | rfl
      · rfl
      · rfl
      · exact utf8Size_hexDigit _ (by omega)
      · exact utf8Size_hexDigit _ (by omega)
    have short : digits.length < 4 := by
      apply Nat.lt_of_not_le
      intro long
      exact broken (congrArg ('u' :: ·) (rest.eq_of_length_le long))
    rw [readEscape, codeUnit_of_length_lt short narrow]
    rfl

/-- A string ends early in the middle of a character. -/
theorem readString_of_prefix_escape {c : Char} {front : Text} (cut : front <+: escape c)
    (broken : front ≠ escape c) : readString purpose front = .error .endsEarly := by
  have form := escaped_escape c
  generalize escape c = written at form cut broken
  have backslash (escaped : Text) (missing : readEscape purpose escaped = .error .endsEarly) :
      readString purpose ('\\' :: escaped) = .error .endsEarly := by
    rw [readString, if_neg (by decide), if_pos rfl, missing]
  have nothing : readString purpose [] = .error .endsEarly := by rw [readString]
  rcases form with solid | letter | low
  · rcases List.prefix_cons_iff.mp cut with rfl | ⟨rest, rfl, none⟩
    · exact nothing
    · exact absurd (congrArg (c :: ·) (List.prefix_nil.mp none)) broken
  · rcases List.prefix_cons_iff.mp cut with rfl | ⟨rest, rfl, last⟩
    · exact nothing
    · rcases List.prefix_cons_iff.mp last with rfl | ⟨rest, rfl, none⟩
      · exact backslash [] rfl
      · exact absurd (congrArg ('\\' :: letter :: ·) (List.prefix_nil.mp none)) broken
  · rcases List.prefix_cons_iff.mp cut with rfl | ⟨escaped, rfl, rest⟩
    · exact nothing
    · exact backslash escaped
        (readEscape_endsEarly_of_isPrefix low rest (mt (congrArg ('\\' :: ·)) broken))

/-- A string of which the closing quotation mark is missing ends early. -/
theorem readString_of_isPrefix {text front : Text} (cut : front <+: text.flatMap escape ++ ['"'])
    (broken : front ≠ text.flatMap escape ++ ['"']) :
    readString purpose front = .error .endsEarly := by
  induction text generalizing front with
  | nil =>
    rcases List.prefix_concat_iff.mp cut with whole | none
    · exact absurd whole broken
    · rw [List.prefix_nil.mp none, readString]
  | cons c text ih =>
    rw [List.flatMap_cons, List.append_assoc] at cut broken
    rcases Text.prefix_append_cases cut with ⟨within, partial'⟩ | ⟨back, rfl, rest⟩
    · exact readString_of_prefix_escape within partial'
    · rw [readString_escape, ih rest (mt (congrArg (escape c ++ ·)) broken)]
      rfl

theorem readName_of_prefix_quote {name front : Text} (cut : front <+: quote name)
    (broken : front ≠ quote name) : readName purpose front = .error .endsEarly := by
  rcases List.prefix_cons_iff.mp cut with rfl | ⟨rest, rfl, body⟩
  · rfl
  · rw [readName, if_pos rfl]
    exact readString_of_isPrefix body (mt (congrArg ('"' :: ·)) broken)

/-- Nothing that starts like a written string starts with a blank. -/
theorem skipSpace_of_prefix_quote {name rest front : Text} (cut : front <+: quote name ++ rest) :
    skipSpace front = front := by
  rcases List.prefix_cons_iff.mp cut with rfl | ⟨tail, rfl, -⟩
  · rfl
  · exact skipSpace_cons_of_not_isSpace (by decide) tail

/-! ## Single values -/

theorem render_ofNat (n : Nat) : (ofNat n).render = Text.ofNat n := by
  rw [ofNat, render, render_eq_parts]
  exact List.append_nil _

theorem starved_readOffset {n : Nat} (offset : n ≤ maxOffset) {front : Text}
    (cut : front <+: (ofNat n).render) : Starved (readOffset front) := by
  by_cases empty : front = []
  · subst empty
    exact .inl rfl
  · rw [render_ofNat] at cut
    obtain ⟨m, fewer, rfl⟩ := Text.exists_eq_ofNat_of_isPrefix cut empty
    have read := readOffset_render (Nat.le_trans fewer offset) ends_nil
    rw [render_ofNat, List.append_nil] at read
    exact .inr ⟨m, read⟩

theorem readText_of_isPrefix {text front : Text} (cut : front <+: (string text).render)
    (broken : front ≠ (string text).render) : readText front = .error .endsEarly := by
  rcases List.prefix_cons_iff.mp cut with rfl | ⟨rest, rfl, body⟩
  · rfl
  · exact readString_of_isPrefix body (mt (congrArg ('"' :: ·)) broken)

theorem readOptionalText_of_isPrefix {text front : Text} (cut : front <+: (string text).render)
    (broken : front ≠ (string text).render) : readOptionalText front = .error .endsEarly := by
  have string := readText_of_isPrefix cut broken
  rcases List.prefix_cons_iff.mp cut with rfl | ⟨rest, rfl, body⟩
  · rfl
  · have opened : readOptionalText ('"' :: rest) =
        (readText ('"' :: rest)).map fun read => (some read.1, read.2) := rfl
    rw [opened, string]
    rfl

/-! ## Members -/

variable {δ : Type}

/-- Where the written form of a value breaks off, the field leaves no text behind. -/
def Field.Breaks (field : Field δ) (value : Json) : Prop :=
  ∀ draft front, front <+: value.render → front ≠ value.render → Starved (field.read draft front)

theorem Field.breaks_of {value : Json} {reader : Reader β} {name : String}
    {consumes : Consumes reader} {put : δ → β → δ}
    (starved : ∀ front, front <+: value.render → front ≠ value.render → Starved (reader front)) :
    (Field.of name reader consumes put).Breaks value :=
  fun draft front cut broken => (starved front cut broken).map (put draft)

theorem Field.breaks_offset (name : String) (put : δ → Nat → δ) {n : Nat} (offset : n ≤ maxOffset) :
    (Field.offset name put).Breaks (.ofNat n) :=
  breaks_of fun _ cut _ => starved_readOffset offset cut

theorem Field.breaks_text (name : String) (put : δ → Text → δ) (text : Text) :
    (Field.text name put).Breaks (.string text) :=
  breaks_of fun _ cut broken => .inl (readText_of_isPrefix cut broken)

theorem Field.breaks_optionalText (name : String) (put : δ → Option Text → δ) (text : Text) :
    (Field.optionalText name put).Breaks (.string text) :=
  breaks_of fun _ cut broken => .inl (readOptionalText_of_isPrefix cut broken)

namespace Shape

/-- The fields that the members go into leave no text behind where a value breaks off. -/
inductive Severs : List (Field δ) → List (Text × Json) → Prop where
  | nil (pending : List (Field δ)) : Severs pending []
  | cons {pending : List (Field δ)} {name : Text} {value : Json} {members : List (Text × Json)}
    {field : Field δ} (found : pending.find? (·.name == name) = some field)
    (breaks : field.Breaks value) (others : Severs (pending.eraseP (·.name == name)) members) :
    Severs pending ((name, value) :: members)

variable {name front : Text} {value : Json} {members : List (Text × Json)}

theorem starved_readMember (shape : Shape δ α) {pending : List (Field δ)} {field : Field δ}
    (found : pending.find? (·.name == name) = some field) (breaks : field.Breaks value) (draft : δ)
    (cut : front <+: quote name ++ ':' :: value.render)
    (broken : front ≠ quote name ++ ':' :: value.render) :
    Starved (shape.readMember ⟨pending, draft⟩ front) := by
  rcases Text.prefix_append_cases cut with ⟨within, unfinished⟩ | ⟨back, rfl, rest⟩
  · rw [readMember, readName_of_prefix_quote within unfinished]
    exact .inl rfl
  · simp only [readMember, readName_quote, bind, Except.bind, found]
    rcases List.prefix_cons_iff.mp rest with rfl | ⟨written, rfl, inner⟩
    · exact .inl rfl
    · have starved := breaks draft written inner
        (mt (congrArg fun text => quote name ++ ':' :: text) broken)
      rw [readColon_colon]
      rcases starved with ended | ⟨next, read⟩
      · exact .inl (by simp only [ended])
      · exact .inr ⟨_, by simp only [read]; rfl⟩

theorem ends_of_prefix_renderMembers (cut : front <+: renderMembers members) : Ends front := by
  cases front with
  | nil => exact ends_nil
  | cons c front =>
    rcases members with _ | ⟨⟨key, value⟩, members⟩
    · obtain ⟨rfl, -⟩ := List.cons_prefix_cons.mp cut
      exact ends_cons (by decide)
    · rw [renderMembers] at cut
      obtain ⟨rfl, -⟩ := List.cons_prefix_cons.mp cut
      exact ends_cons (by decide)

/-- Members end early where the first one breaks off, and where the others end early. -/
theorem readMembers_of_prefix_cons (shape : Shape δ α) {pending : List (Field δ)} {draft next : δ}
    {field : Field δ} (found : pending.find? (·.name == name) = some field)
    (takes : field.Takes value draft next) (breaks : field.Breaks value)
    (cut : front <+: quote name ++ ':' :: (value.render ++ renderMembers members))
    (broken : front ≠ quote name ++ ':' :: (value.render ++ renderMembers members))
    (others : ∀ back, back <+: renderMembers members → back ≠ renderMembers members →
      (readSeparator back >>= fun (more, text) =>
        if more then shape.readMembers ⟨pending.eraseP (·.name == name), next⟩ text
        else .ok (next, text)) = .error .endsEarly) :
    shape.readMembers ⟨pending, draft⟩ front = .error .endsEarly := by
  have parts : quote name ++ ':' :: (value.render ++ renderMembers members) =
      (quote name ++ ':' :: value.render) ++ renderMembers members := by
    rw [List.append_assoc, List.cons_append]
  rw [parts] at cut broken
  rw [readMembers_eq_bind]
  rcases Text.prefix_append_cases cut with ⟨within, unfinished⟩ | ⟨back, rfl, rest⟩
  · exact (shape.starved_readMember found breaks draft within unfinished).bind fun _ => rfl
  · rw [List.append_assoc, List.cons_append,
      readMember_of_takes shape found takes (ends_of_prefix_renderMembers rest)]
    exact others back rest (mt (congrArg _) broken)

/-- Members that break off end early: another one or the end of the object must follow. -/
theorem readMembers_of_isPrefix (shape : Shape δ α) {reading : Reading δ} {final : δ}
    (gathers : Gathers reading ((name, value) :: members) final)
    (severs : Severs reading.pending ((name, value) :: members))
    (cut : front <+: quote name ++ ':' :: (value.render ++ renderMembers members))
    (broken : front ≠ quote name ++ ':' :: (value.render ++ renderMembers members)) :
    shape.readMembers reading front = .error .endsEarly := by
  induction members generalizing reading name value front with
  | nil =>
    cases gathers with | cons found takes others
    cases severs with | cons again breaks otherSevers
    cases found.symm.trans again
    cases others
    refine readMembers_of_prefix_cons shape found takes breaks cut broken ?_
    intro back rest unfinished
    rcases List.prefix_cons_iff.mp rest with rfl | ⟨tail, rfl, none⟩
    · rfl
    · exact absurd (congrArg ('\x7d' :: ·) (List.prefix_nil.mp none)) unfinished
  | cons member members ih =>
    obtain ⟨second, item⟩ := member
    cases gathers with | cons found takes others
    cases severs with | cons again breaks otherSevers
    cases found.symm.trans again
    refine readMembers_of_prefix_cons shape found takes breaks cut broken ?_
    intro back rest unfinished
    simp only [renderMembers, List.append_assoc, List.cons_append] at rest unfinished
    rcases List.prefix_cons_iff.mp rest with rfl | ⟨text, rfl, inner⟩
    · rfl
    · have separator : readSeparator (',' :: text) = .ok (true, text) := by
        have comma : readSeparator (',' :: text) = .ok (true, skipSpace text) := rfl
        rw [comma, skipSpace_of_prefix_quote inner]
      rw [separator]
      exact ih others otherSevers inner (mt (congrArg (',' :: ·)) unfinished)

theorem readMembers_nil (shape : Shape δ α) (reading : Reading δ) :
    shape.readMembers reading [] = .error .endsEarly := by
  rw [readMembers_eq_bind]
  rfl

/-- A written object that breaks off ends early. -/
theorem read_of_isPrefix (shape : Shape δ α) {final : δ}
    (gathers : Gathers ⟨shape.fields, shape.blank⟩ members final)
    (severs : Severs shape.fields members) (cut : front <+: (object members).render)
    (broken : front ≠ (object members).render) : shape.read front = .error .endsEarly := by
  have opened (text : Text) (missing : shape.readObject text = .error .endsEarly) :
      shape.read ('\x7b' :: text) = .error .endsEarly := by
    unfold Shape.read
    rw [skipSpace_cons_of_not_isSpace (by decide)]
    simp only [↓reduceIte, missing]
    rfl
  rcases members with _ | ⟨⟨name, value⟩, members⟩
  · change front <+: ['\x7b'] ++ ['\x7d'] at cut
    rcases List.prefix_concat_iff.mp cut with whole | inner
    · exact absurd whole broken
    · rcases List.prefix_cons_iff.mp inner with rfl | ⟨text, rfl, none⟩
      · rfl
      · rw [List.prefix_nil.mp none]
        exact opened [] (shape.readMembers_nil _)
  · simp only [render, List.append_assoc, List.cons_append] at cut broken
    rcases List.prefix_cons_iff.mp cut with rfl | ⟨text, rfl, inner⟩
    · rfl
    · have missing := shape.readMembers_of_isPrefix gathers severs inner
        (mt (congrArg ('\x7b' :: ·)) broken)
      apply opened
      rw [readObject, skipSpace_of_prefix_quote inner]
      split
      · obtain ⟨quotation, -⟩ := List.cons_prefix_cons.mp inner
        exact absurd quotation (by decide)
      · exact missing

end Shape

end Json

end Pinpoint

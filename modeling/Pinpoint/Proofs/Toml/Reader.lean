import Pinpoint.Proofs.Text
import Pinpoint.Toml.Reader

/-! # What readers read

A reader takes a value off the front of a text and leaves the rest, or it fails. What readers put
together from others do with a text follows from what these do with it, one after the other.
-/

namespace Pinpoint.Toml

/-- The reader takes a value off the text and leaves the rest. -/
def Reads {α : Type} (reader : Reader α) (text : Text) (value : α) (rest : Text) : Prop :=
  reader text = some (value, rest)

/-- The reader cannot take anything off the text. -/
def Fails {α : Type} (reader : Reader α) (text : Text) : Prop := reader text = none

section

variable {α β : Type} {reader other : Reader α} {next : α → Reader β} {text middle rest : Text}
  {value found : α} {result : β}

theorem Reads.of_pure (value : α) (text : Text) : Reads (pure value) text value text := rfl

theorem Reads.bind (first : Reads reader text found middle)
    (others : Reads (next found) middle result rest) :
    Reads (reader >>= next) text result rest := by
  change (reader text >>= fun found => next found.1 found.2) = some (result, rest)
  rw [first]
  exact others

theorem Reads.bind_fails (first : Reads reader text found middle)
    (others : Fails (next found) middle) : Fails (reader >>= next) text := by
  change (reader text >>= fun found => next found.1 found.2) = none
  rw [first]
  exact others

theorem Fails.bind (first : Fails reader text) (next : α → Reader β) :
    Fails (reader >>= next) text := by
  change (reader text >>= fun found => next found.1 found.2) = none
  rw [first]
  rfl

/-- It is enough to look at what can be read first. -/
theorem Fails.bind_of (others : ∀ found middle, Reads reader text found middle →
    Fails (next found) middle) : Fails (reader >>= next) text := by
  cases first : reader text with
  | none => exact Fails.bind first next
  | some read => exact Reads.bind_fails first (others read.1 read.2 first)

theorem Reads.exists_of_bind (reads : Reads (reader >>= next) text result rest) :
    ∃ found middle, Reads reader text found middle ∧ Reads (next found) middle result rest := by
  obtain ⟨read, first, others⟩ := Option.bind_eq_some_iff.mp reads
  exact ⟨read.1, read.2, first, others⟩

theorem Reads.map (first : Reads reader text value rest) (f : α → β) :
    Reads (f <$> reader) text (f value) rest := by
  change (reader text >>= fun found => some (f found.1, found.2)) = some (f value, rest)
  rw [first]
  rfl

theorem Fails.map (first : Fails reader text) (f : α → β) : Fails (f <$> reader) text := by
  change (reader text >>= fun found => some (f found.1, found.2)) = none
  rw [first]
  rfl

/-- The first reader that succeeds is taken. -/
theorem Reads.orElse (first : Reads reader text value rest) (other : Reader α) :
    Reads (reader <|> other) text value rest := by
  change (reader text <|> other text) = some (value, rest)
  rw [first]
  rfl

theorem Fails.orElse (first : Fails reader text) (second : Reads other text value rest) :
    Reads (reader <|> other) text value rest := by
  change (reader text <|> other text) = some (value, rest)
  rw [first, second]
  rfl

theorem Fails.orElse_fails (first : Fails reader text) (second : Fails other text) :
    Fails (reader <|> other) text := by
  change (reader text <|> other text) = none
  rw [first, second]
  rfl

theorem Reads.seqRight {second : Reader β} (first : Reads reader text value middle)
    (others : Reads second middle result rest) : Reads (reader *> second) text result rest :=
  first.bind others

theorem Fails.seqRight (first : Fails reader text) (second : Reader β) :
    Fails (reader *> second) text :=
  first.bind fun _ => second

theorem Reads.optional (first : Reads reader text value rest) :
    Reads reader.optional text (some value) rest := by
  unfold Reads Reader.optional
  rw [first]

theorem Fails.optional (first : Fails reader text) : Reads reader.optional text none text := by
  unfold Reads Reader.optional
  rw [first]

theorem Fails.many (first : Fails reader text) : Reads reader.many text [] text := by
  unfold Reads
  rw [Reader.many, first]

theorem Reads.many {values : List α} (first : Reads reader text value middle)
    (shorter : middle.length < text.length) (others : Reads reader.many middle values rest) :
    Reads reader.many text (value :: values) rest := by
  unfold Reads at others ⊢
  rw [Reader.many, first]
  simp only [if_pos shorter, others, Option.map_some]

end

/-! ## Characters -/

section

variable {c : Char} {kind : Char → Bool} {front rest text expected : Text}

theorem reads_char (c : Char) (rest : Text) : Reads (Reader.char c) (c :: rest) () rest := by
  simp only [Reads, Reader.char, ↓reduceIte]

theorem fails_char (other : text.head? ≠ some c) : Fails (Reader.char c) text := by
  cases text with
  | nil => rfl
  | cons first rest => exact if_neg (mt (congrArg some) other)

theorem fails_satisfy (stops : Text.Stops kind text) : Fails (Reader.satisfy kind) text := by
  cases text with
  | nil => rfl
  | cons first rest =>
    rw [Fails, Reader.satisfy, stops first rfl]
    rfl

theorem fails_word (other : ¬ expected <+: text) : Fails (Reader.word expected) text := by
  rw [Fails, Reader.word, if_neg (mt List.isPrefixOf_iff_prefix.mp other)]

/-- A word is not read where not even its first character stands. -/
theorem fails_word_cons (other : text.head? ≠ some c) :
    Fails (Reader.word (c :: expected)) text := by
  apply fails_word
  rintro ⟨behind, rfl⟩
  exact other rfl

theorem reads_takeWhile (all : ∀ c ∈ front, kind c = true) (stops : Text.Stops kind rest) :
    Reads (Reader.takeWhile kind) (front ++ rest) front rest := by
  rw [Reads, Reader.takeWhile, Text.takeWhile_append_of_stops all stops,
    Text.dropWhile_append_of_stops all stops]

theorem reads_takeWhile1 (nonempty : front ≠ []) (all : ∀ c ∈ front, kind c = true)
    (stops : Text.Stops kind rest) :
    Reads (Reader.takeWhile1 kind) (front ++ rest) front rest := by
  apply (reads_takeWhile all stops).bind
  rw [if_neg nonempty]
  exact .of_pure front rest

theorem stops_isBlank (space : text.head? ≠ some ' ') (tab : text.head? ≠ some '\t') :
    Text.Stops isBlank text := by
  intro first starts
  have noSpace : first ≠ ' ' := fun same => space (starts.trans (congrArg some same))
  have noTab : first ≠ '\t' := fun same => tab (starts.trans (congrArg some same))
  rw [isBlank, beq_false_of_ne noSpace, beq_false_of_ne noTab, Bool.or_false]

theorem reads_blanks (all : ∀ c ∈ front, isBlank c = true) (stops : Text.Stops isBlank rest) :
    Reads blanks (front ++ rest) () rest :=
  (reads_takeWhile all stops).bind (.of_pure () rest)

/-- There need not be blanks. -/
theorem reads_no_blanks (stops : Text.Stops isBlank text) : Reads blanks text () text :=
  reads_blanks (List.forall_mem_nil _) stops

theorem reads_lineEnd (rest : Text) : Reads lineEnd ('\n' :: rest) () rest := rfl

end

end Pinpoint.Toml

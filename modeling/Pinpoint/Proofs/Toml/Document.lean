import Mathlib.Data.List.Forall2
import Pinpoint.Proofs.Toml.Numbers
import Pinpoint.Proofs.Toml.Strings
import Pinpoint.Toml.Document

/-! # Reading back TOML documents

A document is read back line by line. A line that gives a value to a key is neither one that opens a
table nor blank, and a line ends where the next one starts, so that what a line says does not depend
on the lines behind it.
-/

namespace Pinpoint.Toml

/-! ## Keys -/

/-- A key that stands without quotation marks. -/
structure IsName (name : Text) : Prop where
  nonempty : name ≠ []
  bare : ∀ c ∈ name, isBare c = true

variable {name rest : Text}

theorem isName_of_all (nonempty : name ≠ []) (bare : name.all isBare = true) : IsName name :=
  ⟨nonempty, List.all_eq_true.mp bare⟩

theorem IsName.head?_ne (isName : IsName name) {c : Char} (other : isBare c = false) (rest : Text) :
    (name ++ rest).head? ≠ some c := by
  cases name with
  | nil => exact absurd rfl isName.nonempty
  | cons first name =>
    rintro ⟨⟩
    exact Bool.false_ne_true (other.symm.trans (isName.bare c List.mem_cons_self))

theorem IsName.stops_isBlank (isName : IsName name) (rest : Text) :
    Text.Stops isBlank (name ++ rest) :=
  Toml.stops_isBlank (isName.head?_ne (by decide) rest) (isName.head?_ne (by decide) rest)

/-- A key that is not dotted is read with the blanks behind it. -/
theorem reads_key (isName : IsName name) {spaces : Text} (all : ∀ c ∈ spaces, isBlank c = true)
    (boundary : Text.Stops isBare (spaces ++ rest)) (stops : Text.Stops isBlank rest)
    (single : rest.head? ≠ some '.') :
    Reads key (name ++ (spaces ++ rest)) ⟨[], name⟩ rest := by
  have part : Reads keyPart (name ++ (spaces ++ rest)) name (spaces ++ rest) :=
    ((fails_char (isName.head?_ne (by decide) _)).bind _).orElse
      (((fails_char (isName.head?_ne (by decide) _)).bind _).orElse
        (reads_takeWhile1 isName.nonempty isName.bare boundary))
  refine Reads.bind ?_ (((fails_char single).seqRight _).many.bind (.of_pure _ _))
  exact (reads_no_blanks (isName.stops_isBlank _)).bind
    (part.bind ((reads_blanks all stops).bind (.of_pure _ _)))

/-! ## Values -/

variable {text written : Text} {item : Item}

theorem reads_value (scalar : Reads scalar text item rest) (depth : Nat) :
    Reads (value depth) text item rest := by
  cases depth with
  | zero => exact scalar
  | succ depth => exact scalar.orElse _

theorem reads_scalar_string (spellings : List Spelling) (other : rest.head? ≠ some '"') :
    Reads scalar (quoted spellings ++ rest) (.text (spelled spellings)) rest :=
  ((reads_string spellings other).map Item.text).orElse _

theorem reads_scalar_integer {n : Nat} (small : n ≤ maxInteger) (rest : Text) :
    Reads scalar (Text.ofNat n ++ '\n' :: rest) (.integer (Int64.ofInt n)) ('\n' :: rest) := by
  have line := DigitsLine.of_number n rest
  have noString : Fails string (Text.ofNat n ++ '\n' :: rest) := by
    apply fails_string
    intro c starts
    constructor
    · rintro rfl
      exact line.head?_ne (by decide) (by decide) starts
    · rintro rfl
      exact line.head?_ne (by decide) (by decide) starts
  exact (noString.map _).orElse ((line.fails_moment.bind _).orElse
    (((fails_float n rest).bind _).orElse (((reads_integer small rest).map Item.integer).orElse _)))

/-! ## Lines -/

/-- The line says what the statement says, whatever lines follow. -/
def ReadsLine (text : Text) (said : Statement) : Prop :=
  ∀ rest, Reads line (text ++ '\n' :: rest) (some said) ('\n' :: rest)

theorem readsLine_of_statement {said : Statement}
    (solid : ∀ rest, Text.Stops isBlank (text ++ '\n' :: rest))
    (reads : ∀ rest, Reads statement (text ++ '\n' :: rest) said ('\n' :: rest)) :
    ReadsLine text said := by
  intro rest
  have blank : Text.Stops isBlank ('\n' :: rest) := Text.stops_cons (by decide)
  have uncommented : Fails comment ('\n' :: rest) :=
    (fails_char (Text.head?_cons_ne (by decide))).bind _
  exact (reads_no_blanks (solid rest)).bind
    ((reads rest).optional.bind
      ((reads_no_blanks blank).bind (uncommented.optional.bind (.of_pure _ _))))

/-- A line gives a value to a key where the value is read up to its end. -/
theorem readsLine_assignment (isName : IsName name)
    (solid : ∀ rest, Text.Stops isBlank (written ++ '\n' :: rest))
    (reads : ∀ rest, Reads scalar (written ++ '\n' :: rest) item ('\n' :: rest)) :
    ReadsLine (assignment name written) (.assign ⟨[], name⟩ item) := by
  have parts (rest : Text) : assignment name written ++ rest =
      name ++ ([' '] ++ '=' :: ([' '] ++ (written ++ rest))) := by
    rw [assignment, List.append_assoc, List.append_assoc]
    rfl
  have space : ∀ c ∈ [' '], isBlank c = true := List.forall_mem_singleton.mpr rfl
  have keyed (behind : Text) :
      Reads key (name ++ ([' '] ++ '=' :: behind)) ⟨[], name⟩ ('=' :: behind) :=
    reads_key isName space (Text.stops_cons (by decide)) (Text.stops_cons (by decide))
      (Text.head?_cons_ne (by decide))
  apply readsLine_of_statement
  · intro rest
    rw [parts]
    exact isName.stops_isBlank _
  · intro rest
    rw [parts]
    have unopened (behind : Text) : (name ++ behind).head? ≠ some '[' :=
      isName.head?_ne (by decide) behind
    refine ((fails_word_cons (unopened _)).bind _).orElse
      (((fails_char (unopened _)).bind _).orElse ?_)
    exact (keyed _).bind ((reads_char '=' _).bind ((reads_blanks space (solid _)).bind
      ((reads_value (reads rest) _).bind (.of_pure _ _))))

theorem readsLine_header (isName : IsName name) :
    ReadsLine (header name) (.openTable ⟨[], name⟩) := by
  have parts (rest : Text) : header name ++ rest = '[' :: (name ++ ([] ++ ']' :: rest)) := by
    rw [header, List.cons_append, List.append_assoc]
    rfl
  apply readsLine_of_statement
  · intro rest
    exact Text.stops_cons (by decide)
  · intro rest
    rw [parts]
    have single : ¬ ['[', '['] <+: '[' :: (name ++ ([] ++ ']' :: '\n' :: rest)) := by
      rw [List.cons_prefix_cons]
      rintro ⟨-, behind, starts⟩
      exact isName.head?_ne (by decide) _ (congrArg List.head? starts.symm)
    have key : Reads key (name ++ ([] ++ ']' :: '\n' :: rest)) ⟨[], name⟩ (']' :: '\n' :: rest) :=
      reads_key isName nofun (Text.stops_cons (by decide)) (Text.stops_cons (by decide))
        (Text.head?_cons_ne (by decide))
    refine ((fails_word single).bind _).orElse (Reads.orElse ?_ _)
    exact (reads_char '[' _).bind (key.bind ((reads_char ']' _).bind (.of_pure _ _)))

/-! ## Documents -/

variable {lines : List Text} {said : List Statement}

/-- The first line is read, and then one line behind each line end. The last line end is followed by
an empty line. What is left behind the first line is no longer than the document, so that reading
goes on behind the next line end. -/
theorem exists_reads_lines (each : List.Forall₂ ReadsLine lines said) :
    ∃ first others middle, Reads line (ofLines lines) first middle ∧
      Reads (lineEnd *> line).many middle others [] ∧
      (first :: others).filterMap id = said ∧ middle.length ≤ (ofLines lines).length := by
  induction each with
  | nil =>
    have ended : Fails lineEnd [] := rfl
    exact ⟨none, [], [], rfl, (ended.seqRight line).many, rfl, Nat.le_refl _⟩
  | @cons text saying lines said reads each ih =>
    obtain ⟨first, others, middle, next, more, same, length⟩ := ih
    have document : ofLines (text :: lines) = text ++ '\n' :: ofLines lines := by
      rw [ofLines, List.flatMap_cons, List.append_assoc]
      rfl
    rw [document]
    refine ⟨some saying, first :: others, '\n' :: ofLines lines, reads _, ?_, ?_, ?_⟩
    · exact ((reads_lineEnd _).seqRight next).many (Nat.lt_succ_of_le length) more
    · rw [List.filterMap_cons, same]
      rfl
    · rw [List.length_append]
      exact Nat.le_add_left _ _

theorem reads_statements (each : List.Forall₂ ReadsLine lines said)
    (unmarked : (ofLines lines).head? ≠ some byteOrderMark) :
    Reads statements (ofLines lines) said [] := by
  obtain ⟨first, others, middle, reads, more, same, -⟩ := exists_reads_lines each
  subst same
  exact (fails_char unmarked).optional.bind (reads.bind (more.bind (Reads.bind rfl (.of_pure _ _))))

/-- A document is the table that its statements build. -/
theorem read?_of_reads {draft : Draft} (reads : Reads statements text said rest)
    (built : said.foldlM Draft.apply {} = some draft) : read? text = some draft.root := by
  unfold Reads at reads
  simp only [read?, reads, Option.bind_eq_bind, Option.bind_some, built]
  rfl

end Pinpoint.Toml

/-! ## Tables that grow line by line

A statement adds to the end of the open table whatever that table does not name yet. Behind the
header of a table, statements add to it and leave alone what stands before it.
-/

namespace Pinpoint.Toml

/-- The statement that gives an item to a key that is not dotted. -/
def Statement.ofEntry (entry : Text × Item) : Statement := .assign ⟨[], entry.1⟩ entry.2

namespace Entries

variable {key : Text} {change : Option Item → Option Item} {front : Entries} {item : Item}

theorem alter_of_not_mem (new : key ∉ front.map Prod.fst) :
    alter key change front = (change none).map fun item => front ++ [(key, item)] := by
  induction front with
  | nil => rfl
  | cons entry front ih =>
    obtain ⟨other, behind⟩ := not_or.mp (mt List.mem_cons.mpr new)
    rw [alter, if_neg (Ne.symm other), ih behind, Option.map_map]
    rfl

/-- The item of a key that nothing before it names is changed where it is. -/
theorem alter_append (new : key ∉ front.map Prod.fst) (back : Entries) :
    alter key change (front ++ (key, item) :: back) =
      (change (some item)).map fun item => front ++ (key, item) :: back := by
  induction front with
  | nil => exact if_pos rfl
  | cons entry front ih =>
    obtain ⟨other, behind⟩ := not_or.mp (mt List.mem_cons.mpr new)
    rw [List.cons_append, alter, if_neg (Ne.symm other), ih behind, Option.map_map]
    rfl

theorem assign_of_not_mem (new : key ∉ front.map Prod.fst) :
    front.assign [] key item = some (front ++ [(key, item)]) :=
  alter_of_not_mem new

end Entries

namespace Draft

variable {root front entries others : Entries} {name : Text}

theorem apply_openTable (new : name ∉ root.map Prod.fst) (current : List Text) :
    (Draft.mk root current).apply (.openTable ⟨[], name⟩) =
      some ⟨root ++ [(name, .table .header [])], [name]⟩ := by
  have opened : root.openTable [] name = some (root ++ [(name, .table .header [])]) :=
    Entries.alter_of_not_mem new
  simp only [apply, opened]
  rfl

/-- Behind a header, a statement adds to the table of the header. -/
theorem apply_ofEntry_table {entry : Text × Item} (first : name ∉ front.map Prod.fst)
    (new : entry.1 ∉ entries.map Prod.fst) :
    (Draft.mk (front ++ [(name, .table .header entries)]) [name]).apply (.ofEntry entry) =
      some ⟨front ++ [(name, .table .header (entries ++ [entry]))], [name]⟩ := by
  simp only [apply, Statement.ofEntry, Entries.within, Entries.alter_append first,
    Entries.assign_of_not_mem new]
  rfl

/-- The lines behind a header that name no key twice make the table of the header. -/
theorem foldlM_apply_table (first : name ∉ front.map Prod.fst)
    (once : ((entries ++ others).map Prod.fst).Nodup) :
    (others.map Statement.ofEntry).foldlM apply
        ⟨front ++ [(name, .table .header entries)], [name]⟩ =
      some ⟨front ++ [(name, .table .header (entries ++ others))], [name]⟩ := by
  induction others generalizing entries with
  | nil =>
    rw [List.append_nil]
    rfl
  | cons entry others ih =>
    have new : entry.1 ∉ entries.map Prod.fst := by
      intro member
      rw [List.map_append] at once
      exact (List.nodup_append.mp once).2.2 _ member _ List.mem_cons_self rfl
    rw [List.append_cons entries] at once ⊢
    rw [List.map_cons, List.foldlM_cons, apply_ofEntry_table first new]
    exact ih once

end Draft

end Pinpoint.Toml

import Mathlib.Data.List.Nodup
import Pinpoint.Proofs.Settings
import Pinpoint.Proofs.Toml.Document
import Pinpoint.Settings.Listing

/-! # Which settings a document can describe

Whatever a document says, its numbers are defaults or integers of the document, so that settings
that were loaded are usable and have numbers that a document can give. Such settings can also be
listed, in full or in part, and a listing is loaded as what it lists.
-/

namespace Pinpoint

open Toml (Entries Item maxInteger)

/-! ## Numbers of a document -/

theorem Toml.Item.le_of_toOffset? {item : Item} {n : Nat} (written : item.toOffset? = some n) :
    n ≤ maxInteger := by
  unfold toOffset? at written
  split at written
  · next value =>
    split at written
    · cases written
      exact Nat.le_pred_of_lt value.toNatClampNeg_lt
    · cases written
  · cases written

theorem Toml.Item.toOffset?_ofInt {n : Nat} (small : n ≤ maxInteger) :
    (Item.integer (Int64.ofInt n)).toOffset? = some n := by
  unfold maxInteger at small
  have low : -2 ^ 63 ≤ (n : Int) := by omega
  have high : (n : Int) < 2 ^ 63 := by omega
  have nonneg : 0 ≤ Int64.ofInt n := by
    rw [Int64.le_iff_toInt_le, Int64.toInt_ofInt_of_le low high]
    exact Int.natCast_nonneg n
  rw [toOffset?, if_pos nonneg, Int64.toNatClampNeg_ofInt_of_le low high, Int.toNat_natCast]

/-- An offset is the default where it is absent, and else an integer of the document. -/
theorem le_of_offset? {item : Option Item} {default n : Nat} (usual : default ≤ maxInteger)
    (written : (match item with | none => some default | some item => item.toOffset?) = some n) :
    n ≤ maxInteger := by
  cases item with
  | none => cases written; exact usual
  | some item => exact item.le_of_toOffset? written

namespace Window

variable {window : Window}

/-- The defaults are numbers of a document. -/
theorem representable_default : ({} : Window).Representable := ⟨by decide, by decide, by decide⟩

/-- A window is made of three offsets that are read one after the other. -/
theorem representable_of_offsets {before? after? tokenLimit? : Option Nat}
    (first : ∀ n, before? = some n → n ≤ maxInteger)
    (second : ∀ n, after? = some n → n ≤ maxInteger)
    (third : ∀ n, tokenLimit? = some n → n ≤ maxInteger)
    (described : (do
      let before ← before?
      let after ← after?
      let tokenLimit ← tokenLimit?
      return Window.mk before after tokenLimit) = some window) : window.Representable := by
  obtain ⟨before, found, described⟩ := Option.bind_eq_some_iff.mp described
  obtain ⟨after, alsoFound, described⟩ := Option.bind_eq_some_iff.mp described
  obtain ⟨tokenLimit, lastFound, described⟩ := Option.bind_eq_some_iff.mp described
  cases described
  exact ⟨first before found, second after alsoFound, third tokenLimit lastFound⟩

theorem representable_of_ofEntries? {entries : Entries}
    (described : ofEntries? entries = some window) : window.Representable :=
  representable_of_offsets (fun _ => le_of_offset? representable_default.before)
    (fun _ => le_of_offset? representable_default.after)
    (fun _ => le_of_offset? representable_default.tokenLimit) described

theorem representable_of_ofItems? {items : List Item}
    (described : ofItems? items = some window) : window.Representable :=
  representable_of_offsets (fun _ => le_of_offset? representable_default.before)
    (fun _ => le_of_offset? representable_default.after)
    (fun _ => le_of_offset? representable_default.tokenLimit) described

/-- In whatever form the window is given, its numbers are numbers of a document. -/
theorem representable_of_ofItem? {item : Item} (described : ofItem? item = some window) :
    window.Representable := by
  unfold ofItem? at described
  split at described
  · exact representable_of_ofEntries? described
  · exact representable_of_ofEntries? described
  · exact representable_of_ofItems? described
  · cases described
    exact representable_default
  · cases described

end Window

namespace Settings

variable {settings : Settings}

/-- The window that the entries give. -/
def givenWindow? (entries : Entries) : Option Window :=
  (entries.get? "window").elim (some {}) Window.ofItem?

/-- The placeholder that the entries give. -/
def givenPlaceholder? (entries : Entries) : Option Text :=
  (entries.get? "placeholder").elim (some Excerpt.noSource) fun
    | .text text => some text
    | _ => none

theorem ofEntries?_eq_bind (entries : Entries) :
    ofEntries? entries = (givenWindow? entries).bind fun window =>
      (givenPlaceholder? entries).bind fun placeholder => some { window, placeholder } := by
  unfold ofEntries? givenWindow? givenPlaceholder?
  cases entries.get? "placeholder" with
  | none => cases entries.get? "window" <;> rfl
  | some item => cases item <;> cases entries.get? "window" <;> rfl

theorem representable_of_ofEntries? {entries : Entries}
    (described : ofEntries? entries = some settings) : settings.window.Representable := by
  rw [ofEntries?_eq_bind] at described
  obtain ⟨window, given, described⟩ := Option.bind_eq_some_iff.mp described
  obtain ⟨placeholder, -, described⟩ := Option.bind_eq_some_iff.mp described
  cases described
  unfold givenWindow? at given
  cases found : entries.get? "window" with
  | none =>
    rw [found] at given
    cases given
    exact Window.representable_default
  | some item =>
    rw [found] at given
    exact Window.representable_of_ofItem? given

/-- A document is loaded when it describes settings and these pass the check. -/
theorem ofDocument_of_describes {document : Text}
    (described : (Toml.read? document).bind ofEntries? = some settings) :
    ofDocument document = do settings.check; return settings := by
  rw [ofDocument, described]

theorem exists_describes_of_ofDocument {document : Text}
    (loaded : ofDocument document = .ok settings) :
    (Toml.read? document).bind ofEntries? = some settings ∧ settings.check = .ok () := by
  cases described : (Toml.read? document).bind ofEntries? with
  | none =>
    rw [ofDocument, described] at loaded
    cases loaded
  | some found =>
    rw [ofDocument_of_describes described] at loaded
    cases checked : found.check with
    | error error =>
      rw [checked] at loaded
      cases loaded
    | ok =>
      rw [checked] at loaded
      cases loaded
      exact ⟨rfl, checked⟩

theorem representable_of_ofDocument {document : Text}
    (loaded : ofDocument document = .ok settings) : settings.window.Representable := by
  obtain ⟨entries, -, described⟩ :=
    Option.bind_eq_some_iff.mp (exists_describes_of_ofDocument loaded).1
  exact representable_of_ofEntries? described

end Settings

/-! ## The window of a listing -/

namespace Window

open Toml (Statement ReadsLine IsName DigitsLine)

theorem Key.isName_name (key : Key) : IsName key.name := by
  cases key
  · exact Toml.isName_of_all (by decide) (by decide)
  · exact Toml.isName_of_all (by decide) (by decide)
  · exact Toml.isName_of_all (by decide) (by decide)

theorem Key.name_injective : Function.Injective Key.name := by
  intro key other
  cases key <;> cases other <;> decide

namespace Listing

/-- The entry that a line of the table makes. -/
def entry (listed : Key × Nat) : Text × Item := (listed.1.name, .integer (Int64.ofInt listed.2))

/-- The entries of the table. -/
def items (listing : Listing) : Entries := listing.entries.map entry

theorem lookup_map_entry (entries : List (Key × Nat)) (key : Key) :
    (entries.map entry).lookup key.name =
      (entries.lookup key).map fun n : Nat => Item.integer (Int64.ofInt n) := by
  induction entries with
  | nil => rfl
  | cons listed entries ih =>
    rw [List.map_cons, entry, List.lookup_cons, List.lookup_cons, ih]
    by_cases same : key = listed.1
    · subst same
      simp only [beq_self_eq_true, Option.map_some]
    · rw [beq_false_of_ne same, beq_false_of_ne (Key.name_injective.ne same)]

theorem offset?_items (listing : Listing) (key : Key) {word : String}
    (named : word.toList = key.name) (default : Nat) :
    listing.items.offset? word default = some (listing.number key default) := by
  rw [Entries.offset?, Entries.get?, named, items, lookup_map_entry, number]
  cases found : listing.entries.lookup key with
  | none => rfl
  | some n =>
    obtain ⟨front, back, entries, -⟩ := List.lookup_eq_some_iff.mp found
    have member : (key, n) ∈ listing.entries := by
      rw [entries]
      exact List.mem_append_right front List.mem_cons_self
    exact Item.toOffset?_ofInt (listing.representable _ member)

theorem ofEntries?_items (listing : Listing) :
    Window.ofEntries? listing.items = some listing.window := by
  simp only [Window.ofEntries?, listing.offset?_items .before rfl,
    listing.offset?_items .after rfl, listing.offset?_items .tokenLimit rfl]
  rfl

theorem nodup_items (listing : Listing) : (listing.items.map Prod.fst).Nodup := by
  have names : listing.items.map Prod.fst = (listing.entries.map Prod.fst).map Key.name := by
    rw [items, List.map_map, List.map_map]
    rfl
  rw [names]
  exact listing.once.map Key.name_injective

/-- The statements of the table. -/
def statements (listing : Listing) : List Statement :=
  .openTable ⟨[], "window".toList⟩ :: listing.items.map .ofEntry

theorem readsLine_line {listed : Key × Nat} (small : listed.2 ≤ maxInteger) :
    ReadsLine (line listed) (.ofEntry (entry listed)) := by
  apply Toml.readsLine_assignment listed.1.isName_name
  · intro rest
    have line := DigitsLine.of_number listed.2 rest
    exact Toml.stops_isBlank (line.head?_ne (by decide) (by decide))
      (line.head?_ne (by decide) (by decide))
  · exact Toml.reads_scalar_integer small

theorem readsLine_lines (listing : Listing) :
    List.Forall₂ ReadsLine listing.lines listing.statements := by
  refine .cons (Toml.readsLine_header (Toml.isName_of_all (by decide) (by decide))) ?_
  rw [items, List.map_map, List.forall₂_map_left_iff, List.forall₂_map_right_iff, List.forall₂_same]
  exact fun listed member => readsLine_line (listing.representable listed member)

end Listing

end Window

/-! ## The whole listing -/

namespace Settings.Listing

open Toml (Statement ReadsLine Draft)

/-- The entry that the line of the placeholder makes. -/
def placeholderEntries (listing : Listing) : Entries :=
  listing.placeholder.elim [] fun spellings =>
    [("placeholder".toList, .text (Toml.spelled spellings))]

/-- The entries of the table of the document. -/
def entries (listing : Listing) : Entries :=
  listing.placeholderEntries ++
    listing.window.elim [] fun window => [("window".toList, .table .header window.items)]

/-- The statements of the document. -/
def statements (listing : Listing) : List Statement :=
  listing.placeholderEntries.map .ofEntry ++ listing.window.elim [] (·.statements)

theorem readsLine_lines (listing : Listing) :
    List.Forall₂ ReadsLine listing.lines listing.statements := by
  obtain ⟨placeholder, window⟩ := listing
  apply List.rel_append
  · cases placeholder with
    | none => exact .nil
    | some spellings =>
      refine .cons (Toml.readsLine_assignment ?_ ?_ ?_) .nil
      · exact Toml.isName_of_all (by decide) (by decide)
      · intro rest
        exact Text.stops_cons (by decide)
      · intro rest
        exact Toml.reads_scalar_string spellings (Text.head?_cons_ne (by decide))
  · cases window with
    | none => exact .nil
    | some window => exact window.readsLine_lines

/-- The document starts with a key, with the header of the table, or not at all. -/
theorem head?_document_ne (listing : Listing) :
    listing.document.head? ≠ some Toml.byteOrderMark := by
  obtain ⟨placeholder, window⟩ := listing
  cases placeholder with
  | some spellings => exact Text.head?_cons_ne (by decide)
  | none =>
    cases window with
    | some window => exact Text.head?_cons_ne (by decide)
    | none => nofun

theorem foldlM_statements (listing : Listing) :
    listing.statements.foldlM Draft.apply {} =
      some ⟨listing.entries, listing.window.elim [] fun _ => ["window".toList]⟩ := by
  obtain ⟨placeholder, window⟩ := listing
  have first : "window".toList ∉ (placeholderEntries ⟨placeholder, window⟩).map Prod.fst := by
    cases placeholder with
    | none => nofun
    | some spellings => exact (by decide : "window".toList ∉ ["placeholder".toList])
  have before : ((placeholderEntries ⟨placeholder, window⟩).map Statement.ofEntry).foldlM
      Draft.apply {} = some ⟨placeholderEntries ⟨placeholder, window⟩, []⟩ := by
    cases placeholder with
    | none => rfl
    | some spellings => rfl
  rw [statements, entries, List.foldlM_append, before]
  cases window with
  | none =>
    simp only [Option.elim_none, List.append_nil]
    rfl
  | some window =>
    simp only [Option.elim_some, Option.bind_eq_bind, Option.bind_some,
      Window.Listing.statements, List.foldlM_cons, Draft.apply_openTable first]
    exact Draft.foldlM_apply_table first window.nodup_items

theorem read?_document (listing : Listing) : Toml.read? listing.document = some listing.entries :=
  Toml.read?_of_reads (Toml.reads_statements listing.readsLine_lines listing.head?_document_ne)
    listing.foldlM_statements

theorem ofEntries?_entries (listing : Listing) :
    ofEntries? listing.entries = some listing.settings := by
  obtain ⟨placeholder, window⟩ := listing
  rw [ofEntries?_eq_bind]
  have given : givenWindow? (entries ⟨placeholder, window⟩) =
      some (window.elim {} (·.window)) := by
    cases window with
    | none => cases placeholder <;> rfl
    | some window => cases placeholder <;> exact window.ofEntries?_items
  have quoted : givenPlaceholder? (entries ⟨placeholder, window⟩) =
      some (placeholder.elim Excerpt.noSource Toml.spelled) := by
    cases placeholder <;> cases window <;> rfl
  rw [given, quoted]
  rfl

/-- A listing is loaded as what it lists, where that can be used. -/
theorem ofDocument_document (listing : Listing) :
    ofDocument listing.document = do listing.settings.check; return listing.settings := by
  apply ofDocument_of_describes
  rw [read?_document]
  exact listing.ofEntries?_entries

end Settings.Listing

/-! ## What can be loaded -/

namespace Settings

/-- What is loaded is usable and has numbers that a document can give. A listing is loaded as the
defaults with what is listed in their place; where these break a rule, the first one that they break
is reported instead. Settings are those of some document exactly when they are usable and their
numbers are those that a document can give. -/
theorem ofDocument_exact :
    (∀ document settings, ofDocument document = .ok settings →
      settings.check = .ok () ∧ settings.window.Representable) ∧
    (∀ listing : Listing, let settings := listing.settings
      (settings.check = .ok () → ofDocument listing.document = .ok settings) ∧
      (settings.check ≠ .ok () → ∃ violation,
        ofDocument listing.document = .error (.invalid violation) ∧
        ((violation.field = "window".toList ∧
            settings.window.before + settings.window.after = 0) ∨
          (violation.field = "window.token_limit".toList ∧
            settings.window.before + settings.window.after ≠ 0 ∧
            settings.window.tokenLimit = 0) ∨
          (violation.field = "placeholder".toList ∧
            settings.window.before + settings.window.after ≠ 0 ∧
            settings.window.tokenLimit ≠ 0 ∧ settings.placeholder = [])))) ∧
    ∀ settings, (∃ document, ofDocument document = .ok settings) ↔
      settings.check = .ok () ∧ settings.window.Representable := by
  have loaded {document : Text} {settings : Settings} (loads : ofDocument document = .ok settings) :
      settings.check = .ok () ∧ settings.window.Representable :=
    ⟨(exists_describes_of_ofDocument loads).2, representable_of_ofDocument loads⟩
  have listed (listing : Listing) (usable : listing.settings.check = .ok ()) :
      ofDocument listing.document = .ok listing.settings := by
    rw [listing.ofDocument_document, usable]
    rfl
  refine ⟨fun _ _ => loaded, fun listing => ⟨listed listing, ?_⟩, fun settings => ⟨?_, ?_⟩⟩
  · intro unusable
    cases broken : listing.settings.violation? with
    | none => exact absurd (listing.settings.check_eq_ok_iff.mpr broken) unusable
    | some violation =>
      refine ⟨violation, ?_, field_of_violation?_eq_some broken⟩
      rw [listing.ofDocument_document, check, broken]
      rfl
  · rintro ⟨document, loads⟩
    exact loaded loads
  · rintro ⟨usable, representable⟩
    have same := Listing.settings_ofSettings settings representable
    refine ⟨(Listing.ofSettings settings representable).document, ?_⟩
    rw [listed _ (same.symm ▸ usable), same]

/-- Two numbers in another order than that of the fields, behind a placeholder, are loaded with the
default of the third one. -/
theorem ofDocument_exact_reordered :
    let document := "placeholder = \"-\"\n[window]\ntoken_limit = 3\nbefore = 0\n".toList
    let settings : Settings := ⟨{ before := 0, tokenLimit := 3 }, ['-']⟩
    ofDocument document = .ok settings ∧ settings.check = .ok () ∧
      settings.window.Representable := by
  intro document settings
  let listing : Listing :=
    ⟨some [.ofChar '-'], some ⟨[(.tokenLimit, 3), (.before, 0)], by decide, by decide⟩⟩
  have loads : ofDocument document = .ok settings := (ofDocument_exact.2.1 listing).1 rfl
  exact ⟨loads, ofDocument_exact.1 document settings loads⟩

end Settings

end Pinpoint

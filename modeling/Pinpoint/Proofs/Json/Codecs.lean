import Pinpoint.Proofs.Json.Truncation

/-! # Writing and reading records

The four kinds of records that are written as JSON are read back from what is written, as long as
their numbers are offsets, and what is read from any text has offsets only. So what has been read
and written once stays the same however often it is read and written again. A written record of
which the end is missing ends early.
-/

namespace Pinpoint

namespace Json

variable {δ α β : Type}

/-! ## What a draft keeps -/

theorem le_maxOffset_of_readOffset {text rest : Text} {n : Nat}
    (success : readOffset text = .ok (n, rest)) : n ≤ maxOffset := by
  unfold readOffset at success
  split at success
  · cases success
  · split at success
    · split at success
      · cases success
      · split at success
        · split at success
          · split at success
            · next offset => cases success; exact offset
            · cases success
          · cases success
        · cases success
    · cases success

/-- Whatever the field reads into a draft of which this holds, it holds of the next draft. -/
def Field.Keeps (field : Field δ) (Sound : δ → Prop) : Prop :=
  ∀ draft text next rest, Sound draft → field.read draft text = .ok (next, rest) → Sound next

theorem Field.keeps_of {Sound : δ → Prop} {reader : Reader β} {name : String}
    {consumes : Consumes reader} {put : δ → β → δ}
    (each : ∀ text value rest draft, reader text = .ok (value, rest) → Sound draft →
      Sound (put draft value)) :
    (Field.of name reader consumes put).Keeps Sound := by
  intro draft text next rest sound success
  obtain ⟨⟨value, _⟩, read, same⟩ := map_eq_ok_iff.mp success
  cases same
  exact each _ _ _ _ read sound

theorem Field.keeps_offset {Sound : δ → Prop} (name : String) {put : δ → Nat → δ}
    (each : ∀ n ≤ maxOffset, ∀ draft, Sound draft → Sound (put draft n)) :
    (Field.offset name put).Keeps Sound :=
  keeps_of fun _ _ _ draft read sound => each _ (le_maxOffset_of_readOffset read) draft sound

namespace Shape

variable {shape : Shape δ α} {Sound : δ → Prop}

/-- One member keeps what all pending fields keep, and they stay pending or are taken. -/
theorem readMember_keeps {reading next : Reading δ} {text rest : Text}
    (keeps : ∀ field ∈ reading.pending, field.Keeps Sound) (sound : Sound reading.draft)
    (success : shape.readMember reading text = .ok (next, rest)) :
    (∀ field ∈ next.pending, field.Keeps Sound) ∧ Sound next.draft := by
  obtain ⟨⟨name, named⟩, read, success⟩ := bind_eq_ok_iff.mp success
  dsimp only at success
  split at success
  · next field found =>
    obtain ⟨coloned, colon, success⟩ := bind_eq_ok_iff.mp success
    obtain ⟨⟨draft, behind⟩, value, success⟩ := bind_eq_ok_iff.mp success
    cases success
    constructor
    · intro other pending
      exact keeps other (List.mem_of_mem_eraseP pending)
    · exact keeps field (List.mem_of_find?_eq_some found) _ _ _ _ sound value
  · split at success
    · cases success
    · obtain ⟨coloned, colon, success⟩ := bind_eq_ok_iff.mp success
      obtain ⟨⟨skipped, behind⟩, value, success⟩ := bind_eq_ok_iff.mp success
      cases success
      exact ⟨keeps, sound⟩

theorem readMembers_keeps {reading : Reading δ} {text rest : Text} {draft : δ}
    (keeps : ∀ field ∈ reading.pending, field.Keeps Sound) (sound : Sound reading.draft)
    (success : shape.readMembers reading text = .ok (draft, rest)) : Sound draft := by
  fun_induction readMembers shape reading text with
  | case1 => cases success
  | case2 => cases success
  | case3 _ _ _ _ member _ separator =>
    cases success
    exact (readMember_keeps keeps sound member).2
  | case4 _ _ _ _ member _ separator ih =>
    obtain ⟨keeps, sound⟩ := readMember_keeps keeps sound member
    exact ih keeps sound success

theorem readElements_keeps {first : Bool} {fields : List (Field δ)} {draft final : δ}
    {text rest : Text} (keeps : ∀ field ∈ fields, field.Keeps Sound) (sound : Sound draft)
    (success : shape.readElements first fields draft text = .ok (final, rest)) : Sound final := by
  induction fields generalizing first draft text with
  | nil =>
    obtain ⟨_, ended, same⟩ := map_eq_ok_iff.mp success
    cases same
    exact sound
  | cons field fields ih =>
    obtain ⟨start, started, success⟩ := bind_eq_ok_iff.mp success
    cases start with
    | some tail =>
      obtain ⟨⟨_, _⟩, read, success⟩ := bind_eq_ok_iff.mp success
      obtain ⟨keepsFirst, keepsOthers⟩ := List.forall_mem_cons.mp keeps
      exact ih keepsOthers (keepsFirst _ _ _ _ sound read) success
    | none =>
      dsimp only at success
      split at success
      · obtain ⟨_, ended, same⟩ := map_eq_ok_iff.mp success
        cases same
        exact sound
      · cases success

theorem finish_of_finished {draft : δ} {record : α} (success : shape.finished draft = .ok record) :
    shape.finish draft = some record := by
  unfold finished at success
  split at success
  · next same => cases success; exact same
  · cases success

/-- Of the draft of a record holds what every field keeps and what holds of the blank draft. -/
theorem exists_sound_of_read (keeps : ∀ field ∈ shape.fields, field.Keeps Sound)
    (blank : Sound shape.blank) {text rest : Text} {record : α}
    (success : shape.read text = .ok (record, rest)) :
    ∃ draft, Sound draft ∧ shape.finish draft = some record := by
  unfold Shape.read at success
  split at success
  · cases success
  split at success
  · obtain ⟨⟨draft, _⟩, read, success⟩ := bind_eq_ok_iff.mp success
    obtain ⟨_, finished, success⟩ := bind_eq_ok_iff.mp success
    cases success
    refine ⟨draft, ?_, finish_of_finished finished⟩
    unfold readObject at read
    split at read
    · cases read
      exact blank
    · exact readMembers_keeps keeps blank read
  split at success
  · obtain ⟨⟨draft, _⟩, read, success⟩ := bind_eq_ok_iff.mp success
    obtain ⟨_, finished, success⟩ := bind_eq_ok_iff.mp success
    cases success
    exact ⟨draft, readElements_keeps keeps blank read, finish_of_finished finished⟩
  · cases success

theorem exists_read_of_ofText {text : Text} {record : α}
    (success : shape.ofText text = .ok record) :
    ∃ rest, shape.read text = .ok (record, rest) := by
  obtain ⟨⟨_, rest⟩, read, success⟩ := bind_eq_ok_iff.mp success
  dsimp only at success
  split at success <;> cases success
  exact ⟨rest, read⟩

/-! ## Codecs -/

/-- Records that fit are read back from what is written of them, those read from any text are
written the same again and again, and a written record that breaks off ends early. -/
structure Recovers (shape : Shape δ α) (write : α → Json) (Fits : α → Prop) : Prop where
  /-- A record is read back from its written form. -/
  reads_back : ∀ record, Fits record → shape.ofText (write record).render = .ok record
  /-- What is written of a record that was read is read and written as it is. -/
  settles : ∀ text record, shape.ofText text = .ok record →
    (shape.ofText (write record).render).map (fun again => (write again).render) =
      .ok (write record).render
  /-- Wherever a written record breaks off, it ends early. -/
  ends_early : ∀ record, Fits record → ∀ front, front <+: (write record).render →
    front ≠ (write record).render → shape.ofText front = .error .endsEarly

/-- The members that are written of a record go into its fields, whole or broken off. -/
def Writes (shape : Shape δ α) (value : Json) (record : α) : Prop :=
  ∃ members final, value = object members ∧
    Gathers ⟨shape.fields, shape.blank⟩ members final ∧ Severs shape.fields members ∧
    shape.finish final = some record

theorem Writes.read_render {value : Json} {record : α} (writes : shape.Writes value record)
    (rest : Text) : shape.read (value.render ++ rest) = .ok (record, rest) := by
  obtain ⟨members, final, rfl, gathers, -, finish⟩ := writes
  exact shape.read_render_of_gathers gathers finish rest

theorem Writes.read_of_isPrefix {value : Json} {record : α} (writes : shape.Writes value record)
    {front : Text} (cut : front <+: value.render) (broken : front ≠ value.render) :
    shape.read front = .error .endsEarly := by
  obtain ⟨members, final, rfl, gathers, severs, -⟩ := writes
  exact shape.read_of_isPrefix gathers severs cut broken

/-- A shape recovers records when what is written goes into its fields and only records that fit
are read. -/
theorem recovers_of_writes {write : α → Json} {Fits : α → Prop}
    (writes : ∀ record, Fits record → shape.Writes (write record) record)
    (fits : ∀ text record rest, shape.read text = .ok (record, rest) → Fits record) :
    shape.Recovers write Fits := by
  have back (record : α) (fit : Fits record) : shape.ofText (write record).render = .ok record := by
    have whole := (writes record fit).read_render []
    rw [List.append_nil] at whole
    rw [ofText, complete, whole]
    rfl
  refine ⟨back, ?_, ?_⟩
  · intro text record success
    obtain ⟨rest, read⟩ := exists_read_of_ofText success
    rw [back record (fits text record rest read)]
    rfl
  · intro record fit front cut broken
    rw [ofText, complete, (writes record fit).read_of_isPrefix cut broken]
    rfl

end Shape

end Json

open Json (Field)

/-! ## Locations -/

/-- The numbers of a location are offsets. -/
def Location.Fits (location : Location) : Prop :=
  location.line ≤ maxOffset ∧ location.column ≤ maxOffset

theorem Location.writes_toJson {location : Location} (fits : location.Fits) :
    shape.Writes location.toJson location :=
  ⟨_, _, rfl,
    .cons rfl (Field.takes_offset _ _ fits.1 _) <|
      .cons rfl (Field.takes_offset _ _ fits.2 _) <| .nil _,
    .cons rfl (Field.breaks_offset _ _ fits.1) <|
      .cons rfl (Field.breaks_offset _ _ fits.2) <| .nil _,
    rfl⟩

/-- The numbers that have been read so far are offsets. -/
def Location.Draft.Fits (draft : Draft) : Prop :=
  (∀ line ∈ draft.line, line ≤ maxOffset) ∧ ∀ column ∈ draft.column, column ≤ maxOffset

theorem Location.fits_of_read {text rest : Text} {location : Location}
    (success : shape.read text = .ok (location, rest)) : location.Fits := by
  have keeps : ∀ field ∈ shape.fields, field.Keeps Draft.Fits := by
    refine List.forall_mem_cons.mpr ⟨?_, List.forall_mem_cons.mpr ⟨?_, List.forall_mem_nil _⟩⟩
    · refine Field.keeps_offset _ fun line offset draft fits => ⟨?_, fits.2⟩
      rintro _ ⟨⟩
      exact offset
    · refine Field.keeps_offset _ fun column offset draft fits => ⟨fits.1, ?_⟩
      rintro _ ⟨⟩
      exact offset
  have blank : Draft.Fits {} := ⟨by rintro _ ⟨⟩, by rintro _ ⟨⟩⟩
  obtain ⟨draft, fits, finish⟩ := Json.Shape.exists_sound_of_read keeps blank success
  obtain ⟨line, given, finish⟩ := Option.bind_eq_some_iff.mp finish
  obtain ⟨column, alsoGiven, finish⟩ := Option.bind_eq_some_iff.mp finish
  cases finish
  exact ⟨fits.1 line given, fits.2 column alsoGiven⟩

/-! ## Details -/

/-- The numbers of a detail are offsets. -/
def Detail.Fits (detail : Detail) : Prop := detail.row ≤ maxOffset ∧ detail.col ≤ maxOffset

theorem Detail.writes_toJson {detail : Detail} (fits : detail.Fits) :
    shape.Writes detail.toJson detail := by
  obtain ⟨row, col, message⟩ := detail
  obtain ⟨rowOffset, colOffset⟩ := fits
  cases message with
  | none =>
    exact ⟨_, _, rfl,
      .cons rfl (Field.takes_offset _ _ rowOffset _) <|
        .cons rfl (Field.takes_offset _ _ colOffset _) <| .nil _,
      .cons rfl (Field.breaks_offset _ _ rowOffset) <|
        .cons rfl (Field.breaks_offset _ _ colOffset) <| .nil _,
      rfl⟩
  | some message =>
    exact ⟨_, _, rfl,
      .cons rfl (Field.takes_offset _ _ rowOffset _) <|
        .cons rfl (Field.takes_offset _ _ colOffset _) <|
        .cons rfl (Field.takes_optionalText _ _ message _) <| .nil _,
      .cons rfl (Field.breaks_offset _ _ rowOffset) <|
        .cons rfl (Field.breaks_offset _ _ colOffset) <|
        .cons rfl (Field.breaks_optionalText _ _ message) <| .nil _,
      rfl⟩

/-- The numbers that have been read so far are offsets. -/
def Detail.Draft.Fits (draft : Draft) : Prop :=
  (∀ row ∈ draft.row, row ≤ maxOffset) ∧ ∀ col ∈ draft.col, col ≤ maxOffset

theorem Detail.fits_of_read {text rest : Text} {detail : Detail}
    (success : shape.read text = .ok (detail, rest)) : detail.Fits := by
  have keeps : ∀ field ∈ shape.fields, field.Keeps Draft.Fits := by
    refine List.forall_mem_cons.mpr ⟨?_, List.forall_mem_cons.mpr ⟨?_,
      List.forall_mem_cons.mpr ⟨?_, List.forall_mem_nil _⟩⟩⟩
    · refine Field.keeps_offset _ fun row offset draft fits => ⟨?_, fits.2⟩
      rintro _ ⟨⟩
      exact offset
    · refine Field.keeps_offset _ fun col offset draft fits => ⟨fits.1, ?_⟩
      rintro _ ⟨⟩
      exact offset
    · exact Field.keeps_of fun _ _ _ _ _ fits => fits
  have blank : Draft.Fits {} := ⟨by rintro _ ⟨⟩, by rintro _ ⟨⟩⟩
  obtain ⟨draft, fits, finish⟩ := Json.Shape.exists_sound_of_read keeps blank success
  obtain ⟨row, given, finish⟩ := Option.bind_eq_some_iff.mp finish
  obtain ⟨col, alsoGiven, finish⟩ := Option.bind_eq_some_iff.mp finish
  cases finish
  exact ⟨fits.1 row given, fits.2 col alsoGiven⟩

/-! ## Windows -/

/-- The numbers of a window are offsets. -/
def Window.Fits (window : Window) : Prop :=
  window.before ≤ maxOffset ∧ window.after ≤ maxOffset ∧ window.tokenLimit ≤ maxOffset

theorem Window.writes_toJson {window : Window} (fits : window.Fits) :
    shape.Writes window.toJson window :=
  ⟨_, _, rfl,
    .cons rfl (Field.takes_offset _ _ fits.1 _) <|
      .cons rfl (Field.takes_offset _ _ fits.2.1 _) <|
      .cons rfl (Field.takes_offset _ _ fits.2.2 _) <| .nil _,
    .cons rfl (Field.breaks_offset _ _ fits.1) <|
      .cons rfl (Field.breaks_offset _ _ fits.2.1) <|
      .cons rfl (Field.breaks_offset _ _ fits.2.2) <| .nil _,
    rfl⟩

theorem Window.fits_default : Fits {} := ⟨by decide, by decide, by decide⟩

theorem Window.fits_of_read {text rest : Text} {window : Window}
    (success : shape.read text = .ok (window, rest)) : window.Fits := by
  have keeps : ∀ field ∈ shape.fields, field.Keeps Fits := by
    refine List.forall_mem_cons.mpr ⟨?_, List.forall_mem_cons.mpr ⟨?_,
      List.forall_mem_cons.mpr ⟨?_, List.forall_mem_nil _⟩⟩⟩
    · exact Field.keeps_offset _ fun before offset window fits => ⟨offset, fits.2⟩
    · exact Field.keeps_offset _ fun after offset window fits => ⟨fits.1, offset, fits.2.2⟩
    · exact Field.keeps_offset _ fun limit offset window fits => ⟨fits.1, fits.2.1, offset⟩
  obtain ⟨draft, fits, finish⟩ := Json.Shape.exists_sound_of_read keeps fits_default success
  cases finish
  exact fits

/-! ## Settings -/

/-- The numbers of settings are offsets. -/
def Settings.Fits (settings : Settings) : Prop := settings.window.Fits

theorem Settings.writes_toJson {settings : Settings} (fits : settings.Fits) :
    shape.Writes settings.toJson settings :=
  ⟨_, _, rfl,
    .cons rfl (Field.takes_of fun rest _ => (Window.writes_toJson fits).read_render rest) <|
      .cons rfl (Field.takes_of fun rest _ => Json.readText_render settings.placeholder rest) <|
      .nil _,
    .cons rfl (Field.breaks_of fun _ cut broken =>
        .inl ((Window.writes_toJson fits).read_of_isPrefix cut broken)) <|
      .cons rfl (Field.breaks_text _ _ settings.placeholder) <| .nil _,
    rfl⟩

theorem Settings.fits_of_read {text rest : Text} {settings : Settings}
    (success : shape.read text = .ok (settings, rest)) : settings.Fits := by
  have keeps : ∀ field ∈ shape.fields, field.Keeps Fits := by
    refine List.forall_mem_cons.mpr ⟨?_, List.forall_mem_cons.mpr ⟨?_, List.forall_mem_nil _⟩⟩
    · exact Field.keeps_of fun _ _ _ _ read _ => Window.fits_of_read read
    · exact Field.keeps_of fun _ _ _ _ _ fits => fits
  obtain ⟨draft, fits, finish⟩ :=
    Json.Shape.exists_sound_of_read keeps Window.fits_default success
  cases finish
  exact fits

/-- Locations, details, windows and settings, with any offsets and any characters in them, are read
back from what is written of them. What is read from any text is written in a way that reading and
writing keep. Wherever the written form of one of them breaks off, reading it ends early. -/
theorem records_recovered :
    Location.shape.Recovers Location.toJson Location.Fits ∧
    Detail.shape.Recovers Detail.toJson Detail.Fits ∧
    Window.shape.Recovers Window.toJson Window.Fits ∧
    Settings.shape.Recovers Settings.toJson Settings.Fits := by
  refine ⟨?_, ?_, ?_, ?_⟩
  · exact Json.Shape.recovers_of_writes (fun _ => Location.writes_toJson)
      fun _ _ _ => Location.fits_of_read
  · exact Json.Shape.recovers_of_writes (fun _ => Detail.writes_toJson)
      fun _ _ _ => Detail.fits_of_read
  · exact Json.Shape.recovers_of_writes (fun _ => Window.writes_toJson)
      fun _ _ _ => Window.fits_of_read
  · exact Json.Shape.recovers_of_writes (fun _ => Settings.writes_toJson)
      fun _ _ _ => Settings.fits_of_read

/-- The largest offset, a quotation mark and control characters are read back, and the written form
ends early where it breaks off behind a backslash. Settings with nothing given are written in full,
and read and written again as they are. -/
theorem records_recovered_broken_off :
    let detail : Detail := ⟨maxOffset, 0, some "é\"\n\x01".toList⟩
    let text := detail.toJson.render
    let front : Text :=
      "\x7b\"row\":18446744073709551615,\"col\":0,\"message\":\"é\\".toList
    let blank : Text := "\x7b \x7d".toList
    let written : Text := (Settings.toJson {}).render
    detail.Fits ∧ front <+: text ∧ front ≠ text ∧ Settings.shape.ofText blank = .ok {} ∧
      Detail.shape.ofText text = .ok detail ∧
      Detail.shape.ofText front = .error .endsEarly ∧
      (Settings.shape.ofText written).map (fun again => again.toJson.render) = .ok written := by
  intro detail text front blank written
  have fits : detail.Fits := ⟨by decide, by decide⟩
  have cut : front <+: text := by decide
  have broken : front ≠ text := by decide
  have read : Settings.shape.ofText blank = .ok {} := rfl
  obtain ⟨-, details, -, settings⟩ := records_recovered
  exact ⟨fits, cut, broken, read, details.reads_back detail fits,
    details.ends_early detail fits front cut broken, settings.settles blank {} read⟩

end Pinpoint

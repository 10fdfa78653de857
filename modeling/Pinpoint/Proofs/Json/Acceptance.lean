import Mathlib.Data.List.Nodup
import Pinpoint.Proofs.Json.Gathering

/-! # What is read is what is described

The fields of a shape take their values apart from each other, so what is read of a text is the
record that the value of the text describes: the order of its members, its blanks and escapes and
any members that the shape does not know make no difference, and an array stands for the object of
its items.
-/

namespace Pinpoint

namespace Json

/-! ## Members of one name -/

/-- The first member of its name is what a name is looked up for. -/
theorem lookup_eq_head? (members : List (Text × Json)) (name : Text) :
    members.lookup name = (members.filter (·.1 == name)).head?.map (·.2) := by
  rw [List.head?_filter]
  induction members with
  | nil => rfl
  | cons member members ih =>
    by_cases named : member.1 = name
    · rw [List.lookup_cons, List.find?_cons, named, beq_self_eq_true]
      rfl
    · rw [List.lookup_cons, List.find?_cons, beq_false_of_ne named,
        beq_false_of_ne (Ne.symm named)]
      exact ih

theorem count_map_fst (members : List (Text × Json)) (name : Text) :
    (members.map (·.1)).count name = (members.filter (·.1 == name)).length := by
  rw [List.count, List.countP_map, List.countP_eq_length_filter]
  rfl

/-- Where a name is not repeated, the order of the members does not matter for it. -/
theorem lookup_eq_of_perm {members others : List (Text × Json)} {name : Text}
    (perm : (members.filter (·.1 == name)).Perm (others.filter (·.1 == name)))
    (once : (members.map (·.1)).count name ≤ 1) : members.lookup name = others.lookup name := by
  rw [count_map_fst] at once
  rw [lookup_eq_head?, lookup_eq_head?]
  rcases found : members.filter (·.1 == name) with _ | ⟨member, _ | ⟨second, more⟩⟩
  · rw [found] at perm
    rw [← perm.nil_eq, found]
  · rw [found] at perm
    rw [← perm.singleton_eq, found]
  · simp only [found, List.length_cons] at once
    omega

namespace Shape

variable {α δ : Type} {shape : Shape δ α} {ofMembers? : List (Text × Json) → Option α}

/-! ## Descriptions -/

theorem ofJson?_object_eq_some_iff {members : List (Text × Json)} {record : α} :
    shape.ofJson? ofMembers? (.object members) = some record ↔
      NoneRepeated shape.names members ∧ ofMembers? members = some record :=
  Option.ite_none_right_eq_some

theorem ofJson?_array_eq_some_iff {items : List Json} {record : α} :
    shape.ofJson? ofMembers? (.array items) = some record ↔
      shape.allowsItems items.length = true ∧
        ofMembers? (shape.names.zip items) = some record :=
  Option.ite_none_right_eq_some

/-- The fields of the shape are slots of their own, and looking up the members for them makes the
record that the members describe. -/
structure Settles (shape : Shape δ α) (slots : List (Slot δ))
    (ofMembers? : List (Text × Json) → Option α) : Prop where
  fields : shape.fields = slots.map (·.field)
  ready : Ready slots
  finish : ∀ members,
    (settle? members slots (some shape.blank)).bind shape.finish = ofMembers? members

namespace Settles

variable {slots : List (Slot δ)}

theorem names_eq (settles : shape.Settles slots ofMembers?) :
    shape.names = slots.map Slot.name := by
  rw [names, settles.fields, List.map_map]
  rfl

theorem knows_iff (settles : shape.Settles slots ofMembers?) (name : Text) :
    shape.knows name = true ↔ name ∈ slots.map Slot.name := by
  simp only [knows, settles.fields, List.any_map, List.any_eq_true, List.mem_map, Function.comp,
    beq_iff_eq]
  rfl

theorem admits_iff (settles : shape.Settles slots ofMembers?) {members : List (Text × Json)} :
    shape.Admits slots members ↔ NoneRepeated shape.names members := by
  rw [settles.names_eq]
  constructor
  · intro admits name named
    have once := admits name ((settles.knows_iff name).mpr named)
    rwa [if_pos named] at once
  · intro once name known
    have named := (settles.knows_iff name).mp known
    rw [if_pos named]
    exact once name named

/-- Reading members and finishing makes the record that the members describe. -/
theorem gather?_bind_finish (settles : shape.Settles slots ofMembers?)
    (members : List (Text × Json)) :
    (shape.gather? slots shape.blank members).bind shape.finish =
      shape.ofJson? ofMembers? (.object members) := by
  refine Option.ext fun record => ?_
  rw [ofJson?_object_eq_some_iff, ← settles.finish, Option.bind_eq_some_iff,
    Option.bind_eq_some_iff]
  simp only [gather?_eq_some_iff settles.ready, settles.admits_iff, and_assoc,
    exists_and_left]

/-- Reading items and finishing makes the record that the items describe. -/
theorem place?_bind_finish (settles : shape.Settles slots ofMembers?) (items : List Json) :
    (place? shape.abridged slots items shape.blank).bind shape.finish =
      shape.ofJson? ofMembers? (.array items) := by
  have allowed : shape.allowsItems items.length = true ↔
      items.length = slots.length ∨ shape.abridged = true ∧ items.length < slots.length := by
    simp only [allowsItems, settles.fields, List.length_map, Bool.or_eq_true, beq_iff_eq,
      Bool.and_eq_true, decide_eq_true_iff]
  refine Option.ext fun record => ?_
  rw [ofJson?_array_eq_some_iff, ← settles.finish, settles.names_eq, allowed,
    Option.bind_eq_some_iff, Option.bind_eq_some_iff]
  simp only [place?_eq_some_iff settles.ready.distinct, and_assoc, exists_and_left]

end Settles

/-! ## Reading -/

theorem toOption_finished (shape : Shape δ α) (draft : δ) :
    (shape.finished draft).toOption = shape.finish draft := by
  unfold finished
  cases shape.finish draft <;> rfl

/-- Finishing what was read of a draft. -/
theorem toOption_finish_read {read : Except ReadError (δ × Text)} {draft : Option δ} {rest : Text}
    (same : read.toOption = draft.map fun final => (final, rest)) :
    (read >>= fun (draft, rest) => return (← shape.finished draft, rest)).toOption =
      (draft.bind shape.finish).map fun record => (record, rest) := by
  rw [toOption_bind, same]
  cases draft with
  | none => rfl
  | some draft =>
    change (shape.finished draft >>= fun record => pure (record, rest)).toOption = _
    rw [toOption_bind, toOption_finished, Option.bind_some]
    cases shape.finish draft <;> rfl

theorem toOption_readObject {slots : List (Slot δ)} (settles : shape.Settles slots ofMembers?)
    {text rest : Text} {members : List (Text × Json)} (holds : Members text members rest) :
    (shape.readObject text).toOption =
      (shape.gather? slots shape.blank members).map fun final => (final, rest) := by
  cases holds with
  | empty ended =>
    rw [readObject, ended]
    rfl
  | first key item others =>
    have named : shape.readObject text =
        shape.readMembers ⟨slots.map (·.field), shape.blank⟩ (skipSpace text) := by
      rw [← settles.fields]
      unfold readObject
      split
      · next closed =>
        rw [closed] at key
        cases key
      · rfl
    rw [named]
    exact toOption_readMembers key item others

/-- The reader of records takes any value for the record that it describes. -/
theorem Settles.decodes_read {slots : List (Slot δ)} (settles : shape.Settles slots ofMembers?) :
    Decodes shape.read (shape.ofJson? ofMembers?) := by
  intro text value rest kept
  obtain ⟨c, tail, spaced, stands⟩ := exists_stands_of_readValue kept
  unfold Shape.read
  rw [spaced]
  cases stands with
  | null => rfl
  | boolean letter => rcases letter with rfl | rfl <;> rfl
  | string => rfl
  | number starts =>
    have brace := ne_of_startsNumeral starts (by decide : startsNumeral '\x7b' = false)
    have bracket := ne_of_startsNumeral starts (by decide : startsNumeral '[' = false)
    simp only [if_neg brace, if_neg bracket]
    rfl
  | array holds =>
    simp only [Char.reduceEq, ↓reduceIte]
    rw [← settles.place?_bind_finish, settles.fields]
    exact toOption_finish_read (toOption_readElements holds)
  | object holds =>
    simp only [↓reduceIte]
    rw [← settles.gather?_bind_finish]
    exact toOption_finish_read (toOption_readObject settles holds)

/-- What is read of a text is the record that its value describes. -/
theorem Settles.toOption_ofText {slots : List (Slot δ)}
    (settles : shape.Settles slots ofMembers?) {text : Text} {value : Json}
    (kept : Json.read text = .ok value) :
    (shape.ofText text).toOption = shape.ofJson? ofMembers? value := by
  obtain ⟨⟨_, rest⟩, kept, success⟩ := bind_eq_ok_iff.mp kept
  dsimp only at success
  split at success <;> cases success
  next blank =>
  have reads := settles.decodes_read _ _ _ kept
  rw [ofText, complete, toOption_bind, reads]
  cases shape.ofJson? ofMembers? value with
  | none => rfl
  | some record => simp only [Option.map_some, Option.bind_some, blank, ↓reduceIte]; rfl

/-! ## Agreeing texts -/

/-- A record is read of a text exactly if the value of the text describes it. -/
structure ReadsAs (shape : Shape δ α) (ofMembers? : List (Text × Json) → Option α) : Prop where
  /-- Objects may repeat the name of no field, and the values must be right for their fields. -/
  object : ∀ text members record, Json.read text = .ok (.object members) →
    (shape.ofText text = .ok record ↔
      NoneRepeated shape.names members ∧ ofMembers? members = some record)
  /-- The items of an array are the values of the fields in their own order. -/
  array : ∀ text items record, Json.read text = .ok (.array items) →
    (shape.ofText text = .ok record ↔
      shape.allowsItems items.length = true ∧
        ofMembers? (shape.names.zip items) = some record)
  /-- Neither the order of the members nor members with other names change what is read. -/
  regrouped : ∀ text other members others, Json.read text = .ok (.object members) →
    Json.read other = .ok (.object others) →
    (members.filter fun member => shape.knows member.1).Perm
      (others.filter fun member => shape.knows member.1) →
    (shape.ofText text).toOption = (shape.ofText other).toOption
  /-- An array reads as the object that names its items. -/
  positional : ∀ text other items, Json.read text = .ok (.array items) →
    Json.read other = .ok (.object (shape.names.zip items)) →
    shape.allowsItems items.length = true →
    (shape.ofText text).toOption = (shape.ofText other).toOption

/-- The members of a name that the shape knows are among those that it knows. -/
theorem filter_named_eq {name : Text} (known : shape.knows name = true)
    (members : List (Text × Json)) :
    members.filter (·.1 == name) =
      (members.filter fun member => shape.knows member.1).filter (·.1 == name) := by
  rw [List.filter_filter]
  refine List.filter_congr fun member _ => ?_
  by_cases named : member.1 = name
  · rw [named, known, Bool.and_true]
  · rw [beq_false_of_ne named, Bool.false_and]

namespace Settles

variable {slots : List (Slot δ)}

/-- What is looked up for the fields is all that matters for what members describe. -/
theorem ofMembers?_congr (settles : shape.Settles slots ofMembers?)
    {members others : List (Text × Json)}
    (same : ∀ name ∈ shape.names, members.lookup name = others.lookup name) :
    ofMembers? members = ofMembers? others := by
  rw [← settles.finish, ← settles.finish, settle?_congr]
  intro slot member
  refine same _ ?_
  rw [settles.names_eq]
  exact List.mem_map_of_mem member

theorem ofJson?_regrouped (settles : shape.Settles slots ofMembers?)
    {members others : List (Text × Json)}
    (perm : (members.filter fun member => shape.knows member.1).Perm
      (others.filter fun member => shape.knows member.1)) :
    shape.ofJson? ofMembers? (.object members) = shape.ofJson? ofMembers? (.object others) := by
  have named : ∀ name ∈ shape.names,
      (members.filter (·.1 == name)).Perm (others.filter (·.1 == name)) := by
    intro name given
    rw [settles.names_eq] at given
    have known := (settles.knows_iff name).mpr given
    rw [filter_named_eq known members, filter_named_eq known others]
    exact perm.filter _
  have counts : ∀ name ∈ shape.names,
      (members.map (·.1)).count name = (others.map (·.1)).count name := by
    intro name given
    rw [count_map_fst, count_map_fst, (named name given).length_eq]
  have repeated : NoneRepeated shape.names members ↔ NoneRepeated shape.names others :=
    forall₂_congr fun name given => by rw [counts name given]
  refine Option.ext fun record => ?_
  rw [ofJson?_object_eq_some_iff, ofJson?_object_eq_some_iff, ← repeated]
  refine and_congr_right fun once => ?_
  rw [settles.ofMembers?_congr fun name given =>
    lookup_eq_of_perm (named name given) (once name given)]

theorem noneRepeated_zip (settles : shape.Settles slots ofMembers?) (items : List Json) :
    NoneRepeated shape.names (shape.names.zip items) := by
  have distinct : ((shape.names.zip items).map (·.1)).Nodup := by
    rw [List.zip_eq_zip_take_min]
    have lengths : (shape.names.take (min shape.names.length items.length)).length ≤
        (items.take (min shape.names.length items.length)).length := by
      simp only [List.length_take]
      omega
    rw [List.map_fst_zip lengths, settles.names_eq]
    exact settles.ready.distinct.sublist (List.take_sublist _ _)
  exact fun name _ => List.nodup_iff_count_le_one.mp distinct name

theorem readsAs (settles : shape.Settles slots ofMembers?) : shape.ReadsAs ofMembers? where
  object text members record kept := by
    rw [← toOption_eq_some_iff, settles.toOption_ofText kept, ofJson?_object_eq_some_iff]
  array text items record kept := by
    rw [← toOption_eq_some_iff, settles.toOption_ofText kept, ofJson?_array_eq_some_iff]
  regrouped text other members others kept alsoKept perm := by
    rw [settles.toOption_ofText kept, settles.toOption_ofText alsoKept,
      settles.ofJson?_regrouped perm]
  positional text other items kept alsoKept allowed := by
    rw [settles.toOption_ofText kept, settles.toOption_ofText alsoKept, ofJson?, ofJson?,
      if_pos allowed, if_pos (settles.noneRepeated_zip items)]

end Settles

end Shape

end Json

/-! ## The four records -/

open Json (Slot)

/-- The fields of a location. -/
def Location.slots : List (Slot Location.Draft) :=
  [.offset "line" fun draft line => { draft with line := some line },
    .offset "column" fun draft column => { draft with column := some column }]

theorem Location.settles : shape.Settles slots ofMembers? where
  fields := rfl
  ready := ⟨by decide, List.pairwise_pair.mpr <| Slot.commutes_of fun _ _ _ => rfl⟩
  finish members := by
    simp only [Json.settle?, slots, List.foldl_cons, List.foldl_nil, Slot.offset, Slot.fill?_of,
      ofMembers?, Json.given?_eq]
    rcases (members.lookup "line".toList).map Json.toOffset? with _ | _ | line <;>
      rcases (members.lookup "column".toList).map Json.toOffset? with _ | _ | column <;> rfl

/-- The fields of a detail. -/
def Detail.slots : List (Slot Detail.Draft) :=
  [.offset "row" fun draft row => { draft with row := some row },
    .offset "col" fun draft col => { draft with col := some col },
    .optionalText "message" fun draft message => { draft with message }]

theorem Detail.settles : shape.Settles slots ofMembers? where
  fields := rfl
  ready := by
    refine ⟨by decide, List.pairwise_cons.mpr ⟨List.forall_mem_cons.mpr
      ⟨?_, List.forall_mem_singleton.mpr ?_⟩, List.pairwise_pair.mpr ?_⟩⟩
    all_goals exact Slot.commutes_of fun _ _ _ => rfl
  finish members := by
    simp only [Json.settle?, slots, List.foldl_cons, List.foldl_nil, Slot.offset,
      Slot.optionalText, Slot.fill?_of, ofMembers?, Json.given?_eq]
    rcases (members.lookup "row".toList).map Json.toOffset? with _ | _ | row <;>
      rcases (members.lookup "col".toList).map Json.toOffset? with _ | _ | col <;>
      rcases (members.lookup "message".toList).map Json.toOptionalText? with
        _ | _ | message <;> rfl

/-- The fields of a window. -/
def Window.slots : List (Slot Window) :=
  [.offset "before" fun window before => { window with before },
    .offset "after" fun window after => { window with after },
    .offset "token_limit" fun window tokenLimit => { window with tokenLimit }]

theorem Window.settles : shape.Settles slots ofMembers? where
  fields := rfl
  ready := by
    refine ⟨by decide, List.pairwise_cons.mpr ⟨List.forall_mem_cons.mpr
      ⟨?_, List.forall_mem_singleton.mpr ?_⟩, List.pairwise_pair.mpr ?_⟩⟩
    all_goals exact Slot.commutes_of fun _ _ _ => rfl
  finish members := by
    simp only [Json.settle?, slots, List.foldl_cons, List.foldl_nil, Slot.offset, Slot.fill?_of,
      ofMembers?, Json.given?_eq]
    rcases (members.lookup "before".toList).map Json.toOffset? with _ | _ | before <;>
      rcases (members.lookup "after".toList).map Json.toOffset? with _ | _ | after <;>
      rcases (members.lookup "token_limit".toList).map Json.toOffset? with
        _ | _ | tokenLimit <;> rfl

theorem Window.decodes_read : Json.Decodes shape.read ofJson? := settles.decodes_read

/-- The fields of settings. -/
def Settings.slots : List (Slot Settings) :=
  [.of "window" Window.shape.consumes_read (fun settings window => { settings with window })
      Window.decodes_read,
    .text "placeholder" fun settings placeholder => { settings with placeholder }]

theorem Settings.settles : shape.Settles slots ofMembers? where
  fields := rfl
  ready := ⟨by decide, List.pairwise_pair.mpr <| Slot.commutes_of fun _ _ _ => rfl⟩
  finish members := by
    simp only [Json.settle?, slots, List.foldl_cons, List.foldl_nil, Slot.text, Slot.fill?_of,
      ofMembers?, Json.given?_eq]
    rcases (members.lookup "window".toList).map Window.ofJson? with _ | _ | window <;>
      rcases (members.lookup "placeholder".toList).map Json.toText? with
        _ | _ | placeholder <;> rfl

/-- Locations, details, windows and settings are read of a text exactly if the value of the text
describes them. As every value is read of the text that is written of it, this is what every
object and every array comes to. -/
theorem records_read_as_described :
    Location.shape.ReadsAs Location.ofMembers? ∧ Detail.shape.ReadsAs Detail.ofMembers? ∧
    Window.shape.ReadsAs Window.ofMembers? ∧ Settings.shape.ReadsAs Settings.ofMembers? :=
  ⟨Location.settles.readsAs, Detail.settles.readsAs, Window.settles.readsAs,
    Settings.settles.readsAs⟩

/-- The items of an array, the members that they stand for, and these members in another order and
with one that means nothing among them are the same detail. A row that is given twice is none. -/
theorem records_read_as_described_reordered :
    let listed : Text := "[2,3,null]".toList
    let named : Text := "\x7b\"row\":2,\"col\":3,\"message\":null\x7d".toList
    let mixed : Text := "\x7b\"col\":3,\"note\":[true],\"message\":null,\"row\":2\x7d".toList
    let repeated : Text := "\x7b\"row\":2,\"col\":3,\"row\":2\x7d".toList
    Detail.shape.ofText listed = .ok ⟨2, 3, none⟩ ∧
      (Detail.shape.ofText listed).toOption = (Detail.shape.ofText named).toOption ∧
      (Detail.shape.ofText mixed).toOption = (Detail.shape.ofText named).toOption ∧
      Detail.shape.ofText mixed = .ok ⟨2, 3, none⟩ ∧
      ∀ record, Detail.shape.ofText repeated ≠ .ok record := by
  intro listed named mixed repeated
  obtain ⟨-, reads, -, -⟩ := records_read_as_described
  let row : Text × Json := ("row".toList, .ofNat 2)
  let col : Text × Json := ("col".toList, .ofNat 3)
  let message : Text × Json := ("message".toList, .null)
  let note : Text × Json := ("note".toList, .array [.boolean true])
  have asWritten {value : Json} {text : Text} (written : value.render = text) :
      Json.read text = .ok value := by
    rw [← written, Json.read_render]
  have ofListed : Json.read listed = .ok (.array [.ofNat 2, .ofNat 3, .null]) :=
    asWritten (by decide)
  have ofNamed : Json.read named = .ok (.object [row, col, message]) := asWritten (by decide)
  have ofMixed : Json.read mixed = .ok (.object [col, note, message, row]) := asWritten (by decide)
  have ofRepeated : Json.read repeated = .ok (.object [row, col, row]) := asWritten (by decide)
  refine ⟨?_, ?_, ?_, ?_, fun record read => ?_⟩
  · exact (reads.array _ _ _ ofListed).mpr ⟨by decide, rfl⟩
  · exact reads.positional _ _ _ ofListed ofNamed (by decide)
  · exact reads.regrouped _ _ _ _ ofMixed ofNamed (List.perm_append_singleton row [col, message])
  · exact (reads.object _ _ _ ofMixed).mpr ⟨by decide, rfl⟩
  · have once := ((reads.object _ _ _ ofRepeated).mp read).1
    exact absurd once (by decide)

/-- Blanks, members with other names and the way in which a name is written do not matter, and the
fields that are left out have their default values. -/
example : Window.shape.ofText "\x7b \"lines\": [0], \"\\u0061fter\": 7\x7d".toList =
    .ok { after := 7 } := by
  decide +kernel

end Pinpoint

import Pinpoint.Json.Shape
import Pinpoint.Location
import Pinpoint.Settings

/-! # Records in JSON

Locations, details, windows and settings are written as objects with their fields in a fixed order,
and read back from objects or arrays. A location and a detail need all of their numbers; a field
that is absent from a window or from settings has its default value.
-/

namespace Pinpoint

open Json (Field Shape)

/-! ## Locations -/

structure Location.Draft where
  line : Option Nat := none
  column : Option Nat := none

/-- A location needs both of its fields. -/
def Location.shape : Shape Location.Draft Location where
  fields :=
    [.offset "line" fun draft line => { draft with line := some line },
      .offset "column" fun draft column => { draft with column := some column }]
  blank := {}
  finish draft := do return ⟨← draft.line, ← draft.column⟩
  abridged := false

def Location.toJson (location : Location) : Json :=
  .object [("line".toList, .ofNat location.line), ("column".toList, .ofNat location.column)]

/-! ## Details -/

structure Detail.Draft where
  row : Option Nat := none
  col : Option Nat := none
  message : Option Text := none

/-- A detail needs its row and its column. Null and an absent message both mean that there is none,
but an array holds an item for it. -/
def Detail.shape : Shape Detail.Draft Detail where
  fields :=
    [.offset "row" fun draft row => { draft with row := some row },
      .offset "col" fun draft col => { draft with col := some col },
      .optionalText "message" fun draft message => { draft with message }]
  blank := {}
  finish draft := do return ⟨← draft.row, ← draft.col, draft.message⟩
  abridged := false

/-- A detail as a JSON object; the field of an absent message is left out. -/
def Detail.toJson (detail : Detail) : Json :=
  .object <|
    ("row".toList, .ofNat detail.row) :: ("col".toList, .ofNat detail.col) ::
      (detail.message.map fun message => ("message".toList, Json.string message)).toList

/-! ## Windows -/

/-- An absent field of a window has its default value. -/
def Window.shape : Shape Window Window where
  fields :=
    [.offset "before" fun window before => { window with before },
      .offset "after" fun window after => { window with after },
      .offset "token_limit" fun window tokenLimit => { window with tokenLimit }]
  blank := {}
  finish := some
  abridged := true

def Window.toJson (window : Window) : Json :=
  .object
    [("before".toList, .ofNat window.before), ("after".toList, .ofNat window.after),
      ("token_limit".toList, .ofNat window.tokenLimit)]

/-! ## Settings -/

/-- An absent field of settings has its default value. -/
def Settings.shape : Shape Settings Settings where
  fields :=
    [.of "window" Window.shape.read Window.shape.consumes_read
        fun settings window => { settings with window },
      .text "placeholder" fun settings placeholder => { settings with placeholder }]
  blank := {}
  finish := some
  abridged := true

def Settings.toJson (settings : Settings) : Json :=
  .object
    [("window".toList, settings.window.toJson),
      ("placeholder".toList, .string settings.placeholder)]

end Pinpoint

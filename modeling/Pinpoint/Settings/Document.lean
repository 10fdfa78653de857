import Pinpoint.Settings
import Pinpoint.Toml.Document

/-! # Settings documents

Settings are written as a TOML document with a table `window` and a string `placeholder`. Whatever
is absent has its default, and keys that mean nothing are passed over. The settings are checked
once they are read, so that only usable ones come from a document.
-/

namespace Pinpoint

open Toml (Entries Item)

/-- The offset that an item writes, which no negative integer does. -/
def Toml.Item.toOffset? : Item → Option Nat
  | .integer value => if 0 ≤ value then some value.toNatClampNeg else none
  | _ => none

/-- The item of a key, where it has one. -/
def Toml.Entries.get? (entries : Entries) (key : String) : Option Item :=
  entries.lookup key.toList

/-- The offset under a key, or the given one where the key has no item. -/
def Toml.Entries.offset? (entries : Entries) (key : String) (default : Nat) : Option Nat :=
  match entries.get? key with
  | none => some default
  | some item => item.toOffset?

/-- The window that the entries of a table describe. -/
def Window.ofEntries? (entries : Entries) : Option Window := do
  let defaults : Window := {}
  return {
    before := ← entries.offset? "before" defaults.before
    after := ← entries.offset? "after" defaults.after
    tokenLimit := ← entries.offset? "token_limit" defaults.tokenLimit }

/-- The window that the items of an array describe, in the order of its fields. Items behind the
third one mean nothing. -/
def Window.ofItems? (items : List Item) : Option Window := do
  let defaults : Window := {}
  let offset? (index : Nat) (default : Nat) : Option Nat :=
    match items[index]? with
    | none => some default
    | some item => item.toOffset?
  return {
    before := ← offset? 0 defaults.before
    after := ← offset? 1 defaults.after
    tokenLimit := ← offset? 2 defaults.tokenLimit }

/-- The window that an item describes; a moment has none of the keys of a window. -/
def Window.ofItem? : Item → Option Window
  | .table _ entries | .closed entries => ofEntries? entries
  | .array items => ofItems? items
  | .moment => some {}
  | _ => none

namespace Settings

/-- The settings that the table of a document describes. -/
def ofEntries? (entries : Entries) : Option Settings := do
  let defaults : Settings := {}
  let window ←
    match entries.get? "window" with
    | none => some defaults.window
    | some item => Window.ofItem? item
  let placeholder ←
    match entries.get? "placeholder" with
    | none => some defaults.placeholder
    | some (.text text) => some text
    | some _ => none
  return { window, placeholder }

/-- The settings that a document describes, where they can be used. -/
def ofDocument (document : Text) : Except SettingsError Settings :=
  match (Toml.read? document).bind ofEntries? with
  | none => .error .unreadable
  | some settings => do
    settings.check
    return settings

end Settings

end Pinpoint

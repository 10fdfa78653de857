import Pinpoint.Settings.Document
import Pinpoint.Toml.Writer

/-! # Settings listed in a document

A listing chooses what a document says: whether there is a placeholder and how its characters are
written, whether there is a table of the window, and which of its numbers stand there in which
order. What it leaves out keeps its default.
-/

namespace Pinpoint

namespace Window

/-- The numbers of the window are numbers of a document. -/
structure Representable (window : Window) : Prop where
  before : window.before ≤ Toml.maxInteger
  after : window.after ≤ Toml.maxInteger
  tokenLimit : window.tokenLimit ≤ Toml.maxInteger

inductive Key where
  | before
  | after
  | tokenLimit
  deriving DecidableEq, Repr

def Key.name : Key → Text
  | before => "before".toList
  | after => "after".toList
  | tokenLimit => "token_limit".toList

/-- Numbers of a window in some order, each named at most once. -/
structure Listing where
  entries : List (Key × Nat)
  once : (entries.map Prod.fst).Nodup
  representable : ∀ entry ∈ entries, entry.2 ≤ Toml.maxInteger

namespace Listing

/-- The number of a key; one that is not listed has the given default. -/
def number (listing : Listing) (key : Key) (default : Nat) : Nat :=
  (listing.entries.lookup key).getD default

def window (listing : Listing) : Window :=
  let defaults : Window := {}
  { before := listing.number .before defaults.before
    after := listing.number .after defaults.after
    tokenLimit := listing.number .tokenLimit defaults.tokenLimit }

def line (entry : Key × Nat) : Text := Toml.assignment entry.1.name (Text.ofNat entry.2)

def lines (listing : Listing) : List Text :=
  Toml.header "window".toList :: listing.entries.map line

/-- All numbers of a window, in the order of its fields. -/
def ofWindow (window : Window) (representable : window.Representable) : Listing where
  entries := [(.before, window.before), (.after, window.after), (.tokenLimit, window.tokenLimit)]
  once := (by decide : [Key.before, Key.after, Key.tokenLimit].Nodup)
  representable := by
    simp only [List.forall_mem_cons]
    exact ⟨representable.before, representable.after, representable.tokenLimit, nofun⟩

end Listing

end Window

namespace Settings

/-- What a document says of the settings: the placeholder and how it is written, and the table of
the window, where they are given. -/
structure Listing where
  placeholder : Option (List Toml.Spelling)
  window : Option Window.Listing

namespace Listing

/-- The settings with what is given; everything else has its default. -/
def settings (listing : Listing) : Settings :=
  let defaults : Settings := {}
  { window := listing.window.elim defaults.window (·.window)
    placeholder := listing.placeholder.elim defaults.placeholder Toml.spelled }

/-- The lines of the document: the placeholder stands before the table, so that it is not a key of
the table. -/
def lines (listing : Listing) : List Text :=
  (listing.placeholder.elim [] fun spellings =>
    [Toml.assignment "placeholder".toList (Toml.quoted spellings)]) ++
  listing.window.elim [] (·.lines)

def document (listing : Listing) : Text := Toml.ofLines listing.lines

/-- Everything is given, with characters that stand for themselves where they can. -/
def ofSettings (settings : Settings) (representable : settings.window.Representable) : Listing where
  placeholder := some (settings.placeholder.map Toml.Spelling.ofChar)
  window := some (.ofWindow settings.window representable)

@[simp]
theorem settings_ofSettings (settings : Settings) (representable : settings.window.Representable) :
    (ofSettings settings representable).settings = settings := by
  have spelled : Toml.spelled (settings.placeholder.map Toml.Spelling.ofChar) =
      settings.placeholder := by
    rw [Toml.spelled, List.map_map]
    exact List.map_id'' Toml.Spelling.char_ofChar settings.placeholder
  have window : (Window.Listing.ofWindow settings.window representable).window =
      settings.window := rfl
  simp only [Listing.settings, ofSettings, Option.elim_some, window, spelled]

end Listing

end Settings

end Pinpoint

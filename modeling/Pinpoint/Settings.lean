import Pinpoint.Excerpt

/-! # Report settings

Settings choose how much source a report quotes and what it quotes where there is no source. Any
settings can be used; those read from a document are checked first, and the first rule that they
break is reported.
-/

namespace Pinpoint

/-- How a report quotes its source, and what it quotes where there is none. -/
structure Settings where
  window : Window := {}
  placeholder : Text := Excerpt.noSource
  deriving DecidableEq, Repr, Inhabited

/-- A rule that usable settings keep and these settings break. -/
inductive Violation where
  | emptyWindow
  | zeroTokenLimit
  | emptyPlaceholder
  deriving DecidableEq, Repr

namespace Violation

/-- The path of the setting that breaks the rule. -/
def field : Violation → Text
  | emptyWindow => "window".toList
  | zeroTokenLimit => "window.token_limit".toList
  | emptyPlaceholder => "placeholder".toList

def reason : Violation → Text
  | emptyWindow => "window must include at least one character".toList
  | zeroTokenLimit => "must be greater than zero".toList
  | emptyPlaceholder => "must not be empty".toList

end Violation

/-- Why settings could not be loaded: the document is malformed or a setting has the wrong type, or
the document reads as settings that break a rule. -/
inductive SettingsError where
  | unreadable
  | invalid (violation : Violation)
  deriving DecidableEq, Repr

/-- The wording of a settings error, where `problem` is what the reader says of a document that it
cannot read. -/
def SettingsError.message (problem : Text) : SettingsError → Text
  | unreadable => "Failed to parse render configuration: ".toList ++ problem
  | invalid violation =>
    "Invalid value for '".toList ++ violation.field ++ "': ".toList ++ violation.reason

namespace Settings

/-- The first rule that the settings break: the window, its token limit, then the placeholder. -/
def violation? (settings : Settings) : Option Violation :=
  if settings.window.before + settings.window.after = 0 then some .emptyWindow
  else if settings.window.tokenLimit = 0 then some .zeroTokenLimit
  else if settings.placeholder = [] then some .emptyPlaceholder
  else none

/-- Settings that break no rule pass; the others are reported by the first one broken. -/
def check (settings : Settings) : Except SettingsError Unit :=
  match settings.violation? with
  | none => .ok ()
  | some violation => .error (.invalid violation)

/-- Settings break no rule when their window, its token limit and the placeholder are not empty. -/
theorem violation?_eq_none_iff (settings : Settings) :
    settings.violation? = none ↔
      0 < settings.window.before + settings.window.after ∧
        0 < settings.window.tokenLimit ∧ settings.placeholder ≠ [] := by
  unfold violation?
  by_cases room : settings.window.before + settings.window.after = 0
  · simp only [room, ↓reduceIte, Nat.lt_irrefl, false_and, reduceCtorEq]
  · by_cases limit : settings.window.tokenLimit = 0
    · simp only [room, limit, ↓reduceIte, Nat.lt_irrefl, false_and, and_false, reduceCtorEq]
    · by_cases quoted : settings.placeholder = []
      · simp only [room, limit, quoted, ↓reduceIte, ne_eq, not_true_eq_false, and_false,
          reduceCtorEq]
      · simp only [room, limit, quoted, ↓reduceIte, ne_eq, not_false_eq_true, and_true, true_iff]
        omega

end Settings

end Pinpoint

import Pinpoint.Excerpt

/-! # Checked excerpts

A machine holds an offset in 64 bits, one of them for the sign where an offset can be negative, and
takes a slice only inside its text. A checked computation stops with a fault where a number would
leave its range or a slice its text, and where a loop is not done in the rounds that it is given.

This is the excerpt again, by searches for single characters, slices and machine offsets. Every
slice, sum, difference and conversion on the way is checked, and the loop that isolates a line gets
one round more than there are line feeds.
-/

namespace Pinpoint

/-- Why a checked computation stops without a result. -/
inductive Fault where
  | overflow
  | outOfBounds
  | endless
  deriving DecidableEq, Repr

abbrev Checked (α : Type) := Except Fault α

namespace Checked

def add (a b : Nat) : Checked Nat :=
  if a + b ≤ maxOffset then return a + b else throw .overflow

def sub (a b : Nat) : Checked Nat := if b ≤ a then return a - b else throw .overflow

/-- Signed offsets lie between the negated bound, which is one of them, and the bound. -/
def signedBound : Nat := 0x8000000000000000

def signed (number : Int) : Checked Int :=
  if -signedBound ≤ number ∧ number < signedBound then return number else throw .overflow

def slice (text : Text) (start stop : Nat) : Checked Text :=
  if start ≤ stop ∧ stop ≤ text.length then return (Span.mk start stop).slice text
  else throw .outOfBounds

/-! ## Searches -/

/-- The offset of the last character with a property. -/
def lastIdx? (wanted : Char → Bool) (text : Text) : Option Nat :=
  (text.reverse.findIdx? wanted).map (text.length - 1 - ·)

/-- The parts of a given length, at every offset; there are none of length zero. -/
def parts (text : Text) (size : Nat) : Checked (List Text) :=
  if size = 0 then throw .outOfBounds
  else return (List.range (text.length + 1 - size)).map fun offset => (text.drop offset).take size

def offsetOf? (text part : Text) : Checked (Option Nat) := do
  if part = [] then return some 0
  else if text.length < part.length then return none
  else return (← parts text part.length).findIdx? (· = part)

/-! ## Trimming -/

def trimLeft (text : Text) : Checked Text :=
  slice text ((text.findIdx? (!Text.isBlank ·)).getD text.length) text.length

def trim (text : Text) : Checked Text := do
  let text ← trimLeft text
  match lastIdx? (!Text.isBlank ·) text with
  | none => slice text 0 0
  | some last => slice text 0 (← add last 1)

/-! ## The line of the cursor -/

def cut? (text : Text) (cursor : Int) : Checked (Option Cut) :=
  match text.findIdx? (· = '\n'), lastIdx? (· = '\n') text with
  | some first, some last => do
    if first ≠ last then return some (.middle first last)
    else if cursor ≤ (← signed first) then return some (.head first)
    else return some (.tail first)
  | _, _ => return none

/-- The cursor once the characters before an offset are dropped. -/
def shift (cursor : Int) (start : Nat) : Checked Int := do signed (cursor - (← signed start))

/-- The text once no line feed is left; each round makes one cut. -/
def isolate : Nat → Text → Int → Checked Text
  | 0, _, _ => throw .endless
  | rounds + 1, text, cursor => do
    match ← cut? text cursor with
    | none => return text
    | some (.head lineFeed) => isolate rounds (← slice text 0 lineFeed) cursor
    | some (.tail lineFeed) =>
      let start ← add lineFeed 1
      isolate rounds (← slice text start text.length) (← shift cursor start)
    | some (.middle first last) =>
      let start ← add first 1
      isolate rounds (← slice text start last) (← shift cursor start)

/-! ## The excerpt -/

/-- The offsets of the window; differences stop at zero and sums at the largest offset. -/
def bounds (window : Window) (cursor length : Nat) : Span :=
  let start := cursor - window.before
  let stop := min (cursor + window.after) maxOffset
  if length < stop then ⟨start - window.after, length⟩ else ⟨start, stop⟩

def leadingToken (rest : Text) (limit : Nat) : Checked Text :=
  slice rest 0 ((rest.take limit).takeWhile fun c => c ≠ '\n' && !Text.isBlank c).length

def ofSource (source : Text) (cursor : Nat) (window : Window) : Checked Excerpt := do
  let cursor := if source.length < cursor then source.length else cursor
  let span := bounds window cursor source.length
  let token ← leadingToken (← slice source cursor source.length) window.tokenLimit
  let quoted ← slice source span.start span.stop
  let line ← isolate (quoted.count '\n' + 1) quoted (← signed (← sub cursor span.start))
  let text ← trim line
  return { text, caret := ← offsetOf? text token }

end Checked

end Pinpoint

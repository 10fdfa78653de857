import Pinpoint.Excerpt.Focus
import Pinpoint.Number

/-! # Excerpts of a source

An excerpt quotes one line around a cursor: the window around the cursor is cut from the source,
one line of it is isolated, and blank characters are trimmed off its ends. The caret is the offset
in that text of the token at the cursor, the run of characters up to the next blank one.
-/

namespace Pinpoint

/-! ## Windows

A window says how many characters before and after a cursor may be quoted. Where the characters
asked for run past the end of the buffer, the window ends with the buffer and its start moves left
by the whole `after`, so that a cursor near the end still shows context.
-/

/-- A range of offsets, the end not included. -/
structure Span where
  start : Nat
  stop : Nat
  deriving DecidableEq, Repr

/-- The part of a text that a span covers. -/
def Span.slice (span : Span) (text : Text) : Text := text.extract span.start span.stop

/-- How much source an excerpt may show: the characters before the cursor, those from the cursor on,
and the longest token that places the caret. -/
structure Window where
  before : Nat := 20
  after : Nat := 30
  tokenLimit : Nat := 30
  deriving DecidableEq, Repr, Inhabited

namespace Window

/-- The characters asked for after the cursor run past the end of the buffer; the end asked for
is itself an offset and so no larger than `maxOffset`. -/
def overruns (window : Window) (cursor length : Nat) : Bool :=
  length < min (cursor + window.after) maxOffset

/-- The offsets of the window in a buffer of the given length. -/
def span (window : Window) (cursor length : Nat) : Span where
  start :=
    if window.overruns cursor length then cursor - window.before - window.after
    else cursor - window.before
  stop := min (cursor + window.after) length

end Window

/-! ## Excerpts -/

/-- A quoted line and the offset in it of the token at the cursor, if the token occurs there. -/
structure Excerpt where
  text : Text
  caret : Option Nat
  deriving DecidableEq, Repr

namespace Excerpt

/-- An excerpt that quotes no source has its caret at the start. -/
def placeholder (text : Text) : Excerpt := ⟨text, some 0⟩

/-- A token that does not occur puts the caret at the start. -/
def caretOffset (excerpt : Excerpt) : Nat := excerpt.caret.getD 0

/-- What is quoted where there is no source. -/
def noSource : Text := "Unknown".toList

/-- The token at the start of a text: no blank character is in it and it is at most `limit` long. -/
def leadingToken (rest : Text) (limit : Nat) : Text :=
  (rest.take limit).takeWhile fun c => !Text.isBlank c

/-- The line that a window quotes, before trimming. -/
def focus (source : Text) (cursor : Nat) (window : Window) : Focus :=
  let span := window.span cursor source.length
  (Focus.ofWindow (span.slice source) (cursor - span.start)).narrow

/-- The excerpt around a cursor of a source that has characters; a cursor past the end is at the
end. -/
def ofSource (source : Text) (cursor : Nat) (window : Window) : Excerpt :=
  let cursor := min cursor source.length
  let text := (focus source cursor window).text.trim
  { text, caret := text.offsetOf? (leadingToken (source.drop cursor) window.tokenLimit) }

/-- The excerpt around a cursor; an absent source and an empty one quote a placeholder. -/
def extract (source : Option Text) (cursor : Nat) (window : Window) : Excerpt :=
  match source with
  | none | some [] => placeholder noSource
  | some source => ofSource source cursor window

end Excerpt

/-! ## Where an excerpt lies in its source

The line feeds of a source divide it into lines, which are counted from 1 like the lines of a
location. An excerpt quotes a part of one of these lines: the offsets of that part are known before
trimming, and so is the number of line feeds that the window holds on either side of the cursor.
-/

/-- The offsets of a line, counted from 1; a line feed stands behind every line before it. -/
def Text.lineSpan (text : Text) (number : Nat) : Span :=
  let start := ((text.lines.take (number - 1)).flatMap (· ++ ['\n'])).length
  ⟨start, start + (text.lines.getD (number - 1) []).length⟩

/-- The part of a span that lies inside another one which it meets. -/
def Span.inside (span outer : Span) : Span :=
  ⟨max span.start outer.start, min span.stop outer.stop⟩

structure Span.Within (span outer : Span) : Prop where
  start_le : outer.start ≤ span.start
  ordered : span.start ≤ span.stop
  le_stop : span.stop ≤ outer.stop

namespace Excerpt

/-- The offsets of the line that a window isolates, before trimming. -/
def isolated (source : Text) (cursor : Nat) (window : Window) : Span :=
  let start := (window.span cursor source.length).start + (focus source cursor window).dropped
  ⟨start, start + (focus source cursor window).text.length⟩

/-- The offsets of the quoted text, which trimming has made shorter on both sides. -/
def quoted (source : Text) (cursor : Nat) (window : Window) : Span :=
  let line := (focus source cursor window).text
  let start := (isolated source cursor window).start + (line.takeWhile Text.isBlank).length
  ⟨start, start + line.trim.length⟩

/-- The line feeds of the window before the cursor. -/
def feedsBehind (source : Text) (cursor : Nat) (window : Window) : Nat :=
  ((Span.mk (window.span cursor source.length).start cursor).slice source).count '\n'

/-- The line feeds of the window from the cursor on. -/
def feedsAhead (source : Text) (cursor : Nat) (window : Window) : Nat :=
  ((Span.mk cursor (window.span cursor source.length).stop).slice source).count '\n'

end Excerpt

end Pinpoint

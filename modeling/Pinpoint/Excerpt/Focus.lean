import Pinpoint.Text

/-! # Isolating one line of a window

A window of source may hold several line feeds. They are cut away from the outside in: while there
are two or more, the text between the first and the last is kept; the only one left is cut so that
the side of the cursor stays, and a cursor on the line feed itself belongs to the line before it.
The cursor is carried along relative to the kept text and may leave it on either side.
-/

namespace Pinpoint

/-- One step of isolating a line: the text before or behind the only line feed is kept, or the text
between the first and the last of several. -/
inductive Cut where
  | head (lineFeed : Nat)
  | tail (lineFeed : Nat)
  | middle (first last : Nat)
  deriving DecidableEq, Repr

/-- The part of a window that is still quoted: how many characters were dropped on its left, its
text and the cursor relative to it. -/
structure Focus where
  dropped : Nat
  text : Text
  cursor : Int
  deriving DecidableEq, Repr

namespace Focus

/-- The whole window is kept at first. -/
def ofWindow (window : Text) (cursor : Nat) : Focus := ⟨0, window, cursor⟩

/-- The cut that is due, if a line feed is left. -/
def cut? (focus : Focus) : Option Cut :=
  match focus.text.lineFeeds with
  | [] => none
  | [lineFeed] => some (if focus.cursor ≤ lineFeed then .head lineFeed else .tail lineFeed)
  | first :: second :: rest => some (.middle first ((second :: rest).getLast (by simp)))

def keepBefore (focus : Focus) (offset : Nat) : Focus :=
  { focus with text := focus.text.take offset }

/-- Drops the characters up to the given line feed and the line feed itself. -/
def dropThrough (focus : Focus) (lineFeed : Nat) : Focus where
  dropped := focus.dropped + (lineFeed + 1)
  text := focus.text.drop (lineFeed + 1)
  cursor := focus.cursor - (lineFeed + 1 : Nat)

def apply (focus : Focus) : Cut → Focus
  | .head lineFeed => focus.keepBefore lineFeed
  | .tail lineFeed => focus.dropThrough lineFeed
  | .middle first last => (focus.keepBefore last).dropThrough first

/-- Every cut drops at least one line feed. -/
theorem length_apply_lt {focus : Focus} {cut : Cut} (due : focus.cut? = some cut) :
    (focus.apply cut).text.length < focus.text.length := by
  have inside : ∀ lineFeed ∈ focus.text.lineFeeds, lineFeed < focus.text.length :=
    fun _ => Text.lt_length_of_mem_lineFeeds
  unfold cut? at due
  split at due
  · cases due
  · next lineFeed feeds =>
    have := inside lineFeed (by simp [feeds])
    split at due
    · cases due
      simp only [apply, keepBefore, List.length_take]
      omega
    · cases due
      simp only [apply, dropThrough, List.length_drop]
      omega
  · next first second rest feeds =>
    have := inside first (by simp [feeds])
    cases due
    simp only [apply, keepBefore, dropThrough, List.length_drop, List.length_take]
    omega

/-- The focus once no line feed is left. -/
def narrow (focus : Focus) : Focus :=
  match _due : focus.cut? with
  | none => focus
  | some cut => (focus.apply cut).narrow
termination_by focus.text.length
decreasing_by exact length_apply_lt _due

theorem narrow_of_cut?_eq_none {focus : Focus} (done : focus.cut? = none) :
    focus.narrow = focus := by
  rw [narrow]
  split
  · rfl
  · next due => simp [done] at due

theorem narrow_of_cut?_eq_some {focus : Focus} {cut : Cut} (due : focus.cut? = some cut) :
    focus.narrow = (focus.apply cut).narrow := by
  rw [narrow]
  split
  · next done => simp [done] at due
  · next other => rw [due] at other; cases other; rfl

end Focus

end Pinpoint

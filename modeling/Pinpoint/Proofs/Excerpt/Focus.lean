import Pinpoint.Proofs.Text.Lines

/-! # What isolation leaves of a window

The text that is kept is at every moment the window without a part on its left and a part on its
right, and the cursor is counted from the end of the left part. Cuts between the outer line feeds
take one line feed from either side, so the two parts hold equally many of them until the last cut,
which looks at the cursor. What is left in the end is a line of the window.
-/

namespace Pinpoint.Focus

/-! ## The cut that is due -/

/-- The texts that isolation tells apart. -/
inductive Shape (text : Text) : Prop where
  | plain (plain : '\n' ∉ text)
  | single (front back : Text) (parts : text = front ++ '\n' :: back)
    (front_plain : '\n' ∉ front) (back_plain : '\n' ∉ back)
  | several (front middle back : Text)
    (parts : text = (front ++ '\n' :: middle) ++ '\n' :: back)
    (front_plain : '\n' ∉ front) (back_plain : '\n' ∉ back)

theorem shape (text : Text) : Shape text := by
  by_cases first : '\n' ∈ text
  · obtain ⟨front, rest, rfl, frontPlain⟩ := List.eq_append_cons_of_mem first
    obtain ⟨left, back, rfl, opens, backPlain⟩ := Text.exists_opensLine rest
    rcases opens with rfl | ⟨middle, rfl⟩
    · exact .single front back rfl frontPlain backPlain
    · refine .several front middle back ?_ frontPlain backPlain
      rw [List.append_assoc, List.singleton_append, List.append_assoc, List.cons_append]
  · exact .plain first

variable {focus : Focus} {front middle back : Text}

theorem cut?_of_plain (plain : '\n' ∉ focus.text) : focus.cut? = none := by
  unfold cut?
  rw [Text.lineFeeds_eq_nil plain]

theorem cut?_of_single (text : focus.text = front ++ '\n' :: back) (front_plain : '\n' ∉ front)
    (back_plain : '\n' ∉ back) :
    focus.cut? =
      some (if focus.cursor ≤ front.length then .head front.length else .tail front.length) := by
  have feeds : focus.text.lineFeeds = [front.length] := by
    rw [text, Text.lineFeeds_append_cons front_plain, Text.lineFeeds_eq_nil back_plain,
      List.map_nil]
  unfold cut?
  rw [feeds]

theorem cut?_of_several (text : focus.text = (front ++ '\n' :: middle) ++ '\n' :: back)
    (front_plain : '\n' ∉ front) (back_plain : '\n' ∉ back) :
    focus.cut? = some (.middle front.length (front ++ '\n' :: middle).length) := by
  have last : Text.lineFeeds ('\n' :: back) = [0] := by
    have feed := Text.lineFeeds_append_cons (List.not_mem_nil : '\n' ∉ ([] : Text)) back
    rw [Text.lineFeeds_eq_nil back_plain] at feed
    exact feed
  have feeds : focus.text.lineFeeds = front.length ::
      (middle.lineFeeds.map (front.length + 1 + ·) ++ [(front ++ '\n' :: middle).length]) := by
    rw [text, Text.lineFeeds_append, Text.lineFeeds_append_cons front_plain, last]
    rfl
  unfold cut?
  split
  · next none => simp only [feeds, reduceCtorEq] at none
  · next feed one => simp [feeds] at one
  · next first second rest parts =>
    obtain ⟨rfl, others⟩ := List.cons.inj (parts.symm.trans feeds)
    simp only [others, List.getLast_concat]

theorem cut?_eq_none_iff : focus.cut? = none ↔ '\n' ∉ focus.text := by
  constructor
  · intro done
    cases shape focus.text with
    | plain plain => exact plain
    | single front back text frontPlain backPlain =>
      rw [cut?_of_single text frontPlain backPlain] at done
      cases done
    | several front middle back text frontPlain backPlain =>
      rw [cut?_of_several text frontPlain backPlain] at done
      cases done
  · exact cut?_of_plain

/-- All that a cut which is due can be. -/
inductive Due (focus : Focus) : Cut → Prop where
  | head (front back : Text) (text : focus.text = front ++ '\n' :: back)
    (front_plain : '\n' ∉ front) (back_plain : '\n' ∉ back)
    (near : focus.cursor ≤ front.length) : Due focus (.head front.length)
  | tail (front back : Text) (text : focus.text = front ++ '\n' :: back)
    (front_plain : '\n' ∉ front) (back_plain : '\n' ∉ back)
    (far : front.length < focus.cursor) : Due focus (.tail front.length)
  | middle (front middle back : Text)
    (text : focus.text = (front ++ '\n' :: middle) ++ '\n' :: back)
    (front_plain : '\n' ∉ front) (back_plain : '\n' ∉ back) :
    Due focus (.middle front.length (front ++ '\n' :: middle).length)

theorem due_of_cut? {cut : Cut} (due : focus.cut? = some cut) : focus.Due cut := by
  cases shape focus.text with
  | plain plain =>
    rw [cut?_of_plain plain] at due
    cases due
  | single front back text frontPlain backPlain =>
    rw [cut?_of_single text frontPlain backPlain] at due
    by_cases near : focus.cursor ≤ front.length
    · rw [if_pos near] at due
      cases due
      exact .head front back text frontPlain backPlain near
    · rw [if_neg near] at due
      cases due
      exact .tail front back text frontPlain backPlain (Int.not_le.mp near)
  | several front middle back text frontPlain backPlain =>
    rw [cut?_of_several text frontPlain backPlain] at due
    cases due
    exact .middle front middle back text frontPlain backPlain

/-! ## One cut -/

theorem text_keepBefore (text : focus.text = front ++ '\n' :: back) :
    (focus.keepBefore front.length).text = front := by
  rw [keepBefore, text, List.take_left]

theorem text_dropThrough (text : focus.text = front ++ '\n' :: back) :
    (focus.dropThrough front.length).text = back := by
  rw [dropThrough, text, List.append_cons]
  exact List.drop_left' (List.length_append ..)

theorem text_apply_middle (text : focus.text = (front ++ '\n' :: middle) ++ '\n' :: back) :
    (focus.apply (.middle front.length (front ++ '\n' :: middle).length)).text = middle :=
  text_dropThrough (text_keepBefore text)

/-- Every cut takes two line feeds away, or the only one. -/
theorem count_apply {cut : Cut} (due : focus.cut? = some cut) :
    (focus.apply cut).text.count '\n' = focus.text.count '\n' - 2 := by
  cases due_of_cut? due with
  | head front back text frontPlain backPlain near =>
    rw [Focus.apply, text_keepBefore text, text, List.count_append, List.count_cons_self,
      Text.count_eq_zero_of_plain frontPlain, Text.count_eq_zero_of_plain backPlain]
  | tail front back text frontPlain backPlain far =>
    rw [Focus.apply, text_dropThrough text, text, List.count_append, List.count_cons_self,
      Text.count_eq_zero_of_plain frontPlain, Text.count_eq_zero_of_plain backPlain]
  | middle front middle back text frontPlain backPlain =>
    rw [text_apply_middle text, text, List.count_append, List.count_append, List.count_cons_self,
      List.count_cons_self, Text.count_eq_zero_of_plain frontPlain,
      Text.count_eq_zero_of_plain backPlain]
    omega

theorem cut?_eq_none_iff_count : focus.cut? = none ↔ focus.text.count '\n' = 0 :=
  cut?_eq_none_iff.trans List.count_eq_zero.symm

theorem count_apply_lt {cut : Cut} (due : focus.cut? = some cut) :
    (focus.apply cut).text.count '\n' < focus.text.count '\n' := by
  have left : focus.text.count '\n' ≠ 0 := by
    intro none
    rw [cut?_eq_none_iff_count.mpr none] at due
    cases due
  rw [count_apply due]
  omega

/-- The kept text lies in the window between a left and a right part, from whose line feeds on it
starts and ends, and the cursor is carried along. -/
structure PartOf (focus : Focus) (left right window : Text) (cursor : Nat) : Prop where
  whole : window = left ++ focus.text ++ right
  dropped : focus.dropped = left.length
  cursor_eq : focus.cursor = (cursor : Int) - left.length
  opens : Text.OpensLine left
  closes : Text.ClosesLine right

variable {left right window : Text} {cursor : Nat}

theorem partOf_ofWindow (window : Text) (cursor : Nat) :
    (ofWindow window cursor).PartOf [] [] window cursor where
  whole := (List.append_nil window).symm
  dropped := rfl
  cursor_eq := (Int.sub_zero _).symm
  opens := .inl rfl
  closes := .inl rfl

theorem PartOf.keepBefore (part : focus.PartOf left right window cursor)
    (text : focus.text = front ++ '\n' :: back) :
    (focus.keepBefore front.length).PartOf left ('\n' :: (back ++ right)) window cursor := by
  refine ⟨?_, part.dropped, part.cursor_eq, part.opens, .inr ⟨_, rfl⟩⟩
  rw [text_keepBefore text, part.whole, text]
  simp only [List.append_assoc, List.cons_append]

theorem PartOf.dropThrough (part : focus.PartOf left right window cursor)
    (text : focus.text = front ++ '\n' :: back) :
    (focus.dropThrough front.length).PartOf (left ++ front ++ ['\n']) right window cursor := by
  refine ⟨?_, ?_, ?_, .inr ⟨left ++ front, rfl⟩, part.closes⟩
  · rw [text_dropThrough text, part.whole, text]
    simp only [List.append_assoc, List.singleton_append]
  · simp only [Focus.dropThrough, part.dropped, List.length_append, List.length_singleton,
      Nat.add_assoc]
  · simp only [Focus.dropThrough, part.cursor_eq, List.length_append, List.length_singleton]
    omega

/-! ## The whole run -/

/-- Which line isolation ends on: the middle one where as many line feeds stand on its left as on
its right, and else the one of the two middle ones that the cursor is on the side of. -/
def Settled (left line right : Text) (cursor : Nat) : Prop :=
  left.count '\n' = right.count '\n' ∨
    (left.count '\n' = right.count '\n' + 1 ∧ left.length ≤ cursor) ∨
      (right.count '\n' = left.count '\n' + 1 ∧ cursor ≤ left.length + line.length)

/-- A window has one line that isolation can end on. -/
theorem Settled.eq {line otherLeft other otherRight : Text}
    (settled : Settled left line right cursor)
    (otherSettled : Settled otherLeft other otherRight cursor)
    (isLine : Text.IsLine left line right)
    (otherIsLine : Text.IsLine otherLeft other otherRight)
    (same : left ++ line ++ right = otherLeft ++ other ++ otherRight) :
    left = otherLeft ∧ line = other := by
  have total := congrArg (List.count '\n') same
  simp only [List.count_append, Text.count_eq_zero_of_plain isLine.plain,
    Text.count_eq_zero_of_plain otherIsLine.plain] at total
  unfold Settled at settled otherSettled
  apply isLine.eq_of_count_eq otherIsLine same
  -- of two lines with other numbers before them, the cursor cannot be on the side of both
  rcases Nat.lt_trichotomy (left.count '\n') (otherLeft.count '\n') with fewer | equal | more
  · have := isLine.end_lt_start otherIsLine same fewer
    omega
  · exact equal
  · have := otherIsLine.end_lt_start isLine same.symm more
    omega

/-- A cut between the outer line feeds takes one line feed from either side. -/
private theorem PartOf.apply_middle (part : focus.PartOf left right window cursor)
    (balanced : left.count '\n' = right.count '\n')
    (text : focus.text = (front ++ '\n' :: middle) ++ '\n' :: back)
    (front_plain : '\n' ∉ front) (back_plain : '\n' ∉ back) :
    ∃ left right,
      (focus.apply (.middle front.length (front ++ '\n' :: middle).length)).PartOf
        left right window cursor ∧ left.count '\n' = right.count '\n' := by
  refine ⟨_, _, (part.keepBefore text).dropThrough (text_keepBefore text), ?_⟩
  rw [List.count_append, List.count_singleton_self, List.count_append, List.count_cons_self,
    List.count_append, Text.count_eq_zero_of_plain front_plain,
    Text.count_eq_zero_of_plain back_plain, Nat.add_zero, Nat.zero_add, balanced]

/-- From equally many line feeds on either side, isolation ends on a line of the window; the last
cut keeps the side of the cursor. -/
theorem PartOf.narrow (part : focus.PartOf left right window cursor)
    (balanced : left.count '\n' = right.count '\n') :
    ∃ left right, focus.narrow.PartOf left right window cursor ∧ '\n' ∉ focus.narrow.text ∧
      Settled left focus.narrow.text right cursor := by
  induction focus using narrow.induct generalizing left right with
  | case1 focus done =>
    rw [narrow_of_cut?_eq_none done]
    exact ⟨left, right, part, cut?_eq_none_iff.mp done, .inl balanced⟩
  | case2 focus cut due ih =>
    have place := part.cursor_eq
    rw [narrow_of_cut?_eq_some due]
    cases due_of_cut? due with
    | head front back text frontPlain backPlain near =>
      have kept := text_keepBefore text
      have plain : '\n' ∉ (focus.keepBefore front.length).text := by rwa [kept]
      rw [Focus.apply, narrow_of_cut?_eq_none (cut?_of_plain plain), kept]
      refine ⟨_, _, part.keepBefore text, frontPlain, .inr (.inr ⟨?_, by omega⟩)⟩
      rw [List.count_cons_self, List.count_append, Text.count_eq_zero_of_plain backPlain,
        Nat.zero_add, balanced]
    | tail front back text frontPlain backPlain far =>
      have kept := text_dropThrough text
      have plain : '\n' ∉ (focus.dropThrough front.length).text := by rwa [kept]
      rw [Focus.apply, narrow_of_cut?_eq_none (cut?_of_plain plain), kept]
      refine ⟨_, _, part.dropThrough text, backPlain, .inr (.inl ⟨?_, ?_⟩)⟩
      · rw [List.count_append, List.count_singleton_self, List.count_append,
          Text.count_eq_zero_of_plain frontPlain, Nat.add_zero, balanced]
      · simp only [List.length_append, List.length_singleton]
        omega
    | middle front middle back text frontPlain backPlain =>
      obtain ⟨_, _, inner, equal⟩ := part.apply_middle balanced text frontPlain backPlain
      exact ih inner equal

/-- Isolation ends on a line of the window: no line feed is in it, and it is the middle one. -/
theorem narrow_ofWindow (window : Text) (cursor : Nat) :
    ∃ left right, (ofWindow window cursor).narrow.PartOf left right window cursor ∧
      Text.IsLine left (ofWindow window cursor).narrow.text right ∧
      Settled left (ofWindow window cursor).narrow.text right cursor := by
  obtain ⟨left, right, part, plain, settled⟩ := (partOf_ofWindow window cursor).narrow rfl
  exact ⟨left, right, part, ⟨part.opens, plain, part.closes⟩, settled⟩

end Pinpoint.Focus

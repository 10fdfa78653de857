import Pinpoint.Proofs.Checked.Text

/-! # Checked excerpts do not fault

Isolating a line moves the cursor below zero, but never further than the characters it has dropped,
and each round has one line feed less to deal with. So a source shorter than the bound of the signed
offsets is quoted without a fault, whatever the window and the cursor are.
-/

namespace Pinpoint

open Checked (signedBound)

theorem Checked.signedBound_le_maxOffset : signedBound ≤ maxOffset := by decide

namespace Focus

/-- The text is short enough for signed offsets, and the cursor can still be moved left by all of
it. -/
structure Fits (focus : Focus) : Prop where
  short : focus.text.length < signedBound
  low : (focus.text.length : Int) ≤ focus.cursor + signedBound
  high : focus.cursor < signedBound

variable {focus : Focus} {front middle back : Text}

private theorem Fits.keepBefore (fits : focus.Fits) (offset : Nat) :
    (focus.keepBefore offset).Fits := by
  have shorter := (List.take_prefix offset focus.text).length_le
  have := fits.short
  have := fits.low
  constructor
  · show (focus.text.take offset).length < signedBound
    omega
  · show ((focus.text.take offset).length : Int) ≤ focus.cursor + signedBound
    omega
  · exact fits.high

private theorem Fits.dropThrough (fits : focus.Fits) (text : focus.text = front ++ '\n' :: back) :
    (focus.dropThrough front.length).Fits := by
  have kept := text_dropThrough text
  have length := congrArg List.length text
  simp only [List.length_append, List.length_cons] at length
  have := fits.short
  have := fits.low
  have := fits.high
  constructor
  · rw [kept]
    omega
  · rw [kept]
    simp only [Focus.dropThrough]
    omega
  · simp only [Focus.dropThrough]
    omega

theorem Fits.apply (fits : focus.Fits) {cut : Cut} (due : focus.cut? = some cut) :
    (focus.apply cut).Fits := by
  cases due_of_cut? due with
  | head front back text frontPlain backPlain near => exact fits.keepBefore front.length
  | tail front back text frontPlain backPlain far => exact fits.dropThrough text
  | middle front middle back text frontPlain backPlain =>
    exact (fits.keepBefore _).dropThrough (text_keepBefore text)

theorem fits_ofWindow {window : Text} {cursor : Nat} (short : window.length < signedBound)
    (inside : cursor ≤ window.length) : (ofWindow window cursor).Fits := by
  constructor
  · exact short
  · simp only [ofWindow]
    omega
  · simp only [ofWindow]
    omega

/-! ## One round -/

private theorem decide_eq_lineFeed {text : Text} (plain : '\n' ∉ text) :
    ∀ c ∈ text, decide (c = '\n') = false := by
  intro c member
  apply decide_eq_false
  rintro rfl
  exact plain member

/-- The searches for a line feed from either end find the outer ones. -/
theorem Fits.cut?_ok (fits : focus.Fits) :
    Checked.cut? focus.text focus.cursor = .ok focus.cut? := by
  have short := fits.short
  unfold Checked.cut?
  cases shape focus.text with
  | plain plain =>
    have none : focus.text.findIdx? (· = '\n') = none :=
      List.findIdx?_eq_none_iff.mpr (decide_eq_lineFeed plain)
    rw [none, cut?_of_plain plain]
    rfl
  | single front back text frontPlain backPlain =>
    have first : focus.text.findIdx? (· = '\n') = some front.length :=
      text ▸ Checked.findIdx?_append_cons (decide_eq_true rfl) (decide_eq_lineFeed frontPlain)
    have last : Checked.lastIdx? (· = '\n') focus.text = some front.length :=
      text ▸ Checked.lastIdx?_append_cons (decide_eq_true rfl) (decide_eq_lineFeed backPlain)
    have length := congrArg List.length text
    rw [List.length_append] at length
    rw [first, last, cut?_of_single text frontPlain backPlain]
    simp only [ne_eq, not_true_eq_false, ↓reduceIte]
    rw [Checked.signed_ok (by omega) (by omega), Checked.ok_bind]
    split <;> rfl
  | several front middle back text frontPlain backPlain =>
    have inner : focus.text = front ++ '\n' :: (middle ++ '\n' :: back) := by
      rw [text, List.append_assoc, List.cons_append]
    have first : focus.text.findIdx? (· = '\n') = some front.length :=
      inner ▸ Checked.findIdx?_append_cons (decide_eq_true rfl) (decide_eq_lineFeed frontPlain)
    have last : Checked.lastIdx? (· = '\n') focus.text = some (front ++ '\n' :: middle).length :=
      text ▸ Checked.lastIdx?_append_cons (decide_eq_true rfl) (decide_eq_lineFeed backPlain)
    have apart : front.length ≠ (front ++ '\n' :: middle).length := by
      rw [List.length_append, List.length_cons]
      omega
    rw [first, last, cut?_of_several text frontPlain backPlain]
    simp only [apart, ne_eq, not_false_eq_true, ↓reduceIte]
    rfl

/-- Dropping through a line feed does not fault, nor does moving the cursor along. -/
private theorem Fits.dropThrough_ok (fits : focus.Fits)
    (text : focus.text = front ++ '\n' :: back) :
    Checked.add front.length 1 = .ok (front.length + 1) ∧
      Checked.shift focus.cursor (front.length + 1) =
        .ok (focus.dropThrough front.length).cursor := by
  have := fits.short
  have := Checked.signedBound_le_maxOffset
  have length := congrArg List.length text
  simp only [List.length_append, List.length_cons] at length
  have moved := fits.dropThrough text
  have low : -signedBound ≤ (focus.dropThrough front.length).cursor := by
    have := moved.low
    omega
  constructor
  · exact Checked.add_ok (by omega)
  · rw [Checked.shift, Checked.signed_ok (by omega) (by omega), Checked.ok_bind]
    exact Checked.signed_ok low moved.high

/-- A round makes the cut that is due. -/
theorem Fits.isolate_succ (fits : focus.Fits) {cut : Cut} (due : focus.cut? = some cut)
    (rounds : Nat) :
    Checked.isolate (rounds + 1) focus.text focus.cursor =
      Checked.isolate rounds (focus.apply cut).text (focus.apply cut).cursor := by
  rw [Checked.isolate, fits.cut?_ok, Checked.ok_bind, due]
  cases due_of_cut? due with
  | head front back text frontPlain backPlain near =>
    have inside : front.length ≤ focus.text.length := by
      rw [text]
      exact (List.prefix_append ..).length_le
    simp only
    rw [Checked.slice_zero_ok inside, Checked.ok_bind]
    rfl
  | tail front back text frontPlain backPlain far =>
    obtain ⟨started, shifted⟩ := fits.dropThrough_ok text
    have inside : front.length + 1 ≤ focus.text.length := by
      rw [text, List.length_append, List.length_cons]
      omega
    simp only
    rw [started, Checked.ok_bind, Checked.slice_length_ok inside, Checked.ok_bind, shifted,
      Checked.ok_bind]
    rfl
  | middle front middle back text frontPlain backPlain =>
    obtain ⟨started, shifted⟩ := (fits.keepBefore _).dropThrough_ok (text_keepBefore text)
    have ordered : front.length + 1 ≤ (front ++ '\n' :: middle).length := by
      rw [List.length_append, List.length_cons]
      omega
    have inside : (front ++ '\n' :: middle).length ≤ focus.text.length := by
      rw [text]
      exact (List.prefix_append ..).length_le
    have between :
        (Span.mk (front.length + 1) (front ++ '\n' :: middle).length).slice focus.text =
          (focus.apply (.middle front.length (front ++ '\n' :: middle).length)).text := by
      rw [Span.slice, List.extract_eq_take_drop, ← List.drop_take]
      rfl
    -- Taking the end of the text off leaves the cursor where it is.
    change Checked.shift focus.cursor (front.length + 1) = _ at shifted
    simp only
    rw [started, Checked.ok_bind, Checked.slice_ok ordered inside, Checked.ok_bind, shifted,
      Checked.ok_bind, between]
    rfl

/-! ## The whole loop -/

theorem Fits.narrow (fits : focus.Fits) : focus.narrow.Fits := by
  induction focus using narrow.induct with
  | case1 focus done =>
    rw [narrow_of_cut?_eq_none done]
    exact fits
  | case2 focus cut due ih =>
    rw [narrow_of_cut?_eq_some due]
    exact ih (fits.apply due)

/-- With more rounds than line feeds the loop ends, and it ends on the line that is isolated. -/
theorem Fits.isolate_ok {rounds : Nat} (fits : focus.Fits)
    (enough : focus.text.count '\n' < rounds) :
    Checked.isolate rounds focus.text focus.cursor = .ok focus.narrow.text := by
  -- On the rounds; every round hands `Fits` and one line feed less to the next one.
  induction rounds generalizing focus with
  | zero => exact absurd enough (Nat.not_lt_zero _)
  | succ rounds ih =>
    cases due : focus.cut? with
    | none =>
      rw [Checked.isolate, fits.cut?_ok, Checked.ok_bind, due, narrow_of_cut?_eq_none due]
      rfl
    | some cut =>
      have fewer := count_apply_lt due
      rw [fits.isolate_succ due, narrow_of_cut?_eq_some due]
      exact ih (fits.apply due) (by omega)

end Focus

namespace Checked

/-! ## The excerpt -/

theorem bounds_eq (window : Window) (cursor : Nat) {length : Nat} (fits : length ≤ maxOffset) :
    bounds window cursor length = window.span cursor length := by
  simp only [bounds, Window.span, Window.overruns, decide_eq_true_eq]
  split
  · next past => rw [Nat.min_eq_right (by omega : length ≤ cursor + window.after)]
  · next within =>
    have stop : min (cursor + window.after) maxOffset = min (cursor + window.after) length := by
      omega
    rw [stop]

/-- A source shorter than the bound of the signed offsets is quoted without a fault. -/
theorem ofSource_ok {source : Text} (short : source.length < signedBound) (cursor : Nat)
    (window : Window) : ofSource source cursor window = .ok (.ofSource source cursor window) := by
  have := signedBound_le_maxOffset
  have clamped : (if source.length < cursor then source.length else cursor) =
      min cursor source.length := by
    split <;> omega
  have inside : min cursor source.length ≤ source.length := Nat.min_le_right ..
  unfold ofSource Excerpt.ofSource Excerpt.focus
  simp only [clamped]
  generalize min cursor source.length = cursor at inside ⊢
  have before := window.span_start_le cursor source.length
  have behind := window.le_span_stop inside
  have within := window.span_stop_le cursor source.length
  have quoted := Span.length_slice within
  rw [bounds_eq window cursor (by omega)]
  generalize window.span cursor source.length = span at before behind within quoted ⊢
  have fits : (Focus.ofWindow (span.slice source) (cursor - span.start)).Fits :=
    Focus.fits_ofWindow (by omega) (by omega)
  have isolated : isolate ((span.slice source).count '\n' + 1) (span.slice source)
      (cursor - span.start : Nat) =
      .ok (Focus.ofWindow (span.slice source) (cursor - span.start)).narrow.text :=
    fits.isolate_ok (Nat.lt_succ_self _)
  have shorter : (Focus.ofWindow (span.slice source) (cursor - span.start)).narrow.text.length ≤
      maxOffset := by
    have := fits.narrow.short
    omega
  rw [slice_length_ok inside, ok_bind, leadingToken_ok, ok_bind,
    slice_ok (Nat.le_trans before behind) within, ok_bind, sub_ok before, ok_bind,
    signed_ok (by omega) (by omega), ok_bind, isolated, ok_bind, trim_ok shorter, ok_bind,
    offsetOf?_ok, ok_bind]
  rfl

end Checked

end Pinpoint

import Mathlib.Data.List.Forall2
import Pinpoint.Proofs.Json.Contents

/-! # What can be kept can be skipped

A value that is skipped is read with less care than one that is kept: lone surrogates are let
through and each half of a pair stands for itself. So where a value can be kept it can be skipped,
and the text behind it is the same, although the strings in it may not be.
-/

namespace Pinpoint.Json

/-! ## Strings -/

theorem readEscape_skip_surrogate {text : Text} {unit : Nat} (read : codeUnit text = .ok unit)
    (surrogate : (isLeading unit || isTrailing unit) = true) :
    readEscape .skip ('u' :: text) = .ok (replacement, 5) := by
  simp only [readEscape, read, bind, Except.bind, surrogate, ↓reduceIte, pure, Except.pure]

theorem trailingUnit_cases {text : Text} {unit : Nat} (success : trailingUnit text = .ok unit) :
    ∃ tail, text = '\\' :: 'u' :: tail ∧ codeUnit tail = .ok unit ∧ isTrailing unit = true := by
  unfold trailingUnit at success
  split at success
  · cases success
  · cases success
  · next tail =>
    obtain ⟨found, read, success⟩ := bind_eq_ok_iff.mp success
    split at success
    · next trailing => cases success; exact ⟨tail, rfl, read, trailing⟩
    · cases success
  · cases success

/-- An escape that is kept is skipped at once, or in two steps where it is a pair of surrogates. -/
theorem readEscape_skip {text : Text} {escaped : Char} {length : Nat}
    (success : readEscape .keep text = .ok (escaped, length)) :
    (∃ passed, readEscape .skip text = .ok (passed, length)) ∨
    ∃ first second tail, readEscape .skip text = .ok (first, 5) ∧ text.drop 5 = '\\' :: tail ∧
      readEscape .skip tail = .ok (second, 5) ∧ tail.drop 5 = text.drop length := by
  unfold readEscape at success
  split at success
  · cases success
  · next text =>
    obtain ⟨unit, read, success⟩ := bind_eq_ok_iff.mp success
    dsimp only at success
    split at success
    · next surrogate =>
      split at success
      · cases success
      · obtain ⟨trailing, followed, success⟩ := bind_eq_ok_iff.mp success
        obtain ⟨-, rfl⟩ := Prod.mk.inj (Except.ok.inj success)
        obtain ⟨tail, parts, readNext, isTrailing⟩ := trailingUnit_cases followed
        refine .inr ⟨replacement, replacement, 'u' :: tail,
          readEscape_skip_surrogate read surrogate, parts,
          readEscape_skip_surrogate readNext (by rw [isTrailing, Bool.or_true]), ?_⟩
        have behind := congrArg (List.drop 6) parts
        rw [List.drop_drop] at behind
        exact behind.symm
    · next plain =>
      cases success
      refine .inl ⟨Char.ofNat unit, ?_⟩
      simp only [readEscape, read, bind, Except.bind, if_neg plain, pure, Except.pure]
  · next c tail other =>
    split at success
    · next stands =>
      cases success
      exact .inl ⟨escaped, readEscape_of_unescape? stands tail⟩
    · cases success

/-- A string that can be kept can be skipped. -/
theorem readString_skip {text body rest : Text}
    (success : readString .keep text = .ok (body, rest)) :
    ∃ passed, readString .skip text = .ok (passed, rest) := by
  fun_induction readString Purpose.keep text generalizing body with
  | case1 => cases success
  | case2 text =>
    cases success
    exact ⟨[], by rw [readString, if_pos rfl]⟩
  | case3 => cases success
  | case4 text escaped length escape _ ih =>
    obtain ⟨⟨tail, _⟩, read, same⟩ := map_eq_ok_iff.mp success
    cases same
    obtain ⟨passed, skipped⟩ := ih read
    rcases readEscape_skip escape with ⟨c, atOnce⟩ | ⟨first, second, tail, once, parts, twice, same⟩
    · refine ⟨c :: passed, ?_⟩
      rw [readString_backslash atOnce, skipped]
      rfl
    · refine ⟨first :: second :: passed, ?_⟩
      rw [readString_backslash once, parts, readString_backslash twice, same, skipped]
      rfl
  | case5 => cases success
  | case6 c text quote backslash control ih =>
    obtain ⟨⟨tail, _⟩, read, same⟩ := map_eq_ok_iff.mp success
    cases same
    obtain ⟨passed, skipped⟩ := ih read
    refine ⟨c :: passed, ?_⟩
    rw [readString, if_neg quote, if_neg backslash, if_neg control, skipped]
    rfl

/-! ## Values -/

/-- Apart from strings, what can be kept is skipped for what it is: the care differs only where a
numeral breaks off. -/
theorem readScalar_skip_of_ne {c : Char} {text rest : Text} {value : Json} (other : c ≠ '"')
    (success : readScalar .keep (c :: text) = .ok (value, rest)) :
    readScalar .skip (c :: text) = .ok (value, rest) := by
  rw [← success]
  simp only [readScalar, if_neg other] at success ⊢
  split
  · rfl
  split
  · rfl
  split
  · rfl
  split
  · next first second third starts =>
    simp only [if_neg first, if_neg second, if_neg third, if_pos starts] at success
    cases read : readNumeral (c :: text) with
    | ok => rfl
    | error problem =>
      rw [read] at success
      cases success
  · rfl

theorem readScalar_skip {text rest : Text} {value : Json}
    (success : readScalar .keep text = .ok (value, rest)) :
    ∃ passed, readScalar .skip text = .ok (passed, rest) := by
  cases text with
  | nil => cases success
  | cons c text =>
    by_cases quote : c = '"'
    · subst quote
      obtain ⟨⟨body, _⟩, read, same⟩ := map_eq_ok_iff.mp success
      cases same
      obtain ⟨passed, skipped⟩ := readString_skip read
      exact ⟨.string passed, map_eq_ok_iff.mpr ⟨_, skipped, rfl⟩⟩
    · exact ⟨value, readScalar_skip_of_ne quote success⟩

theorem readKey_skip {text key rest : Text} (success : readKey .keep text = .ok (key, rest)) :
    ∃ passed, readKey .skip text = .ok (passed, rest) := by
  obtain ⟨⟨name, named⟩, read, success⟩ := bind_eq_ok_iff.mp success
  obtain ⟨_, colon, success⟩ := bind_eq_ok_iff.mp success
  cases success
  unfold readName at read
  split at read
  · cases read
  · split at read
    · next quote =>
      obtain ⟨passed, skipped⟩ := readString_skip read
      refine ⟨passed, ?_⟩
      rw [readKey, readName, if_pos quote, skipped]
      exact bind_eq_ok_iff.mpr ⟨_, rfl, bind_eq_ok_iff.mpr ⟨_, colon, rfl⟩⟩
    · cases read

/-- The same kind of value is open. -/
inductive Frame.Alike : Frame → Frame → Prop where
  | array (items others : List Json) : Alike (.array items) (.array others)
  | object (members others : List (Text × Json)) (key other : Text) :
    Alike (.object members key) (.object others other)

/-- The reading of two values has come equally far. -/
inductive Progress.Alike : Progress → Progress → Prop where
  | complete (value other : Json) : Alike (.complete value) (.complete other)
  | within {frame other : Frame} (alike : frame.Alike other) :
    Alike (.within frame) (.within other)

theorem readFront_skip {text rest : Text} {progress : Progress}
    (success : readFront .keep text = .ok (progress, rest)) :
    ∃ passed, readFront .skip text = .ok (passed, rest) ∧ progress.Alike passed := by
  unfold readFront at success ⊢
  split at success
  · cases success
  · next c tail spaced =>
    dsimp only
    split at success
    · next bracket =>
      refine ⟨progress, by rw [if_pos bracket]; exact success, ?_⟩
      split at success
      · cases success
        exact .complete ..
      · cases success
        exact .within (.array ..)
    · next bracket =>
      rw [if_neg bracket]
      split at success
      · next brace =>
        rw [if_pos brace]
        split at success
        · cases success
          exact ⟨_, rfl, .complete ..⟩
        · obtain ⟨⟨key, _⟩, read, same⟩ := map_eq_ok_iff.mp success
          cases same
          obtain ⟨passed, skipped⟩ := readKey_skip read
          exact ⟨_, map_eq_ok_iff.mpr ⟨_, skipped, rfl⟩, .within (.object ..)⟩
      · next brace =>
        rw [if_neg brace]
        obtain ⟨⟨value, _⟩, read, same⟩ := map_eq_ok_iff.mp success
        cases same
        obtain ⟨passed, skipped⟩ := readScalar_skip read
        exact ⟨_, map_eq_ok_iff.mpr ⟨_, skipped, rfl⟩, .complete ..⟩

theorem readNext_skip {frame other : Frame} {value : Json} (passedValue : Json) {text rest : Text}
    {progress : Progress} (alike : frame.Alike other)
    (success : frame.readNext .keep value text = .ok (progress, rest)) :
    ∃ passed, other.readNext .skip passedValue text = .ok (passed, rest) ∧
      progress.Alike passed := by
  cases alike with
  | array items others =>
    rcases readNext_array_eq_ok_iff.mp success with ⟨comma, rfl⟩ | ⟨ended, rfl⟩
    · exact ⟨_, readNext_array_eq_ok_iff.mpr (.inl ⟨comma, rfl⟩), .within (.array ..)⟩
    · exact ⟨_, readNext_array_eq_ok_iff.mpr (.inr ⟨ended, rfl⟩), .complete ..⟩
  | object members others key otherKey =>
    rcases readNext_object_eq_ok_iff.mp success with ⟨next, name, comma, read, rfl⟩ | ⟨ended, rfl⟩
    · obtain ⟨passed, skipped⟩ := readKey_skip read
      exact ⟨_, readNext_object_eq_ok_iff.mpr (.inl ⟨next, passed, comma, skipped, rfl⟩),
        .within (.object ..)⟩
    · exact ⟨_, readNext_object_eq_ok_iff.mpr (.inr ⟨ended, rfl⟩), .complete ..⟩

theorem readRest_skip {frames others : List Frame} {progress passed : Progress} {text rest : Text}
    {value : Json} (framesAlike : List.Forall₂ Frame.Alike frames others)
    (alike : progress.Alike passed)
    (success : readRest .keep frames progress text = .ok (value, rest)) :
    ∃ other, readRest .skip others passed text = .ok (other, rest) := by
  fun_induction readRest Purpose.keep frames progress text generalizing others passed with
  | case1 found text =>
    cases success
    cases framesAlike
    cases alike with
    | complete _ other => exact ⟨other, by rw [readRest]⟩
  | case2 => cases success
  | case3 frame frames found text progress behind read ih =>
    cases framesAlike with
    | cons frameAlike framesAlike =>
      cases alike with
      | complete _ other =>
        obtain ⟨next, skipped, nextAlike⟩ := readNext_skip other frameAlike read
        obtain ⟨result, finished⟩ := ih framesAlike nextAlike success
        refine ⟨result, ?_⟩
        rw [readRest_complete, skipped]
        exact finished
  | case4 => cases success
  | case5 frame frames text progress behind read ih =>
    cases alike with
    | within frameAlike =>
      obtain ⟨next, skipped, nextAlike⟩ := readFront_skip read
      obtain ⟨result, finished⟩ := ih (.cons frameAlike framesAlike) nextAlike success
      refine ⟨result, ?_⟩
      rw [readRest_within, readOn, skipped]
      exact finished

/-- A value that can be kept can be skipped. -/
theorem readValue_skip {text rest : Text} {value : Json}
    (success : readValue .keep text = .ok (value, rest)) :
    ∃ passed, readValue .skip text = .ok (passed, rest) := by
  obtain ⟨⟨progress, opened⟩, front, success⟩ := bind_eq_ok_iff.mp success
  obtain ⟨passed, skipped, alike⟩ := readFront_skip front
  obtain ⟨result, finished⟩ := readRest_skip .nil alike success
  refine ⟨result, ?_⟩
  rw [readValue, skipped]
  exact finished

end Pinpoint.Json

import Pinpoint.Checked.Excerpt
import Pinpoint.Proofs.Excerpt.Caret

/-! # Checked searches and trimming

A checked operation whose condition holds has a result, and it is the plain one. Searching and
trimming take only slices that end where a search has found something, so on a text whose length is
an offset they do not fault.
-/

namespace Pinpoint.Checked

/-! ## Operations -/

@[simp]
theorem ok_bind {α β : Type} (value : α) (next : α → Checked β) :
    (Except.ok value >>= next : Checked β) = next value := rfl

theorem add_ok {a b : Nat} (fits : a + b ≤ maxOffset) : add a b = .ok (a + b) := if_pos fits

theorem sub_ok {a b : Nat} (ordered : b ≤ a) : sub a b = .ok (a - b) := if_pos ordered

theorem signed_ok {number : Int} (low : -signedBound ≤ number) (high : number < signedBound) :
    signed number = .ok number := if_pos ⟨low, high⟩

theorem slice_ok {text : Text} {start stop : Nat} (ordered : start ≤ stop)
    (inside : stop ≤ text.length) :
    slice text start stop = .ok ((Span.mk start stop).slice text) := if_pos ⟨ordered, inside⟩

theorem slice_zero_ok {text : Text} {stop : Nat} (inside : stop ≤ text.length) :
    slice text 0 stop = .ok (text.take stop) := by
  rw [slice_ok (Nat.zero_le stop) inside, Span.slice, List.extract_eq_take_drop, List.drop_zero,
    Nat.sub_zero]

theorem slice_length_ok {text : Text} {start : Nat} (inside : start ≤ text.length) :
    slice text start text.length = .ok (text.drop start) := by
  rw [slice_ok inside (Nat.le_refl _), Span.slice, List.extract_eq_take_drop, List.take_of_length_le]
  exact Nat.le_of_eq List.length_drop

/-! ## Searches -/

variable {wanted : Char → Bool} {front back : Text} {c : Char}

theorem findIdx?_append_cons (found : wanted c = true) (before : ∀ d ∈ front, wanted d = false) :
    (front ++ c :: back).findIdx? wanted = some front.length := by
  have none : front.findIdx? wanted = none := List.findIdx?_eq_none_iff.mpr before
  rw [List.findIdx?_append, none, List.findIdx?_cons, found, Option.none_or]
  simp only [↓reduceIte, Option.map_some, Nat.zero_add]

theorem lastIdx?_append_cons (found : wanted c = true) (behind : ∀ d ∈ back, wanted d = false) :
    lastIdx? wanted (front ++ c :: back) = some front.length := by
  have reversed : (front ++ c :: back).reverse = back.reverse ++ c :: front.reverse := by
    rw [List.reverse_append, List.reverse_cons, List.append_assoc, List.singleton_append]
  have first : (back.reverse ++ c :: front.reverse).findIdx? wanted = some back.reverse.length :=
    findIdx?_append_cons found fun d member => behind d (List.mem_reverse.mp member)
  rw [lastIdx?, reversed, first, Option.map_some, List.length_append, List.length_cons,
    List.length_reverse]
  congr 1
  omega

theorem offsetOf?_ok (text part : Text) : offsetOf? text part = .ok (text.offsetOf? part) := by
  unfold offsetOf?
  split
  · next empty => rw [empty, Text.offsetOf?_nil]; rfl
  next nonempty =>
  split
  · next long =>
    have missed : text.offsetOf? part = none := by
      rw [Option.eq_none_iff_forall_ne_some]
      intro offset found
      have fits := (Text.offsetOf?_eq_some_iff.mp found).1.length_le
      rw [List.length_drop] at fits
      omega
    rw [missed]
    rfl
  next short =>
  have size : part.length ≠ 0 := fun empty => nonempty (List.length_eq_zero_iff.mp empty)
  have all : parts text part.length =
      .ok ((List.range (text.length + 1 - part.length)).map fun offset =>
        (text.drop offset).take part.length) := if_neg size
  rw [all, ok_bind]
  refine congrArg Except.ok (Option.ext fun offset => ?_)
  have occurs (offset : Nat) :
      (text.drop offset).take part.length = part ↔ part <+: text.drop offset := by
    rw [List.prefix_iff_eq_take, eq_comm]
  simp only [List.findIdx?_eq_some_iff_getElem, Text.offsetOf?_eq_some_iff, List.length_map,
    List.length_range, List.getElem_map, List.getElem_range, decide_eq_true_eq, occurs]
  constructor
  · rintro ⟨_, found, least⟩
    exact ⟨found, least⟩
  · rintro ⟨found, least⟩
    have fits := found.length_le
    rw [List.length_drop] at fits
    exact ⟨by omega, found, least⟩

/-! ## Trimming -/

theorem trimLeft_ok (text : Text) : trimLeft text = .ok text.trimLeft := by
  rw [trimLeft, ← List.findIdx_eq_getD_findIdx?, slice_length_ok List.findIdx_le_length,
    Text.trimLeft, List.dropWhile_eq_drop_findIdx_not]

theorem trim_ok {text : Text} (fits : text.length ≤ maxOffset) : trim text = .ok text.trim := by
  have shorter : text.trimLeft.length ≤ maxOffset :=
    Nat.le_trans (List.dropWhile_suffix _).length_le fits
  rw [trim, trimLeft_ok, ok_bind, Text.trim]
  generalize text.trimLeft = rest at shorter ⊢
  have right : rest.trimRight =
      rest.take (rest.length - rest.reverse.findIdx (!Text.isBlank ·)) := by
    rw [Text.trimRight, List.dropWhile_eq_drop_findIdx_not, List.reverse_drop, List.reverse_reverse,
      List.length_reverse]
  rw [right, List.findIdx_eq_getD_findIdx?, lastIdx?]
  cases search : rest.reverse.findIdx? (!Text.isBlank ·) with
  | none =>
    rw [Option.map_none, Option.getD_none, List.length_reverse, Nat.sub_self]
    exact slice_zero_ok (Nat.zero_le _)
  | some behind =>
    obtain ⟨inside, -⟩ := List.findIdx?_eq_some_iff_getElem.mp search
    rw [List.length_reverse] at inside
    have stop : rest.length - 1 - behind + 1 = rest.length - behind := by omega
    rw [Option.map_some, Option.getD_some]
    simp only
    rw [add_ok (by omega), ok_bind, stop]
    exact slice_zero_ok (Nat.sub_le ..)

/-! ## Tokens -/

theorem leadingToken_ok (rest : Text) (limit : Nat) :
    leadingToken rest limit = .ok (Excerpt.leadingToken rest limit) := by
  have same : (fun c => decide (c ≠ '\n') && !Text.isBlank c) = fun c => !Text.isBlank c := by
    funext c
    by_cases feed : c = '\n'
    · subst feed
      rw [Text.isBlank_lineFeed]
      rfl
    · simp only [ne_eq, feed, not_false_eq_true, decide_true, Bool.true_and]
  have within := Excerpt.leadingToken_isPrefix rest limit
  have count : ((rest.take limit).takeWhile fun c => c ≠ '\n' && !Text.isBlank c).length =
      (Excerpt.leadingToken rest limit).length := by
    rw [same]
    rfl
  rw [leadingToken, count, slice_zero_ok within.length_le, ← List.prefix_iff_eq_take.mp within]

end Pinpoint.Checked

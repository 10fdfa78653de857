import Pinpoint.Proofs.Text.Lines

/-! # Carriage returns before line feeds

Putting a carriage return before every line feed keeps the lines of a text, with a carriage return
at the end of all but the last. Offsets move and keep their order, and what stands before and behind
an offset stands before and behind the moved one.
-/

namespace Pinpoint.Text

theorem returned_append (front rest : Text) :
    (front ++ rest).returned = front.returned ++ rest.returned :=
  List.flatMap_append

theorem returned_lineFeed : returned ['\n'] = ['\r', '\n'] := rfl

theorem returned_cons_lineFeed (text : Text) :
    returned ('\n' :: text) = '\r' :: '\n' :: text.returned := rfl

theorem returned_cons {c : Char} (other : c ≠ '\n') (text : Text) :
    returned (c :: text) = c :: text.returned := by
  rw [returned, List.flatMap_cons, if_neg other]
  rfl

theorem returned_of_plain {text : Text} (plain : '\n' ∉ text) : text.returned = text := by
  induction text with
  | nil => rfl
  | cons c text ih =>
    obtain ⟨other, rest⟩ := not_or.mp (mt List.mem_cons.mpr plain)
    rw [returned_cons (Ne.symm other), ih rest]

theorem length_returned (text : Text) : text.returned.length = text.length + text.count '\n' := by
  induction text with
  | nil => rfl
  | cons c text ih =>
    by_cases feed : c = '\n'
    · subst feed
      rw [returned_cons_lineFeed, List.count_cons_self]
      simp only [List.length_cons, ih]
      omega
    · rw [returned_cons feed, List.count_cons_of_ne feed]
      simp only [List.length_cons, ih]
      omega

theorem count_returned (text : Text) : text.returned.count '\n' = text.count '\n' := by
  induction text with
  | nil => rfl
  | cons c text ih =>
    by_cases feed : c = '\n'
    · subst feed
      rw [returned_cons_lineFeed, List.count_cons_of_ne (by decide), List.count_cons_self,
        List.count_cons_self, ih]
    · rw [returned_cons feed, List.count_cons_of_ne feed, List.count_cons_of_ne feed, ih]

theorem returned_eq_nil_iff {text : Text} : text.returned = [] ↔ text = [] := by
  constructor
  · intro empty
    have length := length_returned text
    rw [empty, List.length_nil] at length
    exact List.length_eq_zero_iff.mp (by omega)
  · rintro rfl
    rfl

/-! ## Offsets -/

/-- The text before the moved offset is that before the offset, with its carriage returns. -/
theorem returnedOffset_length (front rest : Text) :
    (front ++ rest).returnedOffset front.length = front.returned.length := by
  rw [returnedOffset, List.take_left, length_returned]

theorem returnedOffset_mono (text : Text) {offset other : Nat} (ordered : offset ≤ other) :
    text.returnedOffset offset ≤ text.returnedOffset other := by
  have fewer : (text.take offset).count '\n' ≤ (text.take other).count '\n' :=
    (List.take_prefix_take_left ordered).sublist.count_le '\n'
  exact Nat.add_le_add ordered fewer

theorem returnedOffset_le (text : Text) {offset : Nat} (inside : offset ≤ text.length) :
    text.returnedOffset offset ≤ text.returned.length := by
  have last := returnedOffset_length text []
  rw [List.append_nil] at last
  rw [← last]
  exact text.returnedOffset_mono inside

/-- An offset divides a text, and the moved one divides it with its carriage returns. -/
theorem exists_returned_parts (text : Text) {offset : Nat} (inside : offset ≤ text.length) :
    text.returned.take (text.returnedOffset offset) = returned (text.take offset) ∧
      text.returned.drop (text.returnedOffset offset) = returned (text.drop offset) := by
  have reach : (returned (text.take offset)).length = text.returnedOffset offset := by
    rw [length_returned, List.length_take_of_le inside, returnedOffset]
  have parts := returned_append (text.take offset) (text.drop offset)
  rw [List.take_append_drop] at parts
  rw [parts]
  exact ⟨List.take_left' reach, List.drop_left' reach⟩

/-! ## Lines -/

/-- A carriage return at the end of a line is the end of its last word and nothing else. -/
def Returns (tail : Text) : Prop := tail = [] ∨ tail = ['\r']

/-- The lines are the same up to a carriage return at their ends. -/
theorem IsLine.exists_returned {left line right : Text} (isLine : IsLine left line right) :
    ∃ tail behind, Returns tail ∧
      returned (left ++ line ++ right) = left.returned ++ (line ++ tail) ++ behind ∧
      IsLine left.returned (line ++ tail) behind ∧
      behind.count '\n' = right.count '\n' := by
  have whole : returned (left ++ line ++ right) = left.returned ++ line ++ right.returned := by
    rw [returned_append, returned_append, returned_of_plain isLine.plain]
  have opens : OpensLine left.returned := by
    rcases isLine.opens with rfl | ⟨front, rfl⟩
    · exact .inl rfl
    · refine .inr ⟨front.returned ++ ['\r'], ?_⟩
      rw [returned_append, returned_lineFeed, List.append_assoc]
      rfl
  rcases isLine.closes with rfl | ⟨rest, rfl⟩
  · refine ⟨[], [], .inl rfl, ?_, ⟨opens, ?_, .inl rfl⟩, rfl⟩
    · rw [whole, List.append_nil line]
      rfl
    · rw [List.append_nil]
      exact isLine.plain
  · refine ⟨['\r'], '\n' :: returned rest, .inr rfl, ?_, ⟨opens, ?_, .inr ⟨_, rfl⟩⟩, ?_⟩
    · rw [whole, returned_cons_lineFeed]
      simp only [List.append_assoc, List.singleton_append]
    · intro member
      rcases List.mem_append.mp member with inside | last
      · exact isLine.plain inside
      · exact absurd (List.mem_singleton.mp last) (by decide)
    · rw [List.count_cons_self, List.count_cons_self, count_returned]

/-! ## Trimming -/

theorem trimRight_concat {c : Char} (blank : isBlank c = true) (text : Text) :
    trimRight (text ++ [c]) = trimRight text := by
  rw [trimRight, List.reverse_concat, List.dropWhile_cons_of_pos blank, trimRight]

/-- A blank character at the end of a text is trimmed. -/
theorem trim_concat {c : Char} (blank : isBlank c = true) (text : Text) :
    trim (text ++ [c]) = trim text := by
  rw [trim, trim, trimLeft, List.dropWhile_append]
  split
  · next none =>
    rw [trimLeft, List.isEmpty_iff.mp none, List.dropWhile_cons_of_pos blank, List.dropWhile_nil]
  · exact trimRight_concat blank _

theorem trim_append_of_returns (text : Text) {tail : Text} (returns : Returns tail) :
    trim (text ++ tail) = trim text := by
  rcases returns with rfl | rfl
  · rw [List.append_nil]
  · exact trim_concat isBlank_carriageReturn text

end Pinpoint.Text

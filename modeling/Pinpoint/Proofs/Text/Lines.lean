import Pinpoint.Excerpt

/-! # Lines and the line feeds around them

A part of a text is a line of it when no line feed is inside and one stands on each side that is
not an end of the text. The number of line feeds before such a part says which line it is, and
comparing that number with the number of line feeds before an offset says on which side of the part
the offset lies. A part of a window is in the same way the piece of a source line that the window
shows.
-/

namespace Pinpoint.Text

/-- A line starts behind this text. -/
def OpensLine (left : Text) : Prop := left = [] ∨ ∃ front, left = front ++ ['\n']

/-- A line ends before this text. -/
def ClosesLine (right : Text) : Prop := right = [] ∨ ∃ rest, right = '\n' :: rest

/-- The middle one of three texts is a line of the text that they form. -/
structure IsLine (left line right : Text) : Prop where
  opens : OpensLine left
  plain : '\n' ∉ line
  closes : ClosesLine right

/-- Every text is divided behind its last line feed. -/
theorem exists_opensLine (text : Text) :
    ∃ left rest, text = left ++ rest ∧ OpensLine left ∧ '\n' ∉ rest := by
  induction text with
  | nil => exact ⟨[], [], rfl, .inl rfl, List.not_mem_nil⟩
  | cons c text ih =>
    obtain ⟨left, rest, rfl, opens, plain⟩ := ih
    rcases opens with rfl | ⟨front, rfl⟩
    · by_cases feed : c = '\n'
      · exact ⟨['\n'], rest, by simp [feed], .inr ⟨[], rfl⟩, plain⟩
      · exact ⟨[], c :: rest, rfl, .inl rfl, by simp [plain, Ne.symm feed]⟩
    · exact ⟨c :: (front ++ ['\n']), rest, rfl, .inr ⟨c :: front, rfl⟩, plain⟩

/-- Every text is divided before its first line feed. -/
theorem exists_closesLine (text : Text) :
    ∃ rest right, text = rest ++ right ∧ '\n' ∉ rest ∧ ClosesLine right := by
  by_cases feed : '\n' ∈ text
  · obtain ⟨rest, behind, rfl, plain⟩ := List.eq_append_cons_of_mem feed
    exact ⟨rest, '\n' :: behind, rfl, plain, .inr ⟨behind, rfl⟩⟩
  · exact ⟨text, [], (List.append_nil text).symm, feed, .inl rfl⟩

/-- Every offset of a text lies in one of its lines. -/
theorem exists_isLine_at (text : Text) (offset : Nat) (inside : offset ≤ text.length) :
    ∃ left line right, text = left ++ line ++ right ∧ IsLine left line right ∧
      left.length ≤ offset ∧ offset ≤ left.length + line.length := by
  obtain ⟨left, front, before, opens, frontPlain⟩ := exists_opensLine (text.take offset)
  obtain ⟨back, right, behind, backPlain, closes⟩ := exists_closesLine (text.drop offset)
  have reached : left.length + front.length = offset := by
    have := congrArg List.length before
    simp only [List.length_take, List.length_append] at this
    omega
  refine ⟨left, front ++ back, right, ?_, ⟨opens, ?_, closes⟩, by omega, ?_⟩
  · rw [← List.take_append_drop offset text, before, behind]
    simp only [List.append_assoc]
  · simp only [List.mem_append, frontPlain, backPlain, or_self, not_false_eq_true]
  · simp only [List.length_append]
    omega

theorem count_eq_zero_of_plain {text : Text} (plain : '\n' ∉ text) : text.count '\n' = 0 :=
  List.count_eq_zero.mpr plain

namespace IsLine

variable {left line right : Text}

/-- Before the line there are fewer line feeds. -/
theorem count_take_lt (isLine : IsLine left line right) {offset : Nat}
    (before : offset < left.length) :
    ((left ++ line ++ right).take offset).count '\n' < left.count '\n' := by
  rcases isLine.opens with rfl | ⟨front, rfl⟩
  · exact absurd before (Nat.not_lt_zero _)
  · have room : offset ≤ front.length := by
      simp only [List.length_append, List.length_singleton] at before
      omega
    have kept : (front ++ ['\n'] ++ line ++ right).take offset = front.take offset := by
      simp only [List.append_assoc, List.take_append_of_le_length room]
    have fewer := (List.take_sublist offset front).count_le '\n'
    rw [kept, List.count_append, List.count_singleton_self]
    omega

/-- Up to any offset of the line there are as many line feeds as before the line. -/
theorem count_take_eq (isLine : IsLine left line right) {offset : Nat}
    (behind : left.length ≤ offset) (before : offset ≤ left.length + line.length) :
    ((left ++ line ++ right).take offset).count '\n' = left.count '\n' := by
  have kept : (left ++ line ++ right).take offset = left ++ line.take (offset - left.length) := by
    rw [List.take_append_of_le_length (by rw [List.length_append]; exact before),
      List.take_append, List.take_of_length_le behind]
  rw [kept, List.count_append,
    count_eq_zero_of_plain fun member => isLine.plain (List.mem_of_mem_take member), Nat.add_zero]

/-- Behind the line there are more line feeds. -/
theorem lt_count_take (isLine : IsLine left line right) {offset : Nat}
    (behind : left.length + line.length < offset)
    (inside : offset ≤ (left ++ line ++ right).length) :
    left.count '\n' < ((left ++ line ++ right).take offset).count '\n' := by
  rcases isLine.closes with rfl | ⟨rest, rfl⟩
  · simp only [List.append_nil, List.length_append] at inside
    omega
  · have more : ∃ n, offset = (left ++ line).length + (n + 1) :=
      ⟨offset - (left.length + line.length) - 1, by rw [List.length_append]; omega⟩
    obtain ⟨n, rfl⟩ := more
    rw [List.take_length_add_append, List.take_succ_cons]
    simp only [List.count_append, List.count_cons_self]
    omega

/-- Of two lines of one text, the one with fewer line feeds before it ends before the other one
starts. -/
theorem end_lt_start {otherLeft other otherRight : Text} (isLine : IsLine left line right)
    (otherIsLine : IsLine otherLeft other otherRight)
    (same : left ++ line ++ right = otherLeft ++ other ++ otherRight)
    (fewer : left.count '\n' < otherLeft.count '\n') :
    left.length + line.length < otherLeft.length := by
  have start : ((left ++ line ++ right).take otherLeft.length).count '\n' =
      otherLeft.count '\n' := by
    rw [same]
    exact otherIsLine.count_take_eq (Nat.le_refl _) (Nat.le_add_right ..)
  apply Nat.lt_of_not_le
  intro reached
  rcases Nat.lt_or_ge otherLeft.length left.length with before | behind
  · have := isLine.count_take_lt before
    omega
  · have := isLine.count_take_eq behind reached
    omega

end IsLine

/-! ## The offsets of line feeds -/

theorem lineFeeds_append (front rest : Text) :
    (front ++ rest).lineFeeds =
      front.lineFeeds ++ rest.lineFeeds.map (front.length + ·) := by
  simp only [lineFeeds, List.zipIdx_append, Nat.zero_add, List.filter_append, List.map_append]
  rw [List.zipIdx_eq_map_add (l := rest) (i := front.length), List.filter_map, List.map_map, List.map_map]
  rfl

theorem lineFeeds_eq_nil {text : Text} (plain : '\n' ∉ text) : text.lineFeeds = [] := by
  have none : text.zipIdx.filter (fun entry => decide (entry.1 = '\n')) = [] := by
    apply List.filter_eq_nil_iff.mpr
    rintro ⟨c, index⟩ member feed
    exact plain (of_decide_eq_true feed ▸ List.fst_mem_of_mem_zipIdx member)
  rw [lineFeeds, none, List.map_nil]

/-- A text without line feeds puts the first one at its end. -/
theorem lineFeeds_append_cons {front : Text} (plain : '\n' ∉ front) (rest : Text) :
    (front ++ '\n' :: rest).lineFeeds =
      front.length :: rest.lineFeeds.map (front.length + 1 + ·) := by
  have feed : lineFeeds ('\n' :: rest) = 0 :: rest.lineFeeds.map (1 + ·) :=
    lineFeeds_append ['\n'] rest
  rw [lineFeeds_append, lineFeeds_eq_nil plain, feed]
  simp only [List.nil_append, List.map_cons, List.map_map, Nat.add_zero, Function.comp_def,
    Nat.add_assoc]

theorem length_lineFeeds (text : Text) : text.lineFeeds.length = text.count '\n' := by
  induction text with
  | nil => rfl
  | cons c text ih =>
    have split := lineFeeds_append [c] text
    rw [List.singleton_append] at split
    rw [split, List.length_append, List.length_map, ih]
    by_cases feed : c = '\n'
    · subst feed
      rw [List.count_cons_self, Nat.add_comm]
      rfl
    · have plain : '\n' ∉ [c] := fun member => feed (List.mem_singleton.mp member).symm
      rw [lineFeeds_eq_nil plain, List.count_cons_of_ne feed, List.length_nil, Nat.zero_add]

/-- The number of line feeds before a line feed says which line feed it is. -/
theorem getElem?_lineFeeds (front rest : Text) :
    (front ++ '\n' :: rest).lineFeeds[front.count '\n']? = some front.length := by
  have feed := lineFeeds_append_cons (List.not_mem_nil : '\n' ∉ ([] : Text)) rest
  rw [List.nil_append] at feed
  rw [lineFeeds_append, ← length_lineFeeds, List.getElem?_append_right (Nat.le_refl _), Nat.sub_self,
    feed]
  rfl

/-! ## The offsets of a line -/

@[simp]
theorem length_lines (text : Text) : text.lines.length = text.count '\n' + 1 := by
  induction text with
  | nil => rfl
  | cons c text ih =>
    have shape := List.splitOn_cons_eq_if_modifyHead (a := '\n') c text
    unfold lines at ih ⊢
    by_cases feed : c = '\n'
    · subst feed
      simp only [shape, beq_self_eq_true, ↓reduceIte, List.length_cons, ih, List.count_cons_self]
    · simp only [shape, beq_iff_eq, feed, ↓reduceIte, List.length_modifyHead, ih,
        List.count_cons_of_ne feed]

/-- A line feed behind every line gives the text back, with a line feed behind it. -/
theorem flatMap_lines (text : Text) : text.lines.flatMap (· ++ ['\n']) = text ++ ['\n'] := by
  induction text with
  | nil => rfl
  | cons c text ih =>
    have shape := List.splitOn_cons_eq_if_modifyHead (a := '\n') c text
    unfold lines at ih ⊢
    by_cases feed : c = '\n'
    · subst feed
      simp only [shape, beq_self_eq_true, ↓reduceIte, List.flatMap_cons, ih, List.nil_append,
        List.cons_append]
    · obtain ⟨first, others, parts⟩ := List.exists_cons_of_ne_nil (List.splitOn_ne_nil '\n' text)
      simp only [parts, List.flatMap_cons] at ih
      simp only [shape, beq_iff_eq, feed, ↓reduceIte, parts, List.modifyHead_cons,
        List.flatMap_cons, List.cons_append, ih]

theorem lines_append_cons (front rest : Text) :
    (front ++ '\n' :: rest).lines = front.lines ++ rest.lines :=
  List.splitOn_append_cons_self front rest

/-- A text without line feeds is its only line. -/
theorem lines_of_plain {line : Text} (plain : '\n' ∉ line) : line.lines = [line] :=
  List.splitOn_eq_singleton plain

theorem lines_injective {first second : Text} (same : first.lines = second.lines) :
    first = second := by
  have joined := flatMap_lines first
  rw [same, flatMap_lines] at joined
  exact (List.append_cancel_right joined).symm

/-- A text is divided in one way into its last line and what stands before it. -/
theorem append_lineFeed_inj {front line otherFront otherLine : Text} (plain : '\n' ∉ line)
    (otherPlain : '\n' ∉ otherLine)
    (same : front ++ '\n' :: line = otherFront ++ '\n' :: otherLine) :
    front = otherFront ∧ line = otherLine := by
  have divided := congrArg lines same
  rw [lines_append_cons, lines_append_cons, lines_of_plain plain, lines_of_plain otherPlain]
    at divided
  obtain ⟨fronts, last⟩ := List.append_inj' divided rfl
  exact ⟨lines_injective fronts, List.head_eq_of_cons_eq last⟩

/-- The first line ends before the first line feed. -/
theorem head_lines {line right : Text} (plain : '\n' ∉ line) (closes : ClosesLine right) :
    (line ++ right).lines[0]? = some line := by
  rcases closes with rfl | ⟨rest, rfl⟩
  · rw [List.append_nil, lines_of_plain plain]
    rfl
  · rw [lines, List.splitOn_append_cons_self_of_not_mem plain]
    rfl

/-- Behind a line feed the lines start anew. -/
theorem lines_append_append (front line right : Text) :
    (front ++ ['\n'] ++ line ++ right).lines = front.lines ++ (line ++ right).lines := by
  rw [← lines_append_cons]
  simp only [List.append_assoc, List.cons_append, List.nil_append]

theorem count_append_lineFeed (front : Text) :
    (front ++ ['\n']).count '\n' = front.lines.length := by
  rw [length_lines, List.count_append, List.count_singleton_self]

/-- The number of line feeds before a line says which line it is. -/
theorem IsLine.getElem?_lines {left line right : Text} (isLine : IsLine left line right) :
    (left ++ line ++ right).lines[left.count '\n']? = some line := by
  have head := head_lines isLine.plain isLine.closes
  rcases isLine.opens with rfl | ⟨front, rfl⟩
  · exact head
  · rw [lines_append_append, count_append_lineFeed, List.getElem?_append_right (Nat.le_refl _), Nat.sub_self, head]

/-- The lines before a line, with their line feeds, are the text before it. -/
theorem IsLine.flatMap_take_lines {left line right : Text} (isLine : IsLine left line right) :
    ((left ++ line ++ right).lines.take (left.count '\n')).flatMap (· ++ ['\n']) = left := by
  rcases isLine.opens with rfl | ⟨front, rfl⟩
  · rfl
  · rw [lines_append_append, count_append_lineFeed, List.take_left' rfl, flatMap_lines]

theorem IsLine.lineSpan_eq {left line right : Text} (isLine : IsLine left line right) :
    (left ++ line ++ right).lineSpan (left.count '\n' + 1) =
      ⟨left.length, left.length + line.length⟩ := by
  simp only [lineSpan, Nat.add_sub_cancel, isLine.flatMap_take_lines, List.getD_eq_getElem?_getD,
    isLine.getElem?_lines, Option.getD_some]

/-- As many line feeds before a line make it the same line. -/
theorem IsLine.eq_of_count_eq {left line right otherLeft other otherRight : Text}
    (isLine : IsLine left line right) (otherIsLine : IsLine otherLeft other otherRight)
    (same : left ++ line ++ right = otherLeft ++ other ++ otherRight)
    (counts : left.count '\n' = otherLeft.count '\n') : left = otherLeft ∧ line = other := by
  have place := isLine.lineSpan_eq
  rw [same, counts, otherIsLine.lineSpan_eq] at place
  obtain ⟨starts, stops⟩ := Span.mk.inj place
  rw [List.append_assoc, List.append_assoc] at same
  obtain ⟨lefts, rests⟩ := List.append_inj same starts.symm
  exact ⟨lefts, (List.append_inj rests (by omega)).1⟩

/-! ## Lines of a text seen through a window -/

/-- Text in front of a window opens the window's first line further to the left. -/
private theorem OpensLine.extend {left : Text} (opens : OpensLine left) (before : Text) :
    ∃ outer gap, before ++ left = outer ++ gap ∧ OpensLine outer ∧ '\n' ∉ gap ∧
      max outer.length before.length = before.length + left.length := by
  rcases opens with rfl | ⟨front, rfl⟩
  · obtain ⟨outer, gap, rfl, opens, plain⟩ := exists_opensLine before
    refine ⟨outer, gap, List.append_nil _, opens, plain, ?_⟩
    simp only [List.length_append, List.length_nil]
    omega
  · refine ⟨before ++ (front ++ ['\n']), [], (List.append_nil _).symm,
      .inr ⟨before ++ front, (List.append_assoc ..).symm⟩, List.not_mem_nil, ?_⟩
    simp only [List.length_append]
    omega

/-- Text behind a window closes the window's last line further to the right. -/
private theorem ClosesLine.extend {right : Text} (closes : ClosesLine right) (behind : Text) :
    ∃ gap outer, right ++ behind = gap ++ outer ∧ '\n' ∉ gap ∧ ClosesLine outer ∧
      min gap.length right.length = 0 := by
  rcases closes with rfl | ⟨rest, rfl⟩
  · obtain ⟨gap, outer, rfl, plain, closes⟩ := exists_closesLine behind
    exact ⟨gap, outer, rfl, plain, closes, Nat.min_zero _⟩
  · exact ⟨[], '\n' :: (rest ++ behind), rfl, List.not_mem_nil, .inr ⟨_, rfl⟩, Nat.zero_min _⟩

/-- A line of a window is the part inside the window of a line of the whole text; the line feeds
before it in the whole text say of which one. -/
theorem IsLine.lineSpan_inside {left line right : Text} (isLine : IsLine left line right)
    (before behind : Text) :
    ((before ++ (left ++ line ++ right) ++ behind).lineSpan
        ((before ++ left).count '\n' + 1)).inside
      ⟨before.length, before.length + (left ++ line ++ right).length⟩ =
      ⟨before.length + left.length, before.length + left.length + line.length⟩ := by
  obtain ⟨front, leftGap, frontParts, opens, leftPlain, start⟩ := isLine.opens.extend before
  obtain ⟨rightGap, back, backParts, rightPlain, closes, stop⟩ := isLine.closes.extend behind
  have whole : before ++ (left ++ line ++ right) ++ behind =
      front ++ (leftGap ++ line ++ rightGap) ++ back := by
    calc before ++ (left ++ line ++ right) ++ behind
        = (before ++ left) ++ line ++ (right ++ behind) := by simp only [List.append_assoc]
      _ = front ++ (leftGap ++ line ++ rightGap) ++ back := by
        rw [frontParts, backParts]; simp only [List.append_assoc]
  have wholeLine : IsLine front (leftGap ++ line ++ rightGap) back :=
    ⟨opens, by simp only [List.mem_append, leftPlain, isLine.plain, rightPlain, or_self,
      not_false_eq_true], closes⟩
  have number : (before ++ left).count '\n' = front.count '\n' := by
    rw [frontParts, List.count_append, count_eq_zero_of_plain leftPlain, Nat.add_zero]
  have reach := congrArg List.length frontParts
  rw [whole, number, wholeLine.lineSpan_eq]
  simp only [Span.inside, Span.mk.injEq, List.length_append] at reach ⊢
  omega

end Pinpoint.Text

import Pinpoint.Proofs.Excerpt.QuotedLine
import Pinpoint.Proofs.Text

/-! # The caret under the token

The token is cut from the source and looked for in the quoted text. Where the quoted line is that of
the cursor and the token fits into the window, nothing of the token is lost: no line feed is in it,
so isolation keeps it, and no blank character is in it, so trimming keeps it. The caret then stands
at the first occurrence of the token, which is at or before the cursor.
-/

namespace Pinpoint

/-- A span of a text shows a line without the blank characters that surround it in the outer one. -/
structure Text.Trimmed (text line : Text) (inner outer : Span) : Prop where
  within : inner.Within outer
  slice_eq : inner.slice text = line.trim
  blank_before : ∀ c ∈ (Span.mk outer.start inner.start).slice text, Text.isBlank c = true
  blank_behind : ∀ c ∈ (Span.mk inner.stop outer.stop).slice text, Text.isBlank c = true

theorem Text.trimmed_append_append (front line behind : Text) :
    let start := front.length + (line.takeWhile isBlank).length
    Trimmed (front ++ line ++ behind) line ⟨start, start + line.trim.length⟩
      ⟨front.length, front.length + line.length⟩ := by
  obtain ⟨trailing, parts, blanks⟩ := line.exists_trim_parts
  have leading : ∀ c ∈ line.takeWhile isBlank, isBlank c = true :=
    fun _ member => isBlank_of_mem_takeWhile member
  have length := congrArg List.length parts
  have whole : front ++ line ++ behind = front ++ (line.takeWhile isBlank ++ line.trim ++ trailing) ++
      behind := by rw [← parts]
  rw [whole]
  generalize line.takeWhile isBlank = lead at leading length ⊢
  intro start
  have first := Span.slice_append_append front lead (line.trim ++ trailing ++ behind)
  have middle := Span.slice_append_append (front ++ lead) line.trim (trailing ++ behind)
  have last := Span.slice_append_append (front ++ lead ++ line.trim) trailing behind
  simp only [List.append_assoc, List.length_append, ← Nat.add_assoc] at first middle last length ⊢
  refine ⟨⟨Nat.le_add_right .., Nat.le_add_right .., ?_⟩, middle, ?_, ?_⟩
  · simp only [start]
    omega
  · rw [first]
    exact leading
  · rw [length, ← Nat.add_assoc, ← Nat.add_assoc, last]
    exact blanks

namespace Excerpt

theorem leadingToken_isPrefix (rest : Text) (limit : Nat) : leadingToken rest limit <+: rest :=
  (List.takeWhile_prefix _).trans (List.take_prefix limit rest)

theorem length_leadingToken_le (rest : Text) (limit : Nat) :
    (leadingToken rest limit).length ≤ limit :=
  Nat.le_trans (List.takeWhile_prefix _).length_le (List.length_take_le limit rest)

theorem not_isBlank_of_mem_leadingToken {rest : Text} {limit : Nat} :
    ∀ c ∈ leadingToken rest limit, Text.isBlank c = false := by
  intro c member
  have kept := List.all_eq_true.mp List.all_takeWhile c member
  simpa only [Bool.not_eq_true'] using kept

namespace Placed

variable {source : Text} {cursor : Nat} {window : Window} {before left right behind : Text}

theorem isolated_within (placed : Placed source cursor window before left right behind) :
    (isolated source cursor window).Within (window.span cursor source.length) := by
  rw [placed.isolated_eq, placed.span_eq]
  refine ⟨Nat.le_add_right .., Nat.le_add_right .., ?_⟩
  simp only [List.length_append]
  omega

/-- The quoted text is the isolated line without the blank characters around it. -/
theorem trimmed (placed : Placed source cursor window before left right behind) :
    Text.Trimmed source (focus source cursor window).text (quoted source cursor window)
      (isolated source cursor window) := by
  have parts := Text.trimmed_append_append (before ++ left) (focus source cursor window).text
    (right ++ behind)
  rw [← placed.whole_eq, List.length_append] at parts
  simp only [quoted, placed.isolated_eq]
  exact parts

theorem slice_quoted (placed : Placed source cursor window before left right behind) :
    (quoted source cursor window).slice source = (focus source cursor window).text.trim :=
  placed.trimmed.slice_eq

/-- Between equally many line feeds, up to one, the cursor stands in the kept line. -/
theorem cursor_mem_isolated (placed : Placed source cursor window before left right behind)
    (inside : cursor ≤ source.length)
    (same : left.count '\n' = feedsBehind source cursor window) :
    left.length ≤ cursor - before.length ∧
      cursor - before.length ≤ left.length + (focus source cursor window).text.length := by
  rw [(placed.feeds_eq inside).1] at same
  constructor
  · apply Nat.le_of_not_lt
    intro early
    have := placed.isLine.count_take_lt early
    omega
  · apply Nat.le_of_not_lt
    intro past
    have := placed.isLine.lt_count_take past (placed.cursor_sub_le inside)
    omega

/-- From the cursor on, the source is the rest of the kept line and what follows it. -/
theorem drop_cursor (placed : Placed source cursor window before left right behind)
    (inside : cursor ≤ source.length)
    (same : left.count '\n' = feedsBehind source cursor window) :
    source.drop cursor =
      (focus source cursor window).text.drop (cursor - before.length - left.length) ++
        (right ++ behind) := by
  obtain ⟨late, within⟩ := placed.cursor_mem_isolated inside same
  have place := placed.cursor_eq
  have whole := placed.whole
  generalize (focus source cursor window).text = text at whole within ⊢
  have offset : cursor = (before ++ left).length + (cursor - before.length - left.length) := by
    rw [List.length_append]
    omega
  have divided : source = (before ++ left) ++ (text ++ (right ++ behind)) := by
    rw [whole]
    simp only [List.append_assoc]
  calc source.drop cursor
      = (text ++ (right ++ behind)).drop (cursor - before.length - left.length) := by
        rw [divided, offset, List.drop_length_add_append, ← offset]
    _ = text.drop (cursor - before.length - left.length) ++ (right ++ behind) :=
        List.drop_append_of_le_length (by omega)

/-- A token that fits into the window is in the kept line, at the cursor. -/
theorem token_isPrefix (placed : Placed source cursor window before left right behind)
    (inside : cursor ≤ source.length)
    (same : left.count '\n' = feedsBehind source cursor window) {token : Text}
    (solid : ∀ c ∈ token, Text.isBlank c = false) (found : token <+: source.drop cursor)
    (fits : token.length ≤ (window.span cursor source.length).stop - cursor) :
    token <+: (focus source cursor window).text.drop (cursor - before.length - left.length) := by
  obtain ⟨late, within⟩ := placed.cursor_mem_isolated inside same
  have place := placed.cursor_eq
  rw [placed.drop_cursor inside same] at found
  rw [placed.stop] at fits
  rcases placed.isLine.closes with rfl | ⟨rest, rfl⟩
  · refine List.prefix_of_prefix_length_le found (List.prefix_append _ _) ?_
    simp only [List.length_append, List.length_nil, List.length_drop] at fits ⊢
    omega
  · refine Text.prefix_of_prefix_append solid ?_ found
    intro c first
    cases first
    exact Text.isBlank_lineFeed

/-- A token that fits into the window is in the quoted text, where the cursor is in it. -/
theorem exists_token_offset (placed : Placed source cursor window before left right behind)
    (inside : cursor ≤ source.length)
    (same : left.count '\n' = feedsBehind source cursor window) {token : Text} (nonempty : token ≠ [])
    (solid : ∀ c ∈ token, Text.isBlank c = false) (found : token <+: source.drop cursor)
    (fits : token.length ≤ (window.span cursor source.length).stop - cursor) :
    ∃ offset, (quoted source cursor window).start + offset = cursor ∧
      token <+: (focus source cursor window).text.trim.drop offset := by
  obtain ⟨late, -⟩ := placed.cursor_mem_isolated inside same
  obtain ⟨behindBlanks, kept⟩ := Text.prefix_drop_trim nonempty solid
    (placed.token_isPrefix inside same solid found fits)
  have place := placed.cursor_eq
  refine ⟨_, ?_, kept⟩
  rw [quoted, placed.isolated_eq]
  simp only
  omega

end Placed

/-- The quoted text lies in the window. -/
theorem length_text_ofSource_le_span (source : Text) (cursor : Nat) (window : Window) :
    let span := window.span (min cursor source.length) source.length
    (ofSource source cursor window).text.length ≤ span.stop - span.start := by
  intro span
  have inside : min cursor source.length ≤ source.length := Nat.min_le_right ..
  obtain ⟨before, left, right, behind, placed⟩ := exists_placed source window inside
  have within := placed.trimmed.within.trans placed.isolated_within
  have bounded := within.trans (window.within_span inside)
  calc (ofSource source cursor window).text.length
      = ((quoted source (min cursor source.length) window).slice source).length :=
        congrArg List.length placed.slice_quoted.symm
    _ = (quoted source (min cursor source.length) window).stop -
          (quoted source (min cursor source.length) window).start :=
        Span.length_slice bounded.le_stop
    _ ≤ span.stop - span.start :=
        Nat.le_trans (Nat.sub_le_sub_right within.le_stop _) (Nat.sub_le_sub_left within.start_le _)

theorem length_text_ofSource_le (source : Text) (cursor : Nat) (window : Window) :
    (ofSource source cursor window).text.length ≤ source.length :=
  Nat.le_trans (length_text_ofSource_le_span ..) <|
    Nat.le_trans (Nat.sub_le ..) (window.span_stop_le ..)

/-- The quoted text is one line. -/
theorem lineFeed_not_mem_text_ofSource (source : Text) (cursor : Nat) (window : Window) :
    '\n' ∉ (ofSource source cursor window).text := by
  obtain ⟨before, left, right, behind, placed⟩ :=
    exists_placed source window (Nat.min_le_right cursor source.length)
  exact fun member => placed.isLine.plain (Text.mem_of_mem_trim member)

/-- The caret is not behind the quoted text. -/
theorem caretOffset_ofSource_le_length (source : Text) (cursor : Nat) (window : Window) :
    (ofSource source cursor window).caretOffset ≤ (ofSource source cursor window).text.length := by
  unfold caretOffset
  cases found : (ofSource source cursor window).caret with
  | none => exact Nat.zero_le _
  | some offset => exact Text.le_length_of_offsetOf? found

theorem caretOffset_ofSource_le (source : Text) (cursor : Nat) (window : Window) :
    (ofSource source cursor window).caretOffset ≤ source.length :=
  Nat.le_trans (caretOffset_ofSource_le_length ..) (length_text_ofSource_le ..)

/-- Where the caret is set, the token stands in the quoted text from the caret on. -/
theorem leadingToken_isPrefix_drop_caret {source : Text} {cursor caret : Nat} {window : Window}
    (found : (ofSource source cursor window).caret = some caret) :
    leadingToken (source.drop (min cursor source.length)) window.tokenLimit <+:
      (ofSource source cursor window).text.drop caret :=
  (Text.offsetOf?_eq_some_iff.mp found).1

/-- Where the window holds as many line feeds before the cursor as behind it, up to one, and the
token fits into the window, the caret is set: at the start for an empty token, and else at the first
occurrence of the token, the cursor itself being one. -/
theorem caret_le_token (source : Text) (cursor : Nat) (window : Window) (nonempty : source ≠ []) :
    let clamped := min cursor source.length
    let token := leadingToken (source.drop clamped) window.tokenLimit
    let room := (window.span clamped source.length).stop - clamped
    let feeds := feedsBehind source clamped window
    let others := feedsAhead source clamped window
    let place := quoted source clamped window
    let excerpt := extract (some source) cursor window
    place.slice source = excerpt.text ∧
    (window.tokenLimit ≤ window.after → token.length ≤ room) ∧
    (((feeds : Int) - others).natAbs ≤ 1 → token.length ≤ room →
      ∃ caret, excerpt.caret = some caret ∧ (token = [] → caret = 0) ∧
        (token ≠ [] → ∃ offset, place.start + offset = clamped ∧
          (Span.mk offset (offset + token.length)).slice excerpt.text = token ∧
          caret ≤ offset ∧
          (caret = offset ↔ ∀ earlier < offset, ¬ token <+: excerpt.text.drop earlier))) := by
  intro clamped token room feeds others place excerpt
  have inside : clamped ≤ source.length := Nat.min_le_right ..
  obtain ⟨before, left, right, behind, placed⟩ := exists_placed source window inside
  have text : excerpt.text = (focus source clamped window).text.trim :=
    congrArg Excerpt.text (extract_of_ne_nil nonempty cursor window)
  have search : excerpt.caret = excerpt.text.offsetOf? token := by
    rw [text]
    exact congrArg Excerpt.caret (extract_of_ne_nil nonempty cursor window)
  refine ⟨?_, ?_, ?_⟩
  · rw [text]
    exact placed.slice_quoted
  · intro short
    have limit : token.length ≤ window.tokenLimit := length_leadingToken_le ..
    have rest : token.length ≤ (source.drop clamped).length :=
      (leadingToken_isPrefix ..).length_le
    rw [List.length_drop] at rest
    have stop : room = min (clamped + window.after) source.length - clamped := rfl
    omega
  · intro close fits
    have same : left.count '\n' = feeds := placed.count_left_eq inside close
    by_cases empty : token = []
    · refine ⟨0, ?_, fun _ => rfl, fun full => absurd empty full⟩
      rw [search, empty, Text.offsetOf?_nil]
    · obtain ⟨offset, reached, found⟩ := placed.exists_token_offset inside same empty
        not_isBlank_of_mem_leadingToken (leadingToken_isPrefix ..) fits
      rw [← text] at found
      obtain ⟨caret, first, early⟩ := Text.exists_offsetOf?_le found
      obtain ⟨-, least⟩ := Text.offsetOf?_eq_some_iff.mp first
      refine ⟨caret, search.trans first, fun none => absurd none empty, fun _ =>
        ⟨offset, reached, ?_, early, ?_, ?_⟩⟩
      · rw [Span.slice, List.extract_eq_take_drop, Nat.add_sub_cancel_left]
        exact (List.prefix_iff_eq_take.mp found).symm
      · rintro rfl
        exact least
      · intro none
        have again := Text.offsetOf?_eq_some_iff.mpr ⟨found, none⟩
        exact Option.some.inj (first.symm.trans again)

/-- The second word of a line stands nowhere earlier in it. -/
theorem caret_le_token_second_word :
    let source : Text := "foo bar".toList
    source ≠ [] ∧ ((feedsBehind source 4 {} : Int) - feedsAhead source 4 {}).natAbs ≤ 1 ∧
      (leadingToken (source.drop 4) 30).length ≤ (Window.span {} 4 7).stop - 4 ∧
      (extract (some source) 4 {}).caret = some 4 := by
  intro source
  have close : ((feedsBehind source 4 {} : Int) - feedsAhead source 4 {}).natAbs ≤ 1 := by
    decide +kernel
  have fits : (leadingToken (source.drop 4) 30).length ≤ (Window.span {} 4 7).stop - 4 := by
    decide +kernel
  obtain ⟨caret, found, -, place⟩ := (caret_le_token source 4 {} (by decide)).2.2 close fits
  obtain ⟨offset, reached, -, -, first⟩ := place (by decide +kernel)
  have start : (quoted source 4 {}).start = 0 := by decide +kernel
  have sum : (quoted source 4 {}).start + offset = 4 := reached
  obtain rfl : offset = 4 := by omega
  have alone : ∀ earlier < 4, ¬ leadingToken (source.drop 4) 30 <+:
      (extract (some source) 4 {}).text.drop earlier := by decide +kernel
  have last : caret = 4 := first.mpr alone
  rw [last] at found
  exact ⟨by decide, close, fits, found⟩

end Excerpt

end Pinpoint

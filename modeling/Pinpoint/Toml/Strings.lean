import Pinpoint.Number
import Pinpoint.Toml.Reader

/-! # TOML strings

A string stands in quotation marks, where a backslash escapes, or in apostrophes, where nothing
does. Three of either open a string of several lines; the line end right behind them is left out,
and so are a backslash at the end of a line and all blanks and line ends behind it. Up to two
quotation marks may stand right before the three that close such a string.
-/

namespace Pinpoint.Toml

/-- The character that a letter behind a backslash stands for. -/
def unescape? : Char → Option Char
  | 'b' => some '\x08'
  | 't' => some '\t'
  | 'n' => some '\n'
  | 'f' => some '\x0c'
  | 'r' => some '\r'
  | '"' => some '"'
  | '\\' => some '\\'
  | _ => none

/-- The character whose code point is written by the first `count` characters. -/
def codePoint? (count : Nat) (text : Text) : Option Char := do
  let code ← text.leadingHex? count
  if code.isValidChar then some (Char.ofNat code) else none

/-- The character escaped behind a backslash, and how many characters the escape takes there. -/
def escape? : Text → Option (Char × Nat)
  | [] => none
  | c :: text =>
    if c = 'u' then (codePoint? 4 text).map (·, 5)
    else if c = 'U' then (codePoint? 8 text).map (·, 9)
    else (unescape? c).map (·, 1)

/-- The rest of a string that a quotation mark opened. -/
def basicBody : Reader Text
  | [] => none
  | c :: text =>
    if c = '"' then some ([], text)
    else if c = '\\' then
      match escape? text with
      | none => none
      | some (escaped, length) =>
        (basicBody (text.drop length)).map fun (tail, rest) => (escaped :: tail, rest)
    else if isPrintable c then (basicBody text).map fun (tail, rest) => (c :: tail, rest)
    else none
termination_by text => text.length
decreasing_by all_goals simp only [List.length_cons, List.length_drop]; omega

def basicString : Reader Text := do
  Reader.char '"'
  basicBody

def literalString : Reader Text := do
  Reader.char '\''
  let body ← Reader.takeWhile fun c => isPrintable c && c != '\''
  Reader.char '\''
  return body

/-- The text behind blanks and line ends. -/
def skipGap : Text → Text
  | '\r' :: '\n' :: text => skipGap text
  | c :: text => if isBlank c || c == '\n' then skipGap text else c :: text
  | [] => []

theorem length_skipGap_le (text : Text) : (skipGap text).length ≤ text.length := by
  fun_induction skipGap text with
  | case1 text ih => simp only [List.length_cons]; omega
  | case2 c text _ _ ih => simp only [List.length_cons]; omega
  | case3 => exact Nat.le_refl _
  | case4 => exact Nat.le_refl _

/-- The text behind a backslash that ends a line, at the next character that counts. -/
def continuation? (text : Text) : Option Text :=
  match lineEnd (text.dropWhile isBlank) with
  | some ((), rest) => some (skipGap rest)
  | none => none

theorem length_le_of_continuation? {text rest : Text} (found : continuation? text = some rest) :
    rest.length ≤ text.length := by
  have blanks := (List.dropWhile_suffix isBlank (l := text)).length_le
  unfold continuation? at found
  split at found
  · next tail ended =>
    cases found
    have := length_skipGap_le tail
    have := length_lt_of_lineEnd ended
    omega
  · cases found

/-- The rest of a string that three delimiters opened; only in quotation marks does a backslash
escape. A run of three to five delimiters closes the string, and all but three of them belong to
it; a shorter run is part of the string, and a longer one is refused. -/
def multilineBody (delimiter : Char) (escapes : Bool) (text : Text) : Option (Text × Text) :=
  match text with
  | [] => none
  | c :: rest =>
    if c = delimiter then
      let quotes := (c :: rest).takeWhile (· == delimiter)
      let behind := rest.dropWhile (· == delimiter)
      if quotes.length < 3 then
        (multilineBody delimiter escapes behind).map fun (tail, rest) => (quotes ++ tail, rest)
      else if quotes.length ≤ 5 then some (quotes.drop 3, behind)
      else none
    else if escapes ∧ c = '\\' then
      match _continued : continuation? rest with
      | some rest => multilineBody delimiter escapes rest
      | none =>
        match escape? rest with
        | none => none
        | some (escaped, length) =>
          (multilineBody delimiter escapes (rest.drop length)).map fun (tail, rest) =>
            (escaped :: tail, rest)
    else
      match _ended : lineEnd (c :: rest) with
      | some ((), rest) =>
        (multilineBody delimiter escapes rest).map fun (tail, rest) => ('\n' :: tail, rest)
      | none =>
        if isPrintable c then
          (multilineBody delimiter escapes rest).map fun (tail, rest) => (c :: tail, rest)
        else none
termination_by text.length
decreasing_by
  · have := (List.dropWhile_suffix (· == delimiter) (l := rest)).length_le
    simp only [List.length_cons]
    omega
  · have := length_le_of_continuation? _continued
    simp only [List.length_cons]
    omega
  · simp only [List.length_cons, List.length_drop]
    omega
  · exact length_lt_of_lineEnd _ended
  · simp only [List.length_cons]
    omega

/-- A string of several lines in the given delimiters. -/
def multilineString (delimiter : Char) (escapes : Bool) : Reader Text := do
  Reader.word [delimiter, delimiter, delimiter]
  let _ ← Reader.optional lineEnd
  multilineBody delimiter escapes

/-- A string of any of the four forms. -/
def string : Reader Text :=
  multilineString '"' true <|> basicString <|> multilineString '\'' false <|> literalString

end Pinpoint.Toml

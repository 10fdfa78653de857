/-! # Text as a sequence of characters

A text is the list of its Unicode scalar values. Every offset, length and column of the library
counts members of that list, so an offset never falls inside a character.
-/

namespace Pinpoint

abbrev Text := List Char

namespace Text

/-- The decimal digits of a natural number, most significant first and without leading zeros. -/
def ofNat (n : Nat) : Text := Nat.toDigits 10 n

/-- The number of bytes in the UTF-8 form of a text. -/
def utf8Size (text : Text) : Nat := text.foldr (fun c size => c.utf8Size + size) 0

def run (c : Char) (count : Nat) : Text := List.replicate count c

@[simp]
theorem length_run (c : Char) (count : Nat) : (run c count).length = count :=
  List.length_replicate

/-! ## Blank characters

Blank characters separate the tokens of a quoted line. They are the control characters and the
space, the no-break space, and every character with the Unicode property `White_Space`. Trimming
takes the blank characters off the two ends of a text and leaves those inside.
-/

/-- The code points above the space that Unicode lists as `White_Space`, as inclusive ranges. -/
def whiteSpaceRanges : List (Nat × Nat) :=
  [(0x85, 0x85), (0xA0, 0xA0), (0x1680, 0x1680), (0x2000, 0x200A), (0x2028, 0x2029),
   (0x202F, 0x202F), (0x205F, 0x205F), (0x3000, 0x3000)]

/-- Everything up to the space is blank, control characters included, and so is white space. -/
def isBlank (c : Char) : Bool :=
  c.toNat ≤ 0x20 || whiteSpaceRanges.any fun (first, last) => first ≤ c.toNat && c.toNat ≤ last

theorem isBlank_lineFeed : isBlank '\n' = true := by decide

theorem isBlank_carriageReturn : isBlank '\r' = true := by decide

def trimLeft (text : Text) : Text := text.dropWhile isBlank

def trimRight (text : Text) : Text := (text.reverse.dropWhile isBlank).reverse

/-- Blank characters are taken off both ends. -/
def trim (text : Text) : Text := trimRight (trimLeft text)

/-! ## Searching -/

/-- The least offset at which `part` occurs; the empty text occurs at the start of every text. -/
def offsetOf? : Text → Text → Option Nat
  | [], part => if part.isEmpty then some 0 else none
  | c :: rest, part =>
    if part.isPrefixOf (c :: rest) then some 0 else (offsetOf? rest part).map (· + 1)

theorem offsetOf?_nil (text : Text) : text.offsetOf? [] = some 0 := by
  cases text <;> simp [offsetOf?]

/-! ## Line feeds and line ends

A line may end with a line feed alone or with a carriage return and a line feed. Where the one kind
of line end is replaced by the other, every offset behind a line end moves.
-/

/-- The offsets of the line feeds of a text, in increasing order. -/
def lineFeeds (text : Text) : List Nat :=
  (text.zipIdx.filter (·.1 = '\n')).map (·.2)

theorem lt_length_of_mem_lineFeeds {text : Text} {lineFeed : Nat}
    (member : lineFeed ∈ text.lineFeeds) : lineFeed < text.length := by
  simp only [lineFeeds, List.mem_map, List.mem_filter] at member
  obtain ⟨⟨c, index⟩, ⟨inside, _⟩, rfl⟩ := member
  exact (List.mem_zipIdx' inside).1

/-- What the line feeds of a text divide it into. -/
def lines (text : Text) : List Text := text.splitOn '\n'

/-- The characters behind the last line feed, or all of them where there is no line feed. -/
def lastLine (text : Text) : Text := (text.reverse.takeWhile (· ≠ '\n')).reverse

theorem lastLine_concat_lineFeed (text : Text) : (text ++ ['\n']).lastLine = [] := by
  rw [lastLine, List.reverse_append, List.reverse_singleton, List.singleton_append,
    List.takeWhile_cons_of_neg (by simp), List.reverse_nil]

theorem lastLine_concat {c : Char} (other : c ≠ '\n') (text : Text) :
    (text ++ [c]).lastLine = text.lastLine ++ [c] := by
  rw [lastLine, List.reverse_append, List.reverse_singleton, List.singleton_append,
    List.takeWhile_cons_of_pos (by simpa using other), List.reverse_cons, lastLine]

/-- The text with a carriage return put before every line feed. -/
def returned (text : Text) : Text := text.flatMap fun c => if c = '\n' then ['\r', '\n'] else [c]

/-- Where an offset of a text is once carriage returns have been put before its line feeds. -/
def returnedOffset (text : Text) (offset : Nat) : Nat := offset + (text.take offset).count '\n'

end Text

end Pinpoint

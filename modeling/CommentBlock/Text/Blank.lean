/-!
# Text and its blank characters

Text is a finite sequence of Unicode scalar values; NUL and every other control
character may occur in it. A character is blank when it has the Unicode property
White_Space. The property covers two dozen characters, several of which look
like line ends without being one, and it leaves out the zero-width characters
and the four information separators.
-/

namespace CommentBlock

/-- A sequence of Unicode scalar values. -/
abbrev Text := List Char

/-- Closed ranges of code points, in ascending order and apart from each other. -/
abbrev CodeRanges := List (Nat × Nat)

/-- Whether the code point of the character lies in one of the ranges. -/
def CodeRanges.contains (ranges : CodeRanges) (c : Char) : Bool :=
  ranges.any fun range => decide (range.1 ≤ c.toNat) && decide (c.toNat ≤ range.2)

/-- The code points with the property White_Space. -/
def blankRanges : CodeRanges :=
  [(0x09, 0x0D), (0x20, 0x20), (0x85, 0x85), (0xA0, 0xA0), (0x1680, 0x1680), (0x2000, 0x200A),
    (0x2028, 0x2029), (0x202F, 0x202F), (0x205F, 0x205F), (0x3000, 0x3000)]

/-- Whether the character separates words. -/
def isBlank (c : Char) : Bool := blankRanges.contains c

/-- A star separates no words. -/
theorem isBlank_star : isBlank '*' = false := rfl

/-- A dollar sign separates no words. -/
theorem isBlank_dollar : isBlank '$' = false := rfl

namespace Text

/-- The text without the blanks at its two ends. -/
def trim (text : Text) : Text :=
  ((text.dropWhile isBlank).reverse.dropWhile isBlank).reverse

/-- Trimming adds no character. -/
theorem mem_of_mem_trim (text : Text) (c : Char) (member : c ∈ text.trim) : c ∈ text := by
  have inFront : c ∈ text.dropWhile isBlank :=
    List.mem_reverse.mp ((List.dropWhile_sublist isBlank).mem (List.mem_reverse.mp member))
  exact (List.dropWhile_sublist isBlank).mem inFront

end Text

end CommentBlock

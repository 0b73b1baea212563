import CommentBlock.Text.Word

/-!
# Lines

A line end is LF, CR, or CR followed by LF, the last counting once. No other
character ends a line, in particular none of the blanks that some conventions
read as line or page ends. The text after the last line end is a line only if it
is not empty, so a final line end opens no line of its own and the empty text has
no lines.

In the other direction lines are joined by one LF between neighbours, or ended by
one LF each.
-/

namespace CommentBlock

/-- Whether the character is CR or LF. -/
def isBreak (c : Char) : Bool := c == '\n' || c == '\r'

/-- A space ends no line. -/
theorem isBreak_space : isBreak ' ' = false := rfl

/-- A star ends no line. -/
theorem isBreak_star : isBreak '*' = false := rfl

/-- CR and LF are blank, so a word holds neither. -/
theorem isBreak_false_of_solid (c : Char) (solid : isBlank c = false) : isBreak c = false := by
  cases broken : isBreak c with
  | false => rfl
  | true =>
    simp only [isBreak, Bool.or_eq_true, beq_iff_eq] at broken
    rcases broken with same | same <;> subst same <;> revert solid <;> decide

/-- A text without CR and LF. -/
structure Line where
  chars : Text
  unbroken : ∀ c ∈ chars, isBreak c = false
  deriving DecidableEq

namespace Line

/-- The line with the given characters, after a look at each of them. -/
def ofChars (chars : Text) (unbroken : chars.all (fun c => !isBreak c) = true) : Line where
  chars := chars
  unbroken := by simpa using unbroken

/-- The line without characters. -/
def empty : Line := ⟨[], by simp⟩

/-- The line with one more character at its front. -/
def cons (c : Char) (line : Line) (unbroken : isBreak c = false) : Line where
  chars := c :: line.chars
  unbroken := by
    intro d member
    rcases List.mem_cons.mp member with same | member
    · exact same ▸ unbroken
    · exact line.unbroken d member

/-- The line without the blanks at its two ends. -/
def trim (line : Line) : Line where
  chars := Text.trim line.chars
  unbroken := by
    intro c member
    exact line.unbroken c (Text.mem_of_mem_trim line.chars c member)

/-- The line with LF after it. -/
def ended (line : Line) : Text := line.chars ++ ['\n']

end Line

namespace Text

/-- The lines of a text with one more character in front, given the lines of the
text itself. The character belongs to the first of them, which it opens if there
is none. -/
def prependToLines (c : Char) (unbroken : isBreak c = false) : List Line → List Line
  | [] => [Line.empty.cons c unbroken]
  | line :: rest => line.cons c unbroken :: rest

/-- The lines of the text, without their ends. -/
def lines : Text → List Line
  | [] => []
  | '\r' :: '\n' :: rest => .empty :: lines rest
  | c :: rest =>
    if unbroken : isBreak c = false then prependToLines c unbroken (lines rest)
    else .empty :: lines rest

/-- The lines with one LF between neighbours. -/
def ofLines (lines : List Line) : Text := List.intercalate ['\n'] (lines.map Line.chars)

/-- The lines with one LF after each. -/
def ofEndedLines (lines : List Line) : Text := lines.flatMap Line.ended

end Text

namespace Phrase

/-- Every character of a phrase is a separating space or belongs to a word. -/
theorem mem_text (phrase : Phrase) (c : Char) (member : c ∈ phrase.text) :
    c = ' ' ∨ ∃ word ∈ phrase, c ∈ word.chars := by
  induction phrase with
  | nil => simp [text, List.intercalate] at member
  | cons word rest inductionHypothesis =>
    cases rest with
    | nil =>
      have member : c ∈ word.chars := by simpa [text, List.intercalate] using member
      exact .inr ⟨word, by simp, member⟩
    | cons next rest =>
      have member : c ∈ word.chars ++ [' '] ++ text (next :: rest) := by
        simpa only [text, List.map_cons, List.intercalate_cons_cons] using member
      rcases List.mem_append.mp member with member | member
      · rcases List.mem_append.mp member with member | member
        · exact .inr ⟨word, by simp, member⟩
        · exact .inl (List.mem_singleton.mp member)
      · rcases inductionHypothesis member with space | ⟨found, inside, member⟩
        · exact .inl space
        · exact .inr ⟨found, List.mem_cons_of_mem _ inside, member⟩

/-- A phrase fits on one line: its words hold no line end and it is written with
spaces only. -/
def line (phrase : Phrase) : Line where
  chars := phrase.text
  unbroken := by
    intro c member
    rcases phrase.mem_text c member with space | ⟨word, _, inside⟩
    · exact space ▸ isBreak_space
    · exact isBreak_false_of_solid c (word.solid c inside)

end Phrase

end CommentBlock

import CommentBlock.Text.Blank

/-!
# Words and phrases

A word is a nonempty run of characters none of which is blank. Every text has a
list of words, its maximal such runs in order; what separates them is not kept.
A phrase is a list of words seen as one text, written with a single space
between neighbours. Phrases are the canonical form of free text: a run of blanks,
line ends included, becomes one space, and the ends carry none.
-/

namespace CommentBlock

/-- A nonempty text without blanks. -/
structure Word where
  chars : Text
  nonempty : chars ≠ []
  solid : ∀ c ∈ chars, isBlank c = false
  deriving DecidableEq

namespace Word

/-- The word with the given characters, after a look at each of them. -/
def ofChars (chars : Text) (nonempty : chars ≠ [])
    (solid : chars.all (fun c => !isBlank c) = true) : Word where
  chars := chars
  nonempty := nonempty
  solid := by simpa using solid

/-- The word made of one character. -/
def single (c : Char) (solid : isBlank c = false) : Word where
  chars := [c]
  nonempty := by simp
  solid := by simpa using solid

/-- The word with one more character at its front. -/
def cons (c : Char) (word : Word) (solid : isBlank c = false) : Word where
  chars := c :: word.chars
  nonempty := by simp
  solid := by
    intro d member
    rcases List.mem_cons.mp member with same | member
    · exact same ▸ solid
    · exact word.solid d member

end Word

namespace Text

/-- Whether the text begins with a character that is not blank. -/
def startsSolid : Text → Bool
  | [] => false
  | c :: _ => !isBlank c

/-- The words of a text with one more character in front that is not blank,
given the words of the text itself. The character belongs to the first of them if
the text begins with it, and is a word of its own otherwise. -/
def prependToWords (c : Char) (solid : isBlank c = false) : Bool → List Word → List Word
  | true, word :: rest => word.cons c solid :: rest
  | _, words => .single c solid :: words

/-- The maximal runs of characters that are not blank, in order. -/
def words : Text → List Word
  | [] => []
  | c :: rest =>
    if solid : isBlank c = false then prependToWords c solid (startsSolid rest) (words rest)
    else words rest

end Text

/-- Words that are written with one space between neighbours. -/
abbrev Phrase := List Word

/-- The text of a phrase. It is empty exactly when the phrase has no words. -/
def Phrase.text (phrase : Phrase) : Text := List.intercalate [' '] (phrase.map Word.chars)

end CommentBlock

import CommentBlock.Comment.Basic
import CommentBlock.Tag.Draft

/-!
# Readings of lines

Each line of a text carries something or nothing, whatever its neighbours are.
Only a line counts whose first word is a lone star and which has another word.
If that second word begins with an at sign, the line is about a tag: it holds the
tag, or a fault of a tag whose kind is known, or nothing if the kind is unknown.
Any other line that counts is prose, and its words after the star are kept.

The opening and the closing line of a block and its bare lines carry nothing by
the same rule.
-/

namespace CommentBlock

/-- What keeps a line from holding a tag although its sign is known. The numbers of
words, expected and found, include the star and the sign. -/
inductive TagFault where
  | tooFewWords (kind : Kind) (expected found : Nat)
  | badField (error : FieldError)
  deriving DecidableEq

/-- What a line carries. -/
inductive Reading where
  | nothing
  | prose (words : Phrase)
  | tag (found : Tag)
  | fault (fault : TagFault)
  deriving DecidableEq

namespace Reading

/-- The reading of a line with a known sign, from the words after the sign. -/
def ofFields (kind : Kind) (fields : List Word) : Reading :=
  match Draft.ofWords? kind fields with
  | none => .fault (.tooFewWords kind kind.minWords (fields.length + 2))
  | some draft =>
    match draft.build with
    | .error error => .fault (.badField error)
    | .ok built => .tag built

/-- The reading of a line with a star, from the words after the star. -/
def ofStarred : List Word → Reading
  | [] => .nothing
  | word :: rest =>
    match word.chars with
    | '@' :: name =>
      match Kind.ofName? name with
      | none => .nothing
      | some kind => ofFields kind rest
    | _ => .prose (word :: rest)

/-- The reading of a line with the given words. -/
def ofWords : List Word → Reading
  | [] => .nothing
  | word :: rest => if word = .star then ofStarred rest else .nothing

/-- The reading of the line. -/
def ofLine (line : Line) : Reading := ofWords (Text.words line.chars)

/-- The comment that holds what the line carries and nothing else. A fault is
left out. -/
def comment : Reading → Comment
  | .nothing => .empty
  | .prose words => { description := [words.line] }
  | .tag found => Comment.empty.insert found
  | .fault _ => .empty

end Reading

end CommentBlock

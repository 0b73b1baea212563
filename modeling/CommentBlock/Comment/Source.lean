import CommentBlock.Comment.Basic

/-!
# The source of a comment

A comment is written as a block: an empty line, an opening line, the body, a
closing line. The body has the description first and then the tags, with a line
between them that holds only a star; that line is left out when one of the two
parts is missing. A comment without a body has no block at all.

Every line of the description is trimmed, and blank lines before the first and
after the last line with text are dropped. Tags stand in a fixed order of kinds,
whatever the order of insertion. The license is stored but never written.
-/

namespace CommentBlock

/-- The line of a body that holds only a star. -/
def Line.bare : Line := .ofChars " *".toList rfl

/-- The line as it stands in a body, after a star. -/
def Line.starred (line : Line) : Line :=
  if line.chars.isEmpty then .bare
  else ((line.cons ' ' isBreak_space).cons '*' isBreak_star).cons ' ' isBreak_space

/-- The first line of a block after the empty one. -/
def Line.opening : Line := .ofChars "/**".toList rfl

/-- The last line of a block. -/
def Line.closing : Line := .ofChars " */".toList rfl

namespace Comment

/-- The description in normal form: as one text it is trimmed, then each of its
lines is. -/
def normalLines (description : List Line) : List Line :=
  (Text.ofLines description).trim.lines.map Line.trim

/-- The description as it stands in the body. -/
def writtenDescription (comment : Comment) : List Line :=
  (normalLines comment.description).map Line.starred

/-- The tags that are written, in order. -/
def writtenTags (comment : Comment) : List Tag :=
  comment.params.map .param ++ comment.throws.map .throws ++ comment.var.toList.map .var ++
    comment.package.toList.map .package ++ comment.author.toList.map .author ++
    comment.access.toList.map .access ++ comment.returns.toList.map .returns

/-- The line between the description and the tags, where both are present. -/
def separator (comment : Comment) : List Line :=
  if comment.writtenDescription = [] ∨ comment.writtenTags = [] then [] else [.bare]

/-- The lines between the opening and the closing line. -/
def body (comment : Comment) : List Line :=
  comment.writtenDescription ++ comment.separator ++ comment.writtenTags.map Tag.line

/-- All lines of the block. -/
def sourceLines (comment : Comment) : List Line :=
  if comment.body = [] then [] else .empty :: .opening :: comment.body ++ [.closing]

/-- The block as text. -/
def source (comment : Comment) : Text := Text.ofEndedLines comment.sourceLines

end Comment

end CommentBlock

import CommentBlock.Tag.Basic

/-!
# Comments

A comment is a description, given as lines, together with tags. Parameters and
thrown exceptions are kept in the order in which they were inserted, repetitions
included. Of every other kind the comment holds at most one tag, the last one
inserted.

The description is kept as it was given, up to its line ends. Nothing is known of
its lines except that they are lines: they may be blank, be indented or look like
tags.
-/

namespace CommentBlock

/-- A description and tags. -/
structure Comment where
  description : List Line := []
  var : Option Variable := none
  returns : Option Outcome := none
  package : Option Phrase := none
  author : Option Phrase := none
  license : Option Phrase := none
  access : Option Word := none
  params : List Variable := []
  throws : List Outcome := []
  deriving DecidableEq

namespace Comment

/-- The comment without description and tags. -/
def empty : Comment := {}

/-- The comment with one more tag, which replaces an earlier tag of its kind
unless the kind is repeatable. -/
def insert (comment : Comment) : Tag → Comment
  | .var binding => { comment with var := some binding }
  | .param binding => { comment with params := comment.params ++ [binding] }
  | .returns outcome => { comment with returns := some outcome }
  | .throws outcome => { comment with throws := comment.throws ++ [outcome] }
  | .author value => { comment with author := some value }
  | .license value => { comment with license := some value }
  | .package value => { comment with package := some value }
  | .access level => { comment with access := some level }

/-- The comment with the tags inserted one after the other. -/
def insertAll (comment : Comment) (tags : List Tag) : Comment := tags.foldl insert comment

/-- The comment with the lines of the text as its description. -/
def describe (comment : Comment) (text : Text) : Comment :=
  { comment with description := text.lines }

/-- The comment that has the text as its description and no tags. -/
def ofDescription (text : Text) : Comment := empty.describe text

/-- The description as one text. -/
def descriptionText (comment : Comment) : Text := Text.ofLines comment.description

/-- The comment without its license. -/
def withoutLicense (comment : Comment) : Comment := { comment with license := none }

/-- The comment without its tags. -/
def withoutTags (comment : Comment) : Comment := { description := comment.description }

/-- The content of two comments together. Descriptions, parameters and thrown
exceptions follow one another; where both hold a single tag of a kind, the second
one's stays. -/
def append (first second : Comment) : Comment where
  description := first.description ++ second.description
  var := second.var.or first.var
  returns := second.returns.or first.returns
  package := second.package.or first.package
  author := second.author.or first.author
  license := second.license.or first.license
  access := second.access.or first.access
  params := first.params ++ second.params
  throws := first.throws ++ second.throws

instance : Append Comment := ⟨append⟩

/-- Whether there is nothing to say: no tag of any kind, and no line of the
description that has a word. -/
def isEmpty (comment : Comment) : Bool :=
  comment.description.all (fun line => line.trim.chars.isEmpty) && comment.var.isNone &&
    comment.returns.isNone && comment.package.isNone && comment.author.isNone &&
    comment.license.isNone && comment.access.isNone && comment.params.isEmpty &&
    comment.throws.isEmpty

end Comment

end CommentBlock

import CommentBlock.Comment.Basic
import CommentBlock.Json.Printer

/-!
# The JSON form of comments and tags

A comment is an object with a member for its description and one for each kind
of tag, all of them present and always in the same order. The description and the
tags of the repeatable kinds are arrays; a missing tag is null. The fields of a
tag are the members of an object, to which a tag outside of a comment adds its
kind as the first member.

Variable names are given without their dollar sign, and the license is included.
-/

namespace CommentBlock

/-- The fields of the variable. -/
def Variable.members (binding : Variable) : List (Text × Json) :=
  [("type_name".toList, .string binding.type.chars), ("name".toList, .string binding.name.chars),
    ("description".toList, .string binding.description.text)]

/-- The fields of the outcome. -/
def Outcome.members (outcome : Outcome) : List (Text × Json) :=
  [("type_name".toList, .string outcome.type.chars),
    ("description".toList, .string outcome.description.text)]

/-- The only field of an author, a license or a package. -/
def Phrase.members (value : Phrase) : List (Text × Json) :=
  [("value".toList, .string value.text)]

/-- The only field of an access level. -/
def Word.members (level : Word) : List (Text × Json) := [("level".toList, .string level.chars)]

namespace Tag

/-- The fields of the tag. -/
def members : Tag → List (Text × Json)
  | .var binding | .param binding => binding.members
  | .returns outcome | .throws outcome => outcome.members
  | .author value | .license value | .package value => value.members
  | .access level => level.members

/-- The kind and the fields of the tag. -/
def toJson (tag : Tag) : Json := .object (("kind".toList, .string tag.kind.name) :: tag.members)

end Tag

/-- The description and the tags of the comment. -/
def Comment.toJson (comment : Comment) : Json :=
  .object [
    ("description".toList, .array (comment.description.map fun line => .string line.chars)),
    ("var".toList, .ofOption (comment.var.map fun binding => .object binding.members)),
    ("return".toList, .ofOption (comment.returns.map fun outcome => .object outcome.members)),
    ("package".toList, .ofOption (comment.package.map fun value => .object value.members)),
    ("author".toList, .ofOption (comment.author.map fun value => .object value.members)),
    ("license".toList, .ofOption (comment.license.map fun value => .object value.members)),
    ("access".toList, .ofOption (comment.access.map fun level => .object level.members)),
    ("params".toList, .array (comment.params.map fun binding => .object binding.members)),
    ("throws".toList, .array (comment.throws.map fun outcome => .object outcome.members))]

end CommentBlock

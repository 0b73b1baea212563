import CommentBlock.Tag.Kind
import CommentBlock.Text.Line

/-!
# Tags

A tag states one fact about the documented code. Its required fields are words
and its free text is a phrase, so a tag that exists can be written on one line
and taken apart again: there is no field that spans several words except the
last, and none that spans several lines.

The written form begins with a star and the sign of the kind. An empty phrase
adds nothing to it, not even a space.
-/

namespace CommentBlock

/-- The star that stands at the front of a line of a comment. -/
def Word.star : Word := .single '*' isBlank_star

/-- A variable with its type. The name is kept without its dollar sign; further
dollar signs belong to the name. -/
structure Variable where
  type : Word
  name : Word
  description : Phrase
  deriving DecidableEq

/-- A value that code hands back or an exception that it throws. -/
structure Outcome where
  type : Word
  description : Phrase
  deriving DecidableEq

/-- One fact about the documented code. -/
inductive Tag where
  | var (binding : Variable)
  | param (binding : Variable)
  | returns (outcome : Outcome)
  | throws (outcome : Outcome)
  | author (value : Phrase)
  | license (value : Phrase)
  | package (value : Phrase)
  | access (level : Word)
  deriving DecidableEq

/-- The name as code spells it, with its dollar sign. -/
def Variable.spelled (binding : Variable) : Word := binding.name.cons '$' isBlank_dollar

/-- The words of the variable in written order. -/
def Variable.words (binding : Variable) : List Word :=
  binding.type :: binding.spelled :: binding.description

/-- The words of the outcome in written order. -/
def Outcome.words (outcome : Outcome) : List Word := outcome.type :: outcome.description

namespace Tag

/-- The kind of the tag. -/
def kind : Tag → Kind
  | .var _ => .var
  | .param _ => .param
  | .returns _ => .returns
  | .throws _ => .throws
  | .author _ => .author
  | .license _ => .license
  | .package _ => .package
  | .access _ => .access

/-- The words of the fields in written order. -/
def words : Tag → List Word
  | .var binding | .param binding => binding.words
  | .returns outcome | .throws outcome => outcome.words
  | .author value | .license value | .package value => value
  | .access level => [level]

/-- The line that states the tag. -/
def line (tag : Tag) : Line :=
  (Phrase.line (.star :: tag.kind.sign :: tag.words)).cons ' ' isBreak_space

end Tag

end CommentBlock

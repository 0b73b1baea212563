import CommentBlock.Tag.Basic
import CommentBlock.Tag.Field

/-!
# Drafts of tags

A draft holds the fields of a tag as someone supplies them: texts of any content.
A tag is made from it by reading each required field and by bringing free text
into its canonical form, the phrase of its words. The first required field that
cannot be used decides the error, and a type is judged before a name.

A tag has a draft of its own, from which it is made again. Its variable name has
to be supplied with the dollar sign, since a name may itself begin with one.
-/

namespace CommentBlock

/-- The fields of a tag before they are checked. -/
inductive Draft where
  | var (type name description : Text)
  | param (type name description : Text)
  | returns (type description : Text)
  | throws (type description : Text)
  | author (value : Text)
  | license (value : Text)
  | package (value : Text)
  | access (level : Text)
  deriving DecidableEq

/-- A variable of a tag of the kind. -/
def Variable.ofFields (kind : Kind) (type name description : Text) :
    Except FieldError Variable := do
  let type ← Field.type.read kind type
  let name ← Field.readName kind name
  return ⟨type, name, description.words⟩

/-- An outcome of a tag of the kind. -/
def Outcome.ofFields (kind : Kind) (type description : Text) : Except FieldError Outcome := do
  let type ← Field.type.read kind type
  return ⟨type, description.words⟩

namespace Draft

/-- The kind of the tag that is drafted. -/
def kind : Draft → Kind
  | .var .. => .var
  | .param .. => .param
  | .returns .. => .returns
  | .throws .. => .throws
  | .author _ => .author
  | .license _ => .license
  | .package _ => .package
  | .access _ => .access

/-- The tag with these fields, or the error of the first field that cannot be
used. -/
def build : Draft → Except FieldError Tag
  | .var type name description => .var <$> Variable.ofFields .var type name description
  | .param type name description => .param <$> Variable.ofFields .param type name description
  | .returns type description => .returns <$> Outcome.ofFields .returns type description
  | .throws type description => .throws <$> Outcome.ofFields .throws type description
  | .author value => .ok (.author value.words)
  | .license value => .ok (.license value.words)
  | .package value => .ok (.package value.words)
  | .access level => .access <$> Field.level.read .access level

/-- The draft of a tag of the kind whose field words stand on a line, if there
are enough of them. An access level takes one word and leaves the others. -/
def ofWords? : Kind → List Word → Option Draft
  | .var, type :: name :: description => some (.var type.chars name.chars (Phrase.text description))
  | .param, type :: name :: description =>
    some (.param type.chars name.chars (Phrase.text description))
  | .returns, type :: description => some (.returns type.chars (Phrase.text description))
  | .throws, type :: description => some (.throws type.chars (Phrase.text description))
  | .author, value => some (.author (Phrase.text value))
  | .license, value => some (.license (Phrase.text value))
  | .package, value => some (.package (Phrase.text value))
  | .access, level :: _ => some (.access level.chars)
  | _, _ => none

end Draft

namespace Tag

/-- The fields of the tag, with the variable name as the function spells it. -/
def draftWith (spelling : Variable → Word) : Tag → Draft
  | .var binding =>
    .var binding.type.chars (spelling binding).chars binding.description.text
  | .param binding =>
    .param binding.type.chars (spelling binding).chars binding.description.text
  | .returns outcome => .returns outcome.type.chars outcome.description.text
  | .throws outcome => .throws outcome.type.chars outcome.description.text
  | .author value => .author value.text
  | .license value => .license value.text
  | .package value => .package value.text
  | .access level => .access level.chars

/-- The draft of the tag, its variable name with the dollar sign. -/
def draft (tag : Tag) : Draft := tag.draftWith Variable.spelled

end Tag

end CommentBlock

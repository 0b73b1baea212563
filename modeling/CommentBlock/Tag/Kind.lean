import CommentBlock.Text.Word

/-!
# Kinds of tags

Eight kinds of tags are known. The sign of a kind, its name after an at sign,
introduces a tag of that kind. Only the license kind has a second spelling, which
is understood but never written. Names are compared exactly, letter case included.

Parameters and thrown exceptions may occur any number of times in a comment; of
each other kind there is at most one tag.
-/

namespace CommentBlock

/-- What a tag is about. -/
inductive Kind where
  | var
  | param
  | returns
  | throws
  | author
  | license
  | package
  | access
  deriving DecidableEq

namespace Kind

/-- All kinds. -/
def all : List Kind := [.var, .param, .returns, .throws, .author, .license, .package, .access]

/-- The name that is written for the kind. -/
def name : Kind → Text
  | .var => "var".toList
  | .param => "param".toList
  | .returns => "return".toList
  | .throws => "throws".toList
  | .author => "author".toList
  | .license => "license".toList
  | .package => "package".toList
  | .access => "access".toList

/-- Every name that is understood, with the kind it stands for. -/
def spellings : List (Text × Kind) :=
  all.map (fun kind => (kind.name, kind)) ++ [("licence".toList, .license)]

/-- The kind with the given name, if there is one. -/
def ofName? (name : Text) : Option Kind := spellings.lookup name

/-- The word that introduces a tag of the kind. -/
def sign (kind : Kind) : Word :=
  .ofChars ('@' :: kind.name) (by simp) (by cases kind <;> rfl)

/-- Whether a comment may hold several tags of the kind. -/
def isRepeatable : Kind → Bool
  | .param | .throws => true
  | _ => false

/-- The least number of words on a line that holds a tag of the kind, the star
and the sign included. -/
def minWords : Kind → Nat
  | .var | .param => 4
  | .returns | .throws | .access => 3
  | .author | .license | .package => 2

end Kind

end CommentBlock
